import Mathlib.Tactic.Common
import Mathlib.Tactic.IntervalCases
import Mathlib.Logic.Function.Basic

/-!
# Byte Buffers

Character arrays and the counted loops that fill them. A buffer is a function
from indices to bytes: a write is an update, and a loop whose body writes the
next cell leaves the values in the range it ran over and nothing else.

Words are stored with the low byte first.

## Main definitions

* `loop`: `for (i = 0; i < n; i++)`.
* `byteOf`: A byte of a word.
* `wordOf`: The word in four bytes.

## Theorems

* `loop_fill`: What a loop of writes leaves in the buffer.
* `loop_collect`: What a loop that appends has collected.
* `wordOf_byteOf`, `byteOf_wordOf`: A word is its four bytes.
* `wordOf_inj`: Equal words have equal bytes.
-/

namespace Buffer

universe u v

variable {σ : Type u} {α : Type v}

/-- `for (unsigned int i = 0; i < n; i++)` -/
def loop (body : Nat → σ → σ) : Nat → σ → σ
  | 0, s => s
  | n + 1, s => body n (loop body n s)

/-- A loop that writes the cells from `offset` on, one after the other. -/
theorem loop_fill (value : Nat → α) (offset n : Nat) (b : Nat → α) (k : Nat) :
    loop (fun i b => Function.update b (offset + i) (value i)) n b k =
      if offset ≤ k ∧ k < offset + n then value (k - offset) else b k := by
  induction n with
  | zero => rw [loop, if_neg (by omega)]
  | succ n ih =>
      rw [loop]
      by_cases hk : k = offset + n
      · rw [hk, Function.update_self, if_pos (by omega), Nat.add_sub_cancel_left]
      · rw [Function.update_of_ne hk, ih]
        -- The cell just written is not this one, so the range may grow by it.
        by_cases hin : offset ≤ k ∧ k < offset + n
        · rw [if_pos hin, if_pos (by omega)]
        · rw [if_neg hin, if_neg (by omega)]

/-- A loop that appends one value in each round. -/
theorem loop_collect (value : Nat → α) (n : Nat) (l : List α) :
    loop (fun i l => l ++ [value i]) n l = l ++ (List.range n).map value := by
  induction n with
  | zero => rw [loop, List.range_zero, List.map_nil, List.append_nil]
  | succ n ih =>
      rw [loop, ih, List.range_succ, List.map_append, List.append_assoc]
      rfl

/-- The byte at position `i` of a word in memory. -/
def byteOf (w : BitVec 32) (i : Nat) : BitVec 8 := (w >>> (8 * i)).setWidth 8

/-- The word stored in the first four bytes of a buffer. -/
def wordOf (b : Nat → BitVec 8) : BitVec 32 := b 3 ++ b 2 ++ b 1 ++ b 0

theorem wordOf_byteOf (w : BitVec 32) : wordOf (byteOf w) = w := by
  unfold wordOf byteOf
  ext i hi
  have hbit : ∀ j, j = i → w.getLsbD j = w[i] := by
    intro j hj
    rw [hj, BitVec.getLsbD_eq_getElem]
  simp only [BitVec.getElem_append, BitVec.getElem_setWidth, BitVec.getLsbD_ushiftRight]
  -- One case for each of the four bytes.
  split
  · exact hbit _ (by omega)
  · split
    · exact hbit _ (by omega)
    · split
      · exact hbit _ (by omega)
      · exact hbit _ (by omega)

theorem byteOf_wordOf (b : Nat → BitVec 8) {i : Nat} (hi : i < 4) :
    byteOf (wordOf b) i = b i := by
  unfold wordOf byteOf
  ext j hj
  interval_cases i <;>
    simp only [BitVec.getElem_setWidth, BitVec.getLsbD_ushiftRight, BitVec.getLsbD_append] <;>
    grind

/-- Equal words have equal bytes. -/
theorem wordOf_inj (b c : Nat → BitVec 8) : wordOf b = wordOf c ↔ ∀ i < 4, b i = c i := by
  constructor
  · intro h i hi
    rw [← byteOf_wordOf b hi, h, byteOf_wordOf c hi]
  · intro h
    unfold wordOf
    rw [h 0 (by decide), h 1 (by decide), h 2 (by decide), h 3 (by decide)]

end Buffer
