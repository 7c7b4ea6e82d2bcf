import Mathlib.Data.BitVec

/-!
# Single Bits

Registers are read and written a bit at a time: `x & (1 << n)` tests a bit,
`x | (1 << n)` sets it and `x & ~(1 << n)` clears it.

## Theorems

* `test_iff`: The test is that of the bit.
* `getLsbD_clearBit`: Clearing a bit leaves the others.
-/

namespace Bits

variable {w : Nat}

theorem test_eq (x : BitVec w) (n : Nat) :
    x &&& (1#w <<< n) = if x.getLsbD n then 1#w <<< n else 0#w := by
  rw [← BitVec.twoPow_eq]
  exact BitVec.and_twoPow x n

theorem bit_ne_zero {n : Nat} (hn : n < w) : 1#w <<< n ≠ 0#w := by
  intro hc
  have hbit := congrArg (BitVec.getLsbD · n) hc
  simp only [← BitVec.twoPow_eq, BitVec.getLsbD_twoPow, decide_eq_true hn, decide_true,
    Bool.and_true, BitVec.getLsbD_zero, Bool.true_eq_false] at hbit

theorem test_iff (x : BitVec w) {n : Nat} (hn : n < w) :
    x &&& (1#w <<< n) ≠ 0#w ↔ x.getLsbD n = true := by
  rw [test_eq]
  cases x.getLsbD n with
  | true => exact iff_of_true (bit_ne_zero hn) rfl
  | false => exact iff_of_false (not_not_intro rfl) Bool.false_ne_true

theorem getLsbD_clearBit (x : BitVec w) {n : Nat} (hn : n < w) (i : Nat) :
    (x &&& ~~~(1#w <<< n)).getLsbD i = (x.getLsbD i && !decide (n = i)) := by
  by_cases hi : i < w
  · rw [BitVec.getLsbD_and, BitVec.getLsbD_not, ← BitVec.twoPow_eq, BitVec.getLsbD_twoPow,
      decide_eq_true hi, decide_eq_true hn, Bool.true_and, Bool.true_and]
  · rw [BitVec.getLsbD_of_ge _ _ (Nat.le_of_not_lt hi), BitVec.getLsbD_of_ge x i
      (Nat.le_of_not_lt hi), Bool.false_and]

end Bits
