import Mathlib.Data.List.Induction
import Mathlib.Tactic.Common

/-!
# Packed Fields

Words that hold fields of `k` bits side by side. A field is written by clearing the
bits under a mask and setting those of the value. The mask may be wider than a field;
what it reaches behind the field is cleared.

A word that is written again and again holds in each field what was written last.
`last` says what this is for anything that is read from a state: the value of the last
call that has one, or what was there before.

## Main definitions

* `field`: A field of a word.
* `writeField`: A field is written under a mask.
* `last`: The value of the last call.
* `joinWith`: Bits are set and none is cleared.

## Theorems

* `field_writeField`, `field_written`, `field_outside`, `field_cleared`: The fields after
  a write.
* `field_or`: The fields after bits are set.
* `foldl_last`: A run of calls leaves the last value.
* `foldl_set`: A bit that calls set and none clears.
* `joined_eq_last_iff`: When this is so although bits are only set.
-/

namespace Fields

universe u v x

section Words

variable {w k : Nat}

/-- The field at position `p`. -/
def field (k : Nat) (r : BitVec w) (p : Nat) : BitVec k := r.extractLsb' (p * k) k

/-- A value is written at `shift`, after `m` bits from there on have been cleared. -/
def writeField (m : Nat) (r : BitVec w) (shift : Nat) (value : BitVec k) : BitVec w :=
  (r &&& ~~~((BitVec.allOnes m).setWidth w <<< shift)) ||| (value.setWidth w <<< shift)

theorem getLsbD_shifted (m shift : Nat) (value : BitVec m) {i : Nat} (hi : i < w) :
    (value.setWidth w <<< shift).getLsbD i = (decide (shift ≤ i) && value.getLsbD (i - shift)) := by
  rw [BitVec.getLsbD_shiftLeft, BitVec.getLsbD_setWidth, decide_eq_true hi, Bool.true_and,
    decide_eq_true (show i - shift < w by omega), Bool.true_and]
  congr 1
  rw [← decide_not, decide_eq_decide, Nat.not_lt]

/-- A bit after a write. -/
theorem getLsbD_writeField (m : Nat) (r : BitVec w) (shift : Nat) (value : BitVec k) {i : Nat}
    (hi : i < w) :
    (writeField m r shift value).getLsbD i =
      if i < shift then r.getLsbD i
      else (r.getLsbD i && !decide (i < shift + m)) || value.getLsbD (i - shift) := by
  rw [writeField, BitVec.getLsbD_or, BitVec.getLsbD_and, BitVec.getLsbD_not,
    getLsbD_shifted m shift _ hi, getLsbD_shifted k shift value hi, BitVec.getLsbD_allOnes,
    decide_eq_true hi, Bool.true_and]
  by_cases hshift : i < shift
  · rw [if_pos hshift, decide_eq_false (Nat.not_le_of_lt hshift), Bool.false_and, Bool.false_and,
      Bool.not_false, Bool.and_true, Bool.or_false]
  · have hmask : decide (i - shift < m) = decide (i < shift + m) := by
      rw [decide_eq_decide]
      omega
    rw [if_neg hshift, decide_eq_true (Nat.le_of_not_lt hshift), Bool.true_and, Bool.true_and,
      hmask]

/-- Fields are equal when their bits are. -/
theorem field_ext {r s : BitVec w} {p q : Nat}
    (h : ∀ j < k, r.getLsbD (p * k + j) = s.getLsbD (q * k + j)) : field k r p = field k s q := by
  refine BitVec.eq_of_getLsbD_eq fun j hj => ?_
  rw [field, field, BitVec.getLsbD_extractLsb', BitVec.getLsbD_extractLsb', h j hj]

/-- The field that is written holds the value. -/
theorem field_written {m p : Nat} (hm : k ≤ m) (hfits : p * k + k ≤ w) (r : BitVec w)
    (value : BitVec k) : field k (writeField m r (p * k) value) p = value := by
  refine BitVec.eq_of_getLsbD_eq fun j hj => ?_
  rw [field, BitVec.getLsbD_extractLsb', decide_eq_true hj, Bool.true_and,
    getLsbD_writeField m r _ value (by omega), if_neg (by omega), decide_eq_true (by omega),
    Bool.not_true, Bool.and_false, Bool.false_or, Nat.add_sub_cancel_left]

/-- A field that lies outside the mask is left alone. -/
theorem field_outside {m shift q : Nat} (hm : k ≤ m) (hfits : q * k + k ≤ w)
    (hout : q * k + k ≤ shift ∨ shift + m ≤ q * k) (r : BitVec w) (value : BitVec k) :
    field k (writeField m r shift value) q = field k r q := by
  refine field_ext fun j hj => ?_
  rw [getLsbD_writeField m r shift value (by omega)]
  by_cases hbefore : q * k + j < shift
  · rw [if_pos hbefore]
  · rw [if_neg hbefore, decide_eq_false (by omega), Bool.not_false, Bool.and_true,
      BitVec.getLsbD_of_ge value _ (by omega), Bool.or_false]

/-- Under a mask of its width a write changes one field. -/
theorem field_writeField {p q : Nat} (hp : p * k + k ≤ w) (hq : q * k + k ≤ w) (r : BitVec w)
    (value : BitVec k) :
    field k (writeField k r (p * k) value) q = if q = p then value else field k r q := by
  by_cases hqp : q = p
  · rw [if_pos hqp, hqp]
    exact field_written (Nat.le_refl k) hp r value
  · rw [if_neg hqp]
    refine field_outside (Nat.le_refl k) hq ?_ r value
    rcases Nat.lt_or_gt_of_ne hqp with hlt | hgt
    · exact Or.inl (by rw [← Nat.succ_mul]; exact Nat.mul_le_mul_right k hlt)
    · exact Or.inr (by rw [← Nat.succ_mul]; exact Nat.mul_le_mul_right k hgt)

/-- A field under the mask, behind the value, is cleared. -/
theorem field_cleared {m shift q : Nat} (hfits : q * k + k ≤ w) (hbehind : shift + k ≤ q * k)
    (hunder : q * k + k ≤ shift + m) (r : BitVec w) (value : BitVec k) :
    field k (writeField m r shift value) q = 0#k := by
  refine BitVec.eq_of_getLsbD_eq fun j hj => ?_
  rw [field, BitVec.getLsbD_extractLsb', decide_eq_true hj, Bool.true_and,
    getLsbD_writeField m r shift value (by omega), if_neg (by omega), decide_eq_true (by omega),
    Bool.not_true, Bool.and_false, Bool.false_or, BitVec.getLsbD_of_ge value _ (by omega),
    BitVec.getLsbD_zero]

/-- Where bits are only set, a field is joined with the value. -/
theorem field_or {p q : Nat} (hfits : q * k + k ≤ w) (r : BitVec w) (value : BitVec k) :
    field k (r ||| (value.setWidth w <<< (p * k))) q =
      if q = p then field k r q ||| value else field k r q := by
  by_cases hqp : q = p
  · rw [if_pos hqp, hqp]
    rw [hqp] at hfits
    refine BitVec.eq_of_getLsbD_eq fun j hj => ?_
    rw [field, field, BitVec.getLsbD_or, BitVec.getLsbD_extractLsb', BitVec.getLsbD_extractLsb',
      decide_eq_true hj, Bool.true_and, Bool.true_and, BitVec.getLsbD_or,
      getLsbD_shifted k _ value (by omega), decide_eq_true (by omega), Bool.true_and,
      Nat.add_sub_cancel_left]
  -- Where the fields are apart, the value has no bit.
  · rw [if_neg hqp]
    refine field_ext fun j hj => ?_
    rw [BitVec.getLsbD_or, getLsbD_shifted k _ value (by omega)]
    have hzero : (decide (p * k ≤ q * k + j) && value.getLsbD (q * k + j - p * k)) = false := by
      rcases Nat.lt_or_gt_of_ne hqp with hlt | hgt
      · have hbefore : q * k + k ≤ p * k := by
          rw [← Nat.succ_mul]
          exact Nat.mul_le_mul_right k hlt
        rw [decide_eq_false (by omega), Bool.false_and]
      · have hbehind : p * k + k ≤ q * k := by
          rw [← Nat.succ_mul]
          exact Nat.mul_le_mul_right k hgt
        rw [BitVec.getLsbD_of_ge value _ (by omega), Bool.and_false]
    rw [hzero, Bool.or_false]

end Words

section Calls

variable {σ : Type u} {ε : Type v} {α : Type x}

/-- The value of the last call that has one. -/
def last (value : ε → Option α) (calls : List ε) (initial : α) : α :=
  calls.foldl (fun current call => (value call).getD current) initial

theorem last_append (value : ε → Option α) (calls : List ε) (call : ε) (initial : α) :
    last value (calls ++ [call]) initial = (value call).getD (last value calls initial) := by
  rw [last, List.foldl_append]
  rfl

/-- What is read after a run of calls, when each call leaves its value or nothing. -/
theorem foldl_last {apply : σ → ε → σ} {read : σ → α} {value : ε → Option α}
    (h : ∀ s call, read (apply s call) = (value call).getD (read s)) (calls : List ε) (s : σ) :
    read (calls.foldl apply s) = last value calls (read s) :=
  (List.foldl_hom read fun s call => (h s call).symm).symm

/-- What is read when each call is made of smaller ones. -/
theorem last_flatMap {δ : Type v} {value : δ → Option α} {parts : ε → List δ}
    {whole : ε → Option α}
    (h : ∀ call initial, last value (parts call) initial = (whole call).getD initial)
    (calls : List ε) (initial : α) :
    last value (calls.flatMap parts) initial = last whole calls initial := by
  unfold last at h ⊢
  rw [List.foldl_flatMap]
  simp only [h]

/-- A bit that calls set and none clears. -/
theorem foldl_set {apply : σ → ε → σ} (read : σ → Bool) {sets : ε → Bool}
    (h : ∀ s call, read (apply s call) = (read s || sets call)) (calls : List ε) (s : σ) :
    read (calls.foldl apply s) = (read s || calls.any sets) := by
  induction calls generalizing s with
  | nil => rw [List.foldl_nil, List.any_nil, Bool.or_false]
  | cons call calls ih => rw [List.foldl_cons, ih, h, List.any_cons, Bool.or_assoc]

end Calls

section Joined

variable {σ : Type u} {ε : Type v} {k : Nat} {value : ε → Option (BitVec k)}

/-- A field joined with what a call sets in it. -/
def joinWith (value : ε → Option (BitVec k)) (current : BitVec k) (call : ε) : BitVec k :=
  match value call with
  | none => current
  | some bits => current ||| bits

/-- What is read after a run of calls that only set bits. -/
theorem foldl_joined {apply : σ → ε → σ} {read : σ → BitVec k}
    (h : ∀ s call, read (apply s call) = joinWith value (read s) call) (calls : List ε) (s : σ) :
    read (calls.foldl apply s) = calls.foldl (joinWith value) (read s) :=
  (List.foldl_hom read fun s call => (h s call).symm).symm

theorem or_below_iff (a b c : BitVec k) :
    (a ||| b) ||| c = c ↔ a ||| c = c ∧ b ||| c = c := by
  constructor
  · intro h
    constructor
    · rw [← h, ← BitVec.or_assoc, ← BitVec.or_assoc, BitVec.or_self]
    · rw [← h, ← BitVec.or_assoc, BitVec.or_comm b (a ||| b), BitVec.or_assoc a b b,
        BitVec.or_self]
  · rintro ⟨ha, hb⟩
    rw [BitVec.or_assoc, hb, ha]

/-- The bits of all the values together are among those of `c`. -/
theorem joined_below_iff (calls : List ε) (initial c : BitVec k) :
    calls.foldl (joinWith value) initial ||| c = c ↔
      initial ||| c = c ∧ ∀ call ∈ calls, ∀ bits, value call = some bits → bits ||| c = c := by
  induction calls generalizing initial with
  | nil => exact (and_iff_left fun call hcall => absurd hcall List.not_mem_nil).symm
  | cons call calls ih =>
      rw [List.foldl_cons, ih, joinWith, List.forall_mem_cons]
      cases hvalue : value call with
      | none =>
          dsimp only
          exact and_congr_right fun _ => (and_iff_right fun bits hc =>
            absurd hc (by simp only [reduceCtorEq, not_false_eq_true])).symm
      | some bits =>
          dsimp only
          rw [or_below_iff, and_assoc]
          refine and_congr_right fun _ => and_congr_left fun _ => ⟨fun h bits' hbits => ?_,
            fun h => h bits rfl⟩
          rw [← Option.some.inj hbits]
          exact h

/-- The last value is one of those that have been joined. -/
theorem last_below_joined (calls : List ε) (initial : BitVec k) :
    last value calls initial ||| calls.foldl (joinWith value) initial =
      calls.foldl (joinWith value) initial := by
  induction calls using List.reverseRecOn with
  | nil => exact BitVec.or_self
  | append_singleton calls call ih =>
      rw [last_append, List.foldl_append, List.foldl_cons, List.foldl_nil, joinWith]
      cases value call with
      | none => exact ih
      | some bits =>
          change bits ||| (_ ||| bits) = _ ||| bits
          rw [BitVec.or_comm _ bits, ← BitVec.or_assoc, BitVec.or_self]

/-- Joining leaves the last value exactly if this value has all the bits there were. -/
theorem joined_eq_last_iff (calls : List ε) (initial : BitVec k) :
    calls.foldl (joinWith value) initial = last value calls initial ↔
      initial ||| last value calls initial = last value calls initial ∧
        ∀ call ∈ calls, ∀ bits, value call = some bits →
          bits ||| last value calls initial = last value calls initial := by
  rw [← joined_below_iff]
  constructor
  · intro h
    rw [h, BitVec.or_self]
  · intro h
    rw [← last_below_joined, BitVec.or_comm, h]

end Joined

end Fields
