import Mathlib.Data.List.TakeWhile
import NextLevelRTOS.Sensor.Readings

/-!
# More than Forty Pulses

The position in `am2302_run` is an unsigned number of 64 bits. It is not looked at
before it is decremented, so after the fortieth pulse it is the largest number there
is, and a pulse that is measured as a one shifts by that much. A pulse that is
measured as a zero does not shift at all.

So noise is harmless as long as it is short. After 2⁶⁴ pulses the positions begin
again, and a one may then be set where one is set already; this is why the condition
is not simply that there are no ones after the fortieth pulse.

The time of the rise is never read before it is written: the pin starts out low, so
there is no fall without a rise.

## Main definitions

* `decodedWord`: The forty bits from which the readings are cut.
* `DecodesSafely`: The shifts stay in range, pulses after the fortieth change nothing,
  and times of rises are compared.
* `LateOnesRepeated`: What the pulses after the fortieth have to be.

## Theorems

* `decodesSafely_iff`: When noise is harmless.
* `overlong_shift`: Forty-one ones are not.
-/

namespace NextLevelRTOS

open Pulses

/-- The forty bits from which the readings are cut. -/
def decodedWord (c : Setting) (xs : List Sample) : BitVec 40 := (decode c xs).result.setWidth 40

/-- Every shift is by 39 at most, the word is the same as after any part of the signal
    that shows forty pulses, and each pulse is measured from its rise. -/
structure DecodesSafely (c : Setting) (xs : List Sample) : Prop where
  shifts : ∀ n ∈ (decode c xs).shifts, n.toNat ≤ 39
  word : ∀ ys, ys <+: xs → (highPulses c ys).length = 40 → decodedWord c ys = decodedWord c xs
  compared : (decode c xs).compared = (highPulses c xs).map fun p => some p.1.counter

/-- A one after the fortieth pulse repeats one of the first forty, 2⁶⁴ pulses or a multiple
    of it before. -/
def LateOnesRepeated (l : List Bool) : Prop :=
  ∀ k, 40 ≤ k → l[k]? = some true → k % 2 ^ 64 < 40 ∧ l[k % 2 ^ 64]? = some true

section Noise

variable {c : Setting} {xs ys : List Sample}

theorem toNat_position_mod (k : Nat) :
    (position k).toNat = (39 + (2 ^ 64 - k % 2 ^ 64)) % 2 ^ 64 := by
  rw [position, BitVec.toNat_sub, BitVec.toNat_ofNat, Nat.add_comm]
  rfl

theorem position_in_range {k : Nat} : (position k).toNat ≤ 39 ↔ k % 2 ^ 64 < 40 := by
  rw [toNat_position_mod]
  omega

theorem window_part (h : ys <+: xs) : window ys <+: window xs := by
  rcases h with ⟨zs, rfl⟩
  rw [window, window, List.takeWhile_append]
  by_cases hall : (ys.takeWhile fun x => decide (x.elapsed < 10000)).length = ys.length
  · rw [if_pos hall]
    exact (List.takeWhile_prefix _).trans (List.prefix_append _ _)
  · rw [if_neg hall]

/-- The number of the pulse, but for multiples of 2⁶⁴. -/
theorem sub_position {k : Nat} (hk : k % 2 ^ 64 < 40) : 39 - (position k).toNat = k % 2 ^ 64 := by
  rw [toNat_position_mod]
  omega

/-- A part of the signal shows part of the bits. -/
theorem bits_part (h : ys <+: xs) : bits c ys <+: bits c xs :=
  (pulses_part (window_part h)).map isLong

/-- The signal can be cut behind the fortieth pulse. -/
theorem exists_forty (h : 40 ≤ (highPulses c xs).length) :
    ∃ ys, ys <+: xs ∧ (highPulses c ys).length = 40 := by
  rcases exists_part h with ⟨ys, hpart, hlength⟩
  have hinside : ∀ x ∈ window xs, decide (x.elapsed < 10000) = true := by
    intro x hx
    rw [window] at hx
    exact List.mem_takeWhile_imp (p := fun x : Sample => decide (x.elapsed < 10000)) hx
  have hwindow : window ys = ys :=
    List.takeWhile_eq_self_iff.mpr fun x hx => hinside x (hpart.subset hx)
  refine ⟨ys, hpart.trans (List.takeWhile_prefix _), ?_⟩
  rw [highPulses, hwindow]
  exact hlength

/-- The bits that a part of forty pulses decodes to. -/
theorem getLsbD_part (h : ys <+: xs) (hforty : (highPulses c ys).length = 40) {i : Nat}
    (hi : i < 40) :
    (decodedWord c ys).getLsbD i = true ↔ (bits c xs)[39 - i]? = some true := by
  have hlength : (bits c ys).length = 40 := (List.length_map _).trans hforty
  have hlt : 39 - i < (bits c ys).length := by omega
  rw [decodedWord, BitVec.getLsbD_setWidth, decide_eq_true hi, Bool.true_and,
    decode_forty hlength, decide_eq_true hi, Bool.true_and, getD_eq_true]
  rcases bits_part (c := c) h with ⟨l, hl⟩
  rw [← hl, List.getElem?_append_left hlt]

/-- Where all shifts are in range, these are the bits of all pulses. -/
theorem getLsbD_whole (h : ∀ n ∈ (decode c xs).shifts, n.toNat ≤ 39) {i : Nat} (hi : i < 40) :
    (decodedWord c xs).getLsbD i = true ↔
      ∃ k, (bits c xs)[k]? = some true ∧ (position k).toNat = i := by
  rw [decodedWord, BitVec.getLsbD_setWidth, decide_eq_true hi, Bool.true_and]
  exact getLsbD_decode fun n hn => lt_of_le_of_lt (h n hn) (by decide)

theorem decodesSafely_repeated (h : DecodesSafely c xs) : LateOnesRepeated (bits c xs) := by
  intro k hk hone
  have hrange := h.shifts _ (mem_shifts.mpr ⟨k, hone, rfl⟩)
  have hmod := position_in_range.mp hrange
  refine ⟨hmod, ?_⟩
  -- The word has the bit, and so it has it after the first forty pulses.
  have hlength : 40 ≤ (highPulses c xs).length := by
    have hlt := (List.getElem?_eq_some_iff.mp hone).1
    rw [bits, List.length_map] at hlt
    omega
  rcases exists_forty hlength with ⟨ys, hpart, hforty⟩
  have hwhole := (getLsbD_whole h.shifts (Nat.lt_succ_of_le hrange)).mpr ⟨k, hone, rfl⟩
  rw [← h.word ys hpart hforty, getLsbD_part hpart hforty (Nat.lt_succ_of_le hrange)] at hwhole
  rwa [sub_position hmod] at hwhole

theorem repeated_decodesSafely (h : LateOnesRepeated (bits c xs)) : DecodesSafely c xs := by
  have hearly : ∀ k, (bits c xs)[k]? = some true →
      k % 2 ^ 64 < 40 ∧ (bits c xs)[k % 2 ^ 64]? = some true := by
    intro k hone
    by_cases hk : k < 40
    · rw [Nat.mod_eq_of_lt (by omega)]
      exact ⟨hk, hone⟩
    · exact h k (Nat.le_of_not_lt hk) hone
  have hshifts : ∀ n ∈ (decode c xs).shifts, n.toNat ≤ 39 := by
    intro n hn
    rcases mem_shifts.mp hn with ⟨k, hone, rfl⟩
    exact position_in_range.mpr (hearly k hone).1
  refine ⟨hshifts, fun ys hpart hforty => BitVec.eq_of_getLsbD_eq fun i hi => ?_,
    decode_compared c xs⟩
  rw [Bool.eq_iff_iff, getLsbD_part hpart hforty hi, getLsbD_whole hshifts hi]
  constructor
  · exact fun hone => ⟨39 - i, hone, by rw [toNat_position (by omega)]; omega⟩
  · rintro ⟨k, hone, rfl⟩
    rcases hearly k hone with ⟨hmod, hrepeated⟩
    rwa [sub_position hmod]

end Noise

/-- Noise is harmless exactly if the pulses after the fortieth are short, or repeat ones of
    the first forty. -/
theorem decodesSafely_iff (c : Setting) (xs : List Sample) :
    DecodesSafely c xs ↔ LateOnesRepeated (bits c xs) :=
  ⟨decodesSafely_repeated, repeated_decodesSafely⟩

/-- Forty-one pulses of 70 microseconds. -/
def overlong : List Sample := signal (List.replicate 41 true)

/-- The last of forty-one pulses shifts by the largest number there is. -/
theorem overlong_shift : ¬ DecodesSafely onPinZero overlong := by
  intro h
  have hmem : BitVec.allOnes 64 ∈ (decode onPinZero overlong).shifts := by decide +kernel
  exact absurd (h.shifts _ hmem) (by decide)

end NextLevelRTOS
