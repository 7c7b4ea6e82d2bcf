import Mathlib.Data.List.Infix
import Mathlib.Tactic.Common

/-!
# Pulses

The high pulses of a sampled signal. A pulse is as many high samples in a row as
there are, with a low one behind them; a signal that ends high does not show the
end of its last pulse. The signal is low before the first sample.

`pulses` cuts the signal into its levels. Somebody who reads the samples one by one
knows of the past only whether a pulse has begun, and with which sample;
`pulsesAfter` are the pulses that end from there on, and `begun` is what is known
after some samples. Cutting the signal anywhere cuts the pulses, so they can be
found by a loop.

## Main definitions

* `pulses`: The pulses of a signal, each with the samples that show its two edges.
* `pulsesAfter`: The pulses that end in what follows.
* `begun`: The pulse that has begun and not ended.

## Theorems

* `pulsesAfter_eq`: The reader finds the pulses.
* `pulsesAfter_append`: A signal may be cut anywhere.
* `pulses_part`: More samples show more pulses.
* `exists_part`: The signal can be cut behind any number of its pulses.
-/

namespace Pulses

universe u

variable {α : Type u} (high : α → Bool)

/-- The pulses of a signal: the first high sample, and the first low one behind it. -/
def pulses (l : List α) : List (α × α) :=
  match _hlow : l.dropWhile fun x => !high x with
  | [] => []
  | rise :: rest =>
    match _hhigh : rest.dropWhile high with
    | [] => []
    | fall :: rest' => (rise, fall) :: pulses rest'
termination_by l.length
decreasing_by
  have hrest : (l.dropWhile fun x => !high x).length ≤ l.length :=
    (List.dropWhile_suffix _).length_le
  have hrest' : (rest.dropWhile high).length ≤ rest.length := (List.dropWhile_suffix _).length_le
  rw [_hlow, List.length_cons] at hrest
  rw [_hhigh, List.length_cons] at hrest'
  omega

/-- The pulses that end in a signal before which one may have begun. -/
def pulsesAfter : Option α → List α → List (α × α)
  | _, [] => []
  | none, x :: l => if high x then pulsesAfter (some x) l else pulsesAfter none l
  | some rise, x :: l =>
    if high x then pulsesAfter (some rise) l else (rise, x) :: pulsesAfter none l

/-- The pulse that has begun and not ended. -/
def begun : Option α → List α → Option α
  | o, [] => o
  | none, x :: l => if high x then begun (some x) l else begun none l
  | some rise, x :: l => if high x then begun (some rise) l else begun none l

variable {high}

/-- Nothing happens while the signal is low. -/
theorem pulsesAfter_low (l : List α) : pulsesAfter high none l =
    match l.dropWhile fun x => !high x with
    | [] => []
    | rise :: rest => pulsesAfter high (some rise) rest := by
  induction l with
  | nil => rfl
  | cons x l ih =>
      cases hx : high x with
      | true => simp only [pulsesAfter, List.dropWhile_cons, hx, if_true, Bool.not_true,
          Bool.false_eq_true, if_false]
      | false => simpa only [pulsesAfter, List.dropWhile_cons, hx, if_true, Bool.not_false,
          Bool.false_eq_true, if_false] using ih

/-- A pulse that has begun ends with the next low sample. -/
theorem pulsesAfter_high (rise : α) (l : List α) : pulsesAfter high (some rise) l =
    match l.dropWhile high with
    | [] => []
    | fall :: rest => (rise, fall) :: pulsesAfter high none rest := by
  induction l with
  | nil => rfl
  | cons x l ih =>
      cases hx : high x with
      | true => simpa only [pulsesAfter, List.dropWhile_cons, hx, if_true] using ih
      | false => simp only [pulsesAfter, List.dropWhile_cons, hx, Bool.false_eq_true, if_false]

/-- The definition, without what its termination rests on. -/
theorem pulses_cut (l : List α) : pulses high l =
    match l.dropWhile fun x => !high x with
    | [] => []
    | rise :: rest =>
      match rest.dropWhile high with
      | [] => []
      | fall :: rest' => (rise, fall) :: pulses high rest' := by
  rw [pulses]
  split
  next hlow => rw [hlow]
  next rise rest hlow =>
      rw [hlow]
      split
      next hhigh => simp only [hhigh]
      next fall rest' hhigh => simp only [hhigh]

/-- The reader finds the pulses. -/
theorem pulsesAfter_eq (l : List α) : pulsesAfter high none l = pulses high l := by
  induction l using pulses.induct high with
  | case1 l hlow => rw [pulsesAfter_low, pulses_cut, hlow]
  | case2 l rise rest hlow hhigh =>
      rw [pulsesAfter_low, pulses_cut, hlow]
      simp only [pulsesAfter_high, hhigh]
  | case3 l rise rest hlow fall rest' hhigh ih =>
      rw [pulsesAfter_low, pulses_cut, hlow]
      simp only [pulsesAfter_high, hhigh, ih]

theorem pulsesAfter_append (o : Option α) (l m : List α) :
    pulsesAfter high o (l ++ m) =
      pulsesAfter high o l ++ pulsesAfter high (begun high o l) m := by
  induction l generalizing o with
  | nil => rfl
  | cons x l ih =>
      cases o <;> cases hx : high x <;>
        simp only [List.cons_append, pulsesAfter, begun, hx, if_true, Bool.false_eq_true,
          if_false, ih]

/-- More samples show more pulses. -/
theorem pulses_part {l m : List α} (h : l <+: m) : pulses high l <+: pulses high m := by
  rcases h with ⟨k, rfl⟩
  rw [← pulsesAfter_eq, ← pulsesAfter_eq, pulsesAfter_append]
  exact List.prefix_append _ _

/-- A sample ends one pulse at most. -/
theorem length_pulsesAfter_le (o : Option α) (x : α) : (pulsesAfter high o [x]).length ≤ 1 := by
  cases o <;> cases hx : high x <;>
    simp only [pulsesAfter, hx, if_true, Bool.false_eq_true, if_false, List.length_nil,
      List.length_cons, Nat.zero_le, Nat.le_refl]

/-- The signal can be cut behind any number of its pulses. -/
theorem exists_part {l : List α} {n : Nat} (hn : n ≤ (pulses high l).length) :
    ∃ m, m <+: l ∧ (pulses high m).length = n := by
  induction l using List.reverseRecOn with
  | nil =>
      refine ⟨[], List.prefix_rfl, ?_⟩
      rw [← pulsesAfter_eq] at hn ⊢
      exact (Nat.le_zero.mp hn).symm
  | append_singleton l x ih =>
      by_cases hle : n ≤ (pulses high l).length
      · rcases ih hle with ⟨m, hm, hlength⟩
        exact ⟨m, hm.trans (List.prefix_append l [x]), hlength⟩
      -- The last sample ends the pulse that is missing.
      · refine ⟨l ++ [x], List.prefix_rfl, ?_⟩
        have hone : (pulsesAfter high (begun high none l) [x]).length ≤ 1 :=
          length_pulsesAfter_le _ _
        rw [← pulsesAfter_eq] at hle hn ⊢
        rw [pulsesAfter_append, List.length_append] at hn ⊢
        omega

end Pulses
