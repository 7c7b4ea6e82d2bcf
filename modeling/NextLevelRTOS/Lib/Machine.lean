import Mathlib.Data.List.Induction
import Mathlib.Tactic.Common

/-!
# Event Machines

A machine driven by events. The step function is partial: an event that is
not enabled in a state, or whose code dereferences a null pointer there, has
no successor. Everything nondeterministic about a system (which interrupt
arrives, what the allocator answers, which task is scheduled) is carried by
the event, so the step itself is a function and a run can be evaluated.

A run is a list of events. `Meets C es s` says that each event of the run
`es` satisfies `C` in the state it is taken in, which is how a statement
about restricted runs is written: `C` talks about a step and the state
before it, never about the state after.

`run_invariant` is the one induction over runs. A safety proof supplies what
a single step preserves and gets what every run preserves.

## Main definitions

* `run`: Iterating the step function along a list of events.
* `Meets`: Every step of a run satisfies a condition on its state.
* `Occurs`: At one of the events a condition held of it and of those before.
* `Ends`: A run completes in a state with a property.

## Theorems

* `run_append`: A run splits at any point.
* `run_invariant`: A step invariant, relative to a condition, is a run
  invariant.
* `run_preserves`: A step invariant is a run invariant.
* `occurs_append`: A condition on an event and those before it, when there is one more.
* `run_history`: What is kept of the events so far and the state.
* `meets_append`: The condition splits with the run.
* `meets_join`: Two runs that meet it, one after the other, are a run that does.
* `meets_mono`: A stronger condition will do.
* `meets_congr`: A condition may be replaced by one that says the same where an
  invariant holds.
-/

namespace Machine

universe u v

variable {σ : Type u} {ε : Type v} (step : ε → σ → Option σ)

/-- Take the events in order, stopping at the first one without successor. -/
def run : List ε → σ → Option σ
  | [], s => some s
  | e :: es, s => match step e s with
    | none => none
    | some s' => run es s'

/-- Every step of the run satisfies `C` in the state it is taken in. -/
def Meets (C : σ → ε → Prop) : List ε → σ → Prop
  | [], _ => True
  | e :: es, s => C s e ∧ match step e s with
    | none => True
    | some s' => Meets C es s'

theorem run_cons {e : ε} {es : List ε} {s t : σ} (h : run step (e :: es) s = some t) :
    ∃ s', step e s = some s' ∧ run step es s' = some t := by
  cases hstep : step e s with
  | none =>
      simp only [run, hstep, reduceCtorEq] at h
  | some s' =>
      simp only [run, hstep] at h
      exact ⟨s', rfl, h⟩

theorem run_one {e : ε} {s s' : σ} (h : step e s = some s') : run step [e] s = some s' := by
  simp only [run, h]

theorem run_append (es fs : List ε) (s : σ) :
    run step (es ++ fs) s = (run step es s).bind (run step fs) := by
  induction es generalizing s with
  | nil => rfl
  | cons e es ih =>
      cases hstep : step e s with
      | none => simp only [List.cons_append, run, hstep, Option.bind_none]
      | some s' => simpa only [List.cons_append, run, hstep] using ih s'

theorem meets_one {C : σ → ε → Prop} {e : ε} {s s' : σ} (h : step e s = some s') (hC : C s e) :
    Meets step C [e] s := by
  refine ⟨hC, ?_⟩
  rw [h]
  trivial

-- The second half is judged in the state the first half ends in.
theorem meets_append {C : σ → ε → Prop} {es fs : List ε} {s s' : σ}
    (h : Meets step C (es ++ fs) s) (hrun : run step es s = some s') :
    Meets step C es s ∧ Meets step C fs s' := by
  induction es generalizing s with
  | nil =>
      simp only [run, Option.some.injEq] at hrun
      rw [← hrun]
      exact ⟨trivial, h⟩
  | cons e es ih =>
      rcases run_cons step hrun with ⟨t, hstep, hrest⟩
      rcases h with ⟨hC, htail⟩
      rw [hstep] at htail
      rcases ih htail hrest with ⟨hes, hfs⟩
      exact ⟨⟨hC, by rw [hstep]; exact hes⟩, hfs⟩

theorem meets_join {C : σ → ε → Prop} {es fs : List ε} {s s' : σ} (h : Meets step C es s)
    (hrun : run step es s = some s') (h' : Meets step C fs s') : Meets step C (es ++ fs) s := by
  induction es generalizing s with
  | nil =>
      simp only [run, Option.some.injEq] at hrun
      rwa [hrun]
  | cons e es ih =>
      rcases run_cons step hrun with ⟨t, hstep, hrest⟩
      rcases h with ⟨hC, htail⟩
      rw [hstep] at htail
      refine ⟨hC, ?_⟩
      rw [hstep]
      exact ih htail hrest

theorem meets_mono {C D : σ → ε → Prop} (h : ∀ s e, C s e → D s e) {es : List ε} {s : σ}
    (hC : Meets step C es s) : Meets step D es s := by
  induction es generalizing s with
  | nil => trivial
  | cons e es ih =>
      refine ⟨h s e hC.1, ?_⟩
      cases hstep : step e s with
      | none => trivial
      | some s' =>
          have htail := hC.2
          rw [hstep] at htail
          exact ih htail

/-- Conditions that say the same in the states of an invariant are met by the same
    runs. -/
theorem meets_congr (Inv : σ → Prop) {C D : σ → ε → Prop}
    (hpres : ∀ s e s', Inv s → step e s = some s' → Inv s')
    (h : ∀ s e, Inv s → (C s e ↔ D s e)) {es : List ε} {s : σ} (hs : Inv s) :
    Meets step C es s ↔ Meets step D es s := by
  induction es generalizing s with
  | nil => exact Iff.rfl
  | cons e es ih =>
      refine and_congr (h s e hs) ?_
      cases hstep : step e s with
      | none => exact Iff.rfl
      | some s' => exact ih (hpres s e s' hs hstep)

/-- What every step meeting the condition preserves, every run whose steps
    meet the condition preserves. -/
theorem run_invariant (Inv : σ → Prop) {C : σ → ε → Prop}
    (hpres : ∀ s e s', Inv s → C s e → step e s = some s' → Inv s') :
    ∀ (es : List ε) (s t : σ), Inv s → Meets step C es s → run step es s = some t → Inv t := by
  -- The state is generalised: the tail of the run starts somewhere else.
  intro es
  induction es with
  | nil =>
      intro s t hs _ hrun
      simp only [run, Option.some.injEq] at hrun
      rw [← hrun]
      exact hs
  | cons e es ih =>
      intro s t hs hC hrun
      rcases run_cons step hrun with ⟨s', hstep, hrest⟩
      rcases hC with ⟨hCe, hCes⟩
      rw [hstep] at hCes
      exact ih s' t (hpres s e s' hs hCe hstep) hCes hrest

/-- The unconditional form: a step invariant holds along every run. -/
theorem run_preserves (Inv : σ → Prop)
    (hpres : ∀ s e s', Inv s → step e s = some s' → Inv s') :
    ∀ (es : List ε) (s t : σ), Inv s → run step es s = some t → Inv t := by
  intro es
  induction es with
  | nil =>
      intro s t hs hrun
      simp only [run, Option.some.injEq] at hrun
      rw [← hrun]
      exact hs
  | cons e es ih =>
      intro s t hs hrun
      rcases run_cons step hrun with ⟨s', hstep, hrest⟩
      exact ih s' t (hpres s e s' hs hstep) hrest

/-- What holds of the events so far and the state they lead to, when every step keeps it. -/
theorem run_history (Inv : List ε → σ → Prop) {s : σ} (hstart : Inv [] s)
    (hpres : ∀ es e t t', Inv es t → step e t = some t' → Inv (es ++ [e]) t') (es : List ε) :
    ∀ t, run step es s = some t → Inv es t := by
  induction es using List.reverseRecOn with
  | nil =>
      intro t hrun
      simp only [run, Option.some.injEq] at hrun
      rw [← hrun]
      exact hstart
  | append_singleton es e ih =>
      intro t' hrun
      rw [run_append, Option.bind_eq_some_iff] at hrun
      rcases hrun with ⟨t, hrun, hlast⟩
      rcases run_cons step hlast with ⟨t'', hstep, hnil⟩
      simp only [run, Option.some.injEq] at hnil
      rw [← hnil]
      exact hpres es e t t'' (ih t hrun) hstep

/-- At one of the events the condition held of it and of those before. -/
def Occurs (C : List ε → ε → Prop) (es : List ε) : Prop :=
  ∃ before e after, es = before ++ e :: after ∧ C before e

theorem occurs_nil {C : List ε → ε → Prop} : ¬ Occurs C [] := by
  rintro ⟨before, e, after, h, _⟩
  exact List.append_ne_nil_of_right_ne_nil before (List.cons_ne_nil e after) h.symm

theorem occurs_append {C : List ε → ε → Prop} {es : List ε} {e : ε} :
    Occurs C (es ++ [e]) ↔ Occurs C es ∨ C es e := by
  constructor
  · rintro ⟨before, e', after, h, hC⟩
    -- The event is the last one, or what follows it ends with the last one.
    cases after using List.reverseRecOn with
    | nil =>
        rcases List.append_inj' h rfl with ⟨hes, he⟩
        rw [hes, List.cons.inj he |>.1]
        exact Or.inr hC
    | append_singleton after _ =>
        rw [← List.cons_append, ← List.append_assoc] at h
        exact Or.inl ⟨before, e', after, (List.append_inj' h rfl).1, hC⟩
  · rintro (⟨before, e', after, h, hC⟩ | hC)
    · exact ⟨before, e', after ++ [e], by rw [h, List.append_assoc, List.cons_append], hC⟩
    · exact ⟨es, e, [], rfl, hC⟩

/-- Where every event is enabled in every state, every run completes. -/
theorem run_total (htotal : ∀ e s, ∃ s', step e s = some s') (es : List ε) (s : σ) :
    ∃ t, run step es s = some t := by
  induction es generalizing s with
  | nil => exact ⟨s, rfl⟩
  | cons e es ih =>
      rcases htotal e s with ⟨s', hstep⟩
      simp only [run, hstep]
      exact ih s'

/-- The run completes, and the state it ends in has the property. -/
def Ends (es : List ε) (s : σ) (P : σ → Prop) : Prop :=
  ∃ t, run step es s = some t ∧ P t

-- Both are decided by evaluating the run, so a concrete run can be checked.
instance decidableEnds (es : List ε) (s : σ) (P : σ → Prop) [DecidablePred P] :
    Decidable (Ends step es s P) :=
  match h : run step es s with
  | none => isFalse fun ⟨t, ht, _⟩ => by
      rw [h] at ht
      exact absurd ht (by simp only [reduceCtorEq, not_false_eq_true])
  | some t => decidable_of_iff (P t) ⟨fun hP => ⟨t, h, hP⟩, fun ⟨t', ht', hP⟩ => by
      rw [h] at ht'
      rwa [Option.some.inj ht']⟩

instance decidableMeets (C : σ → ε → Prop) [∀ s e, Decidable (C s e)] :
    ∀ (es : List ε) (s : σ), Decidable (Meets step C es s)
  | [], _ => isTrue trivial
  | e :: es, s =>
    match h : step e s with
    | none => decidable_of_iff (C s e) (by simp only [Meets, h, and_true])
    | some s' =>
      have : Decidable (Meets step C es s') := decidableMeets C es s'
      decidable_of_iff (C s e ∧ Meets step C es s') (by simp only [Meets, h])

end Machine
