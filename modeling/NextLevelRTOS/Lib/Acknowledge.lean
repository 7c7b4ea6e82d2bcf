import Mathlib.Logic.Function.Basic
import NextLevelRTOS.Lib.Machine

/-!
# Acknowledging by Read and Write Back

Flags in registers in which a pending flag is cleared by writing a one to it. To
acknowledge a flag its register is read, the flag's bit is set in what was read, and
the result is written back. What is written covers every flag that was pending in
the register, so all of them are cleared.

Between the read and the write other flags may be raised. These are not covered and
stay pending.

An acknowledgement clears exactly its own flag if no other one in the register was
pending when it was read. If this is so of every read of a run, no flag is ever
lost.

## Main definitions

* `Bank`: Flags, the values written to clear them, and what reading and writing does.
* `Bank.acknowledge`: A read and the write that belongs to it.
* `Handlers`: Flags, the writes that are on their way, and the flags raised and not
  yet acknowledged.
* `Bank.step`: The transition function.
* `Bank.Alone`: The condition on a read.

## Theorems

* `acknowledge_exact_iff`: When an acknowledgement clears exactly its own flag.
* `step_kept`, `run_kept`: When no flag is lost.
-/

namespace Acknowledge

open Machine

universe u v x

section Words

variable {w : Nat}

/-- A write to a register whose pending bits are cleared by ones. -/
def writeOnes (pending value : BitVec w) : BitVec w := pending &&& ~~~value

theorem getLsbD_writeOnes (pending value : BitVec w) (i : Nat) :
    (writeOnes pending value).getLsbD i = (pending.getLsbD i && !value.getLsbD i) := by
  rw [writeOnes, BitVec.getLsbD_and, BitVec.getLsbD_not]
  by_cases hi : i < w
  · rw [decide_eq_true hi, Bool.true_and]
  · rw [BitVec.getLsbD_of_ge pending i (by omega), Bool.false_and, Bool.false_and]

theorem getLsbD_setBit (value : BitVec w) {n : Nat} (hn : n < w) (i : Nat) :
    (value ||| (1#w <<< n)).getLsbD i = (value.getLsbD i || decide (n = i)) := by
  have hbit : (1#w <<< n).getLsbD i = decide (n = i) := by
    refine (BitVec.getLsbD_twoPow n i).trans ?_
    rw [decide_eq_true hn, Bool.true_and]
  rw [BitVec.getLsbD_or, hbit]

end Words

/-- Flags `F` in registers whose state is `σ`, and the writes `V` that clear them. -/
structure Bank (F : Type u) (σ : Type v) (V : Type x) where
  pending : σ → F → Bool
  /-- The two flags are in one register. -/
  shares : F → F → Prop
  /-- The write has a one for the flag. -/
  covers : V → F → Bool
  raise : F → σ → σ
  fetch : F → σ → V
  store : V → σ → σ
  pending_raise : ∀ f g s, pending (raise f s) g = true ↔ pending s g = true ∨ g = f
  covers_fetch : ∀ f g s, covers (fetch f s) g = true ↔ g = f ∨ (shares f g ∧ pending s g = true)
  pending_store : ∀ v g s, pending (store v s) g = true ↔
    pending s g = true ∧ ¬ covers v g = true

/-- The flags, the writes that are on their way, and the flags that were raised and
    have not been acknowledged since. -/
structure Handlers (F : Type u) (σ : Type v) (V : Type x) where
  flags : σ
  writing : F → Option V
  owed : F → Bool

/-- A flag is raised, or its handler reads or writes. -/
inductive Access (F : Type u) where
  | raise (f : F)
  | fetch (f : F)
  | store (f : F)
  deriving DecidableEq

variable {F : Type u} {σ : Type v} {V : Type x}

namespace Bank

variable (B : Bank F σ V)

/-- A flag is acknowledged without anything in between. -/
def acknowledge (f : F) (s : σ) : σ := B.store (B.fetch f s) s

/-- The flag is cleared, and the others are left as they are. -/
def ClearsOnly (f : F) (s s' : σ) : Prop :=
  ∀ g, B.pending s' g = true ↔ B.pending s g = true ∧ g ≠ f

/-- No other flag of the register is pending. -/
def Alone (f : F) (s : σ) : Prop := ∀ g, B.pending s g = true → B.shares f g → g = f

variable [DecidableEq F]

/-- The transition function: every flag has a handler of its own, which reads and
    then writes. -/
def step (e : Access F) (s : Handlers F σ V) : Option (Handlers F σ V) :=
  match e with
  | .raise f => some { s with
      flags := B.raise f s.flags
      owed := Function.update s.owed f true }
  | .fetch f =>
    if (s.writing f).isNone then
      some { s with writing := Function.update s.writing f (some (B.fetch f s.flags)) }
    else none
  | .store f =>
    (s.writing f).map fun v =>
      { flags := B.store v s.flags
        writing := Function.update s.writing f none
        owed := Function.update s.owed f false }

/-- Nothing is on its way, and what is pending has not been acknowledged. -/
def start (s : σ) : Handlers F σ V :=
  { flags := s, writing := fun _ => none, owed := B.pending s }

/-- Every flag raised and not acknowledged is pending. -/
def NothingLost (s : Handlers F σ V) : Prop :=
  ∀ f, s.owed f = true → B.pending s.flags f = true

/-- A handler reads when its flag is the only one pending in the register. -/
def ReadsAlone (s : Handlers F σ V) : Access F → Prop
  | .fetch f => B.Alone f s.flags
  | _ => True

/-- What keeps the flags: no write on its way covers the flag of another handler. -/
structure Kept (s : Handlers F σ V) : Prop where
  lost : B.NothingLost s
  covered : ∀ f v, s.writing f = some v → ∀ g, B.covers v g = true → g = f

end Bank

section Kept

variable {B : Bank F σ V}

/-- What is written for a flag that is alone covers nothing else. -/
theorem alone_iff (f : F) (s : σ) :
    B.Alone f s ↔ ∀ g, B.covers (B.fetch f s) g = true → g = f := by
  constructor
  · intro h g hg
    rcases (B.covers_fetch f g s).mp hg with hg | ⟨hshares, hpending⟩
    · exact hg
    · exact h g hpending hshares
  · intro h g hpending hshares
    exact h g ((B.covers_fetch f g s).mpr (Or.inr ⟨hshares, hpending⟩))

/-- An acknowledgement clears exactly its own flag if and only if this is the only
    one pending in its register. -/
theorem acknowledge_exact_iff (f : F) (s : σ) :
    B.ClearsOnly f s (B.acknowledge f s) ↔ B.Alone f s := by
  rw [alone_iff]
  constructor
  · intro h g hcovers
    by_contra hne
    rcases (B.covers_fetch f g s).mp hcovers with hg | ⟨_, hpending⟩
    · exact hne hg
    · exact ((B.pending_store _ g s).mp ((h g).mpr ⟨hpending, hne⟩)).2 hcovers
  · intro h g
    refine (B.pending_store _ g s).trans (and_congr_right fun _ => not_congr ⟨h g, ?_⟩)
    rintro rfl
    exact (B.covers_fetch g g s).mpr (Or.inl rfl)

variable [DecidableEq F]

/-- Every step whose read is alone keeps the flags. -/
theorem step_kept {s s' : Handlers F σ V} {e : Access F} (h : B.Kept s) (halone : B.ReadsAlone s e)
    (hstep : B.step e s = some s') : B.Kept s' := by
  cases e with
  | raise f =>
      obtain rfl := Option.some.inj hstep
      refine ⟨fun g hg => (B.pending_raise f g s.flags).mpr ?_, h.covered⟩
      -- A flag that was owed is pending still, and the new one is pending now.
      by_cases hgf : g = f
      · exact Or.inr hgf
      · refine Or.inl (h.lost g ?_)
        rwa [← Function.update_of_ne hgf true s.owed]
  | fetch f =>
      simp only [Bank.step] at hstep
      split at hstep
      · obtain rfl := Option.some.inj hstep
        refine ⟨h.lost, fun f' v hv g hg => ?_⟩
        -- The new write is for a flag that was alone, so it covers nothing else.
        by_cases hf : f' = f
        · rw [hf] at hv ⊢
          dsimp only at hv
          rw [Function.update_self] at hv
          rw [← Option.some.inj hv] at hg
          exact (alone_iff f s.flags).mp halone g hg
        · dsimp only at hv
          rw [Function.update_of_ne hf] at hv
          exact h.covered f' v hv g hg
      · exact absurd hstep (by simp only [reduceCtorEq, not_false_eq_true])
  | store f =>
      rcases Option.map_eq_some_iff.mp hstep with ⟨v, hv, rfl⟩
      refine ⟨fun g hg => ?_, fun f' v' hv' g hg => ?_⟩
      · dsimp only at hg
        -- Its own flag is owed no longer, and the others are not covered.
        by_cases hgf : g = f
        · rw [hgf, Function.update_self] at hg
          exact Bool.noConfusion hg
        · rw [Function.update_of_ne hgf] at hg
          exact (B.pending_store v g s.flags).mpr
            ⟨h.lost g hg, fun hcovers => hgf (h.covered f v hv g hcovers)⟩
      · dsimp only at hv'
        by_cases hf : f' = f
        · rw [hf, Function.update_self] at hv'
          exact absurd hv' (by simp only [reduceCtorEq, not_false_eq_true])
        · rw [Function.update_of_ne hf] at hv'
          exact h.covered f' v' hv' g hg

/-- No flag is lost in a run in which every read is alone. -/
theorem run_kept {es : List (Access F)} {s : σ} {t : Handlers F σ V}
    (halone : Meets B.step B.ReadsAlone es (B.start s))
    (hrun : run B.step es (B.start s) = some t) : B.NothingLost t := by
  have hstart : B.Kept (B.start s) :=
    ⟨fun f hf => hf, fun f v hv => absurd hv (by simp only [Bank.start, reduceCtorEq,
      not_false_eq_true])⟩
  exact (run_invariant B.step B.Kept (fun s e s' hs hC hstep => step_kept hs hC hstep) es _ t
    hstart halone hrun).lost

end Kept

end Acknowledge
