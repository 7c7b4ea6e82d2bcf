import NextLevelRTOS.Memory.Allocator

/-!
# The Mutex, Instruction by Instruction

`lock_mutex` and `release_mutex` of `mutex.s`, executed by any number of
contexts in any interleaving. A context is a task or an interrupt handler with
its own registers; the mutex is one word of memory.

The exclusive monitor is taken as the architecture describes it. `LDREX` marks
the word for the context that loads it. Every store to the word takes the mark
from all contexts, and an exception or a switch may take it at any time.
`STREX` stores only while the mark is there, and reports in its status
register whether it did.

`lock_mutex` loads the word, goes back if it is `locked`, and otherwise stores
what the caller has in `r1`; no instruction puts `locked` there. With `locked`
in `r1` the store that succeeds is the one that turns the word from not locked
to locked, and until it is turned back no other store succeeds. With anything
else in `r1` the word never says that the mutex is taken.

## Main definitions

* `MutexPc`, `Context`: Where a context is, and its registers.
* `MutexSystem`: The word, the monitor and the contexts.
* `execute`: One instruction.
* `mutexStep`: The transition function.
* `Inside`: A context is between the return of `lock_mutex` and the store of
  `release_mutex`.
* `EntersWithLocked`: The condition on a step.

## Theorems

* `exclusive_execute`: Every instruction keeps the invariant.
* `exclusion_step`: Every step that meets the condition keeps the exclusion.
* `lock_exclusive`: At most one context is inside.
* `lockMutex_alone`: A context that is alone does what the allocator's model
  says.
* `lock_overlap`: Two contexts inside, with `r1` zero.
-/

namespace NextLevelRTOS

open Machine

/-- The instruction a context executes next. Several have a name of their own
    for what is decided there. -/
inductive MutexPc where
  | outside
  /-- `LDREX r2, [r0]` -/
  | ldrex
  /-- `CMP r2, locked` and `BEQ lock_mutex` -/
  | compareLocked
  /-- `STREX r2, r1, [r0]` -/
  | strex
  /-- `CMP r2, #1` and `BEQ lock_mutex` -/
  | compareFailed
  /-- `DMB` and `BX lr` -/
  | barrier
  /-- `lock_mutex` has returned. -/
  | inside
  /-- `LDR r1, =unlocked` -/
  | loadUnlocked
  /-- `DMB` in `release_mutex` -/
  | releaseBarrier
  /-- `STR r1, [r0]` and `BX lr` -/
  | storeUnlocked
  deriving DecidableEq, Repr

/-- A context's place in the code and the registers it uses there. -/
structure Context where
  pc : MutexPc
  r1 : Word
  r2 : Word
  deriving DecidableEq

section Mutex

variable {ι : Type}

/-- The mutex word, the monitor's mark for each context, and the contexts. -/
structure MutexSystem (ι : Type) where
  mutex : Word
  monitor : ι → Bool
  context : ι → Context

/-- What can happen. -/
inductive MutexEvent (ι : Type) where
  /-- `lock_mutex` is called with anything in `r1`. -/
  | lock (c : ι) (r1 : Word)
  /-- The context executes its next instruction. -/
  | execute (c : ι)
  /-- `release_mutex` is called. -/
  | release (c : ι)
  /-- An exception or a switch takes the monitor's mark. -/
  | clear (c : ι)
  deriving DecidableEq

namespace MutexSystem

variable [DecidableEq ι] (s : MutexSystem ι) (c : ι)

/-- A context goes on. -/
def put (x : Context) : MutexSystem ι := { s with context := Function.update s.context c x }

/-- A store to the word takes the mark from every context. -/
def write (w : Word) : MutexSystem ι := { s with mutex := w, monitor := fun _ => false }

/-- `LDREX` marks the word. -/
def mark : MutexSystem ι := { s with monitor := Function.update s.monitor c true }

/-- The mark is gone. -/
def unmark : MutexSystem ι := { s with monitor := Function.update s.monitor c false }

end MutexSystem

/-- One instruction of `lock_mutex` or `release_mutex`. -/
def execute [DecidableEq ι] (c : ι) (s : MutexSystem ι) : Option (MutexSystem ι) :=
  let x := s.context c
  match x.pc with
  | .outside => none
  | .ldrex => some ((s.mark c).put c { x with pc := .compareLocked, r2 := s.mutex })
  | .compareLocked =>
    some (s.put c { x with pc := if x.r2 = locked then .ldrex else .strex })
  | .strex =>
    if s.monitor c then some ((s.write x.r1).put c { x with pc := .compareFailed, r2 := 0#32 })
    else some ((s.unmark c).put c { x with pc := .compareFailed, r2 := 1#32 })
  | .compareFailed =>
    some (s.put c { x with pc := if x.r2 = 1#32 then .ldrex else .barrier })
  | .barrier => some (s.put c { x with pc := .inside })
  | .inside => none
  | .loadUnlocked => some (s.put c { x with pc := .releaseBarrier, r1 := unlocked })
  | .releaseBarrier => some (s.put c { x with pc := .storeUnlocked })
  | .storeUnlocked => some ((s.write x.r1).put c { x with pc := .outside })

/-- The transition function. -/
def mutexStep [DecidableEq ι] : MutexEvent ι → MutexSystem ι → Option (MutexSystem ι)
  | .lock c r1, s =>
    if (s.context c).pc = .outside then
      some (s.put c { s.context c with pc := .ldrex, r1 := r1 })
    else none
  | .execute c, s => execute c s
  | .release c, s =>
    if (s.context c).pc = .inside then some (s.put c { s.context c with pc := .loadUnlocked })
    else none
  | .clear c, s => some (s.unmark c)

/-- The mutex is released and nobody is in the code. -/
def MutexSystem.Idle (s : MutexSystem ι) : Prop :=
  s.mutex = unlocked ∧ ∀ c, (s.context c).pc = .outside

/-- Between the return of `lock_mutex` and the store of `release_mutex`. -/
def MutexPc.isInside : MutexPc → Bool
  | .inside | .loadUnlocked | .releaseBarrier | .storeUnlocked => true
  | _ => false

/-- The context is between the return of `lock_mutex` and the store of
    `release_mutex`. -/
def Inside (s : MutexSystem ι) (c : ι) : Prop := (s.context c).pc.isInside = true

/-- `lock_mutex` is called with `locked` in `r1`. -/
def EntersWithLocked (_ : MutexSystem ι) : MutexEvent ι → Prop
  | .lock _ r1 => r1 = locked
  | _ => True

instance (s : MutexSystem ι) (c : ι) : Decidable (Inside s c) :=
  inferInstanceAs (Decidable (_ = _))

instance (s : MutexSystem ι) (e : MutexEvent ι) : Decidable (EntersWithLocked s e) :=
  match e with
  | .lock _ r1 => inferInstanceAs (Decidable (r1 = locked))
  | .execute _ => isTrue trivial
  | .release _ => isTrue trivial
  | .clear _ => isTrue trivial

/-! ### The invariant -/

/-- The store of `lock_mutex` has succeeded and that of `release_mutex` has not
    been made. -/
def Context.acquired (x : Context) : Prop :=
  (x.pc = .compareFailed ∧ x.r2 ≠ 1#32) ∨ x.pc = .barrier ∨ x.pc.isInside = true

/-- What the code has established where a context is. `mutex` and `marked` are
    the word and the context's mark. -/
structure Context.Sound (mutex : Word) (marked : Bool) (x : Context) : Prop where
  wants : x.pc = .ldrex ∨ x.pc = .compareLocked ∨ x.pc = .strex → x.r1 = locked
  loaded : x.pc = .compareLocked ∨ x.pc = .strex → marked = true → x.r2 = mutex
  free : x.pc = .strex → x.r2 ≠ locked
  failed : x.pc = .compareFailed → x.r2 = 1#32 → x.r1 = locked
  frees : x.pc = .releaseBarrier ∨ x.pc = .storeUnlocked → x.r1 = unlocked

/-- The word says whether somebody has acquired the mutex, and at most one
    context has. -/
structure Exclusive (s : MutexSystem ι) : Prop where
  sound : ∀ c, (s.context c).Sound s.mutex (s.monitor c)
  taken : ∀ c, (s.context c).acquired → s.mutex = locked
  unique : ∀ c d, (s.context c).acquired → (s.context d).acquired → c = d

theorem acquired_of_inside {s : MutexSystem ι} {c : ι} (h : Inside s c) :
    (s.context c).acquired :=
  Or.inr (Or.inr h)

theorem exclusive_idle {s : MutexSystem ι} (h : s.Idle) : Exclusive s := by
  have hno : ∀ c, ¬ (s.context c).acquired := by
    intro c hc
    simp only [Context.acquired, h.2 c, reduceCtorEq, false_and, MutexPc.isInside,
      Bool.false_eq_true, or_self] at hc
  refine ⟨fun c => ?_, fun c hc => absurd hc (hno c), fun c _ hc => absurd hc (hno c)⟩
  constructor <;> simp only [h.2 c, reduceCtorEq, or_self, false_implies]

section Steps

variable [DecidableEq ι] {s s' : MutexSystem ι} {c : ι} {x : Context}

/-- A step that leaves the word alone keeps the invariant when the context that
    took it is still sound and has acquired nothing new. -/
theorem exclusive_put (h : Exclusive s) (hword : s'.mutex = s.mutex)
    (hmonitor : ∀ d, d ≠ c → s'.monitor d = s.monitor d)
    (hcontext : s'.context = Function.update s.context c x)
    (hsound : x.Sound s.mutex (s'.monitor c)) (hacquired : x.acquired → (s.context c).acquired) :
    Exclusive s' := by
  have hold : ∀ d, (s'.context d).acquired → (s.context d).acquired := by
    intro d hd
    rw [hcontext] at hd
    by_cases hdc : d = c
    · rw [hdc] at hd ⊢
      rw [Function.update_self] at hd
      exact hacquired hd
    · rwa [Function.update_of_ne hdc] at hd
  -- What the others hold is as it was, and nobody has acquired more.
  refine ⟨fun d => ?_, fun d hd => ?_, fun d e hd he => h.unique d e (hold d hd) (hold e he)⟩
  · rw [hcontext, hword]
    by_cases hdc : d = c
    · rw [hdc, Function.update_self]
      exact hsound
    · rw [Function.update_of_ne hdc, hmonitor d hdc]
      exact h.sound d
  · rw [hword]
    exact h.taken d (hold d hd)

/-- A store to the word, by a context with nobody else inside. -/
theorem exclusive_write (h : Exclusive s) {w : Word}
    (hs' : s' = (s.write w).put c x) (halone : ∀ d, (s.context d).acquired → d = c)
    (hsound : x.Sound w false) (htaken : x.acquired → w = locked) : Exclusive s' := by
  have hcontext : s'.context = Function.update s.context c x := by rw [hs']; rfl
  have hword : s'.mutex = w := by rw [hs']; rfl
  have hmonitor : ∀ d, s'.monitor d = false := fun d => by rw [hs']; rfl
  have honly : ∀ d, (s'.context d).acquired → d = c := by
    intro d hd
    by_cases hdc : d = c
    · exact hdc
    · rw [hcontext, Function.update_of_ne hdc] at hd
      exact halone d hd
  refine ⟨fun d => ?_, fun d hd => ?_, fun d e hd he => (honly d hd).trans (honly e he).symm⟩
  · rw [hcontext, hword, hmonitor d]
    by_cases hdc : d = c
    · rw [hdc, Function.update_self]
      exact hsound
    · rw [Function.update_of_ne hdc]
      -- The store took every mark, so what the others loaded no longer counts.
      have hd := h.sound d
      exact ⟨hd.wants, fun _ hc => absurd hc (by decide), hd.free, hd.failed, hd.frees⟩
  · rw [hword]
    rw [honly d hd, hcontext, Function.update_self] at hd
    exact htaken hd

/-- Every instruction keeps the invariant. -/
theorem exclusive_execute (h : Exclusive s) (hstep : execute c s = some s') : Exclusive s' := by
  have hc := h.sound c
  cases hpc : (s.context c).pc with
  | outside => simp only [execute, hpc, reduceCtorEq] at hstep
  | inside => simp only [execute, hpc, reduceCtorEq] at hstep
  | ldrex =>
      simp only [execute, hpc, Option.some.injEq] at hstep
      rw [← hstep]
      -- Loading takes nothing: the mark and the copy of the word agree.
      refine exclusive_put h rfl (fun d hd => Function.update_of_ne hd _ _) rfl ?_ ?_
      · have hr1 := hc.wants (Or.inl hpc)
        constructor <;> simp [hr1]
      · simp [Context.acquired, MutexPc.isInside]
  | compareLocked =>
      simp only [execute, hpc, Option.some.injEq] at hstep
      rw [← hstep]
      have hr1 := hc.wants (Or.inr (Or.inl hpc))
      have hr2 := hc.loaded (Or.inl hpc)
      -- It goes back, or on with a copy that was not `locked`.
      by_cases hlocked : (s.context c).r2 = locked
      · refine exclusive_put h rfl (fun d _ => rfl) rfl ?_ ?_
        · constructor <;> simp [hlocked, hr1]
        · simp [hlocked, Context.acquired, MutexPc.isInside]
      · refine exclusive_put h rfl (fun d _ => rfl) rfl ?_ ?_
        · constructor <;> simp [hlocked, hr1]
          exact hr2
        · simp [hlocked, Context.acquired, MutexPc.isInside]
  | strex =>
      simp only [execute, hpc] at hstep
      have hr1 := hc.wants (Or.inr (Or.inr hpc))
      by_cases hmark : s.monitor c = true
      · -- The mark says that the word is what was loaded, and that was not `locked`.
        rw [if_pos hmark, Option.some.injEq] at hstep
        have hfree : s.mutex ≠ locked := by
          rw [← hc.loaded (Or.inr hpc) hmark]
          exact hc.free hpc
        refine exclusive_write h hstep.symm (fun d hd => absurd (h.taken d hd) hfree) ?_
          (fun _ => hr1)
        constructor <;> simp
      · rw [if_neg hmark, Option.some.injEq] at hstep
        rw [← hstep]
        refine exclusive_put h rfl (fun d hd => Function.update_of_ne hd _ _) rfl ?_ ?_
        · constructor <;> simp [hr1]
        · simp [Context.acquired, MutexPc.isInside]
  | compareFailed =>
      simp only [execute, hpc, Option.some.injEq] at hstep
      rw [← hstep]
      -- A store that has failed is tried again.
      by_cases hfailed : (s.context c).r2 = 1#32
      · have hr1 := hc.failed hpc hfailed
        refine exclusive_put h rfl (fun d _ => rfl) rfl ?_ ?_
        · constructor <;> simp [hfailed, hr1]
        · simp [hfailed, Context.acquired, MutexPc.isInside]
      · refine exclusive_put h rfl (fun d _ => rfl) rfl ?_ ?_
        · constructor <;> simp [hfailed]
        · exact fun _ => Or.inl ⟨hpc, hfailed⟩
  | barrier =>
      simp only [execute, hpc, Option.some.injEq] at hstep
      rw [← hstep]
      refine exclusive_put h rfl (fun d _ => rfl) rfl ?_ (fun _ => Or.inr (Or.inl hpc))
      constructor <;> simp
  | loadUnlocked =>
      simp only [execute, hpc, Option.some.injEq] at hstep
      rw [← hstep]
      refine exclusive_put h rfl (fun d _ => rfl) rfl ?_ (fun _ => ?_)
      · constructor <;> simp
      · exact acquired_of_inside (by rw [Inside, hpc]; rfl)
  | releaseBarrier =>
      simp only [execute, hpc, Option.some.injEq] at hstep
      rw [← hstep]
      have hr1 := hc.frees (Or.inl hpc)
      refine exclusive_put h rfl (fun d _ => rfl) rfl ?_ (fun _ => ?_)
      · constructor <;> simp [hr1]
      · exact acquired_of_inside (by rw [Inside, hpc]; rfl)
  | storeUnlocked =>
      simp only [execute, hpc, Option.some.injEq] at hstep
      -- Nobody else is inside, so nobody is when the word is written.
      have hself : (s.context c).acquired := acquired_of_inside (by rw [Inside, hpc]; rfl)
      refine exclusive_write h hstep.symm (fun d hd => h.unique d c hd hself) ?_ ?_
      · constructor <;> simp
      · simp [Context.acquired, MutexPc.isInside]

end Steps

/-- A step that meets the condition keeps the invariant. -/
theorem exclusion_step [DecidableEq ι] (s : MutexSystem ι) (e : MutexEvent ι) (s' : MutexSystem ι)
    (h : Exclusive s) (hC : EntersWithLocked s e) (hstep : mutexStep e s = some s') :
    Exclusive s' := by
  cases e with
  | lock c r1 =>
      simp only [mutexStep] at hstep
      split at hstep
      · rw [← Option.some.inj hstep]
        refine exclusive_put h rfl (fun d _ => rfl) rfl ?_ ?_
        -- Here the condition is used: what is to be stored is `locked`.
        · have hr1 : r1 = locked := hC
          constructor <;> simp [hr1]
        · simp [Context.acquired, MutexPc.isInside]
      · exact absurd hstep (by simp only [reduceCtorEq, not_false_eq_true])
  | execute c => exact exclusive_execute h hstep
  | release c =>
      simp only [mutexStep] at hstep
      split at hstep
      · rename_i hpc
        rw [← Option.some.inj hstep]
        refine exclusive_put h rfl (fun d _ => rfl) rfl ?_ (fun _ => ?_)
        · constructor <;> simp
        · exact acquired_of_inside (by rw [Inside, hpc]; rfl)
      · exact absurd hstep (by simp only [reduceCtorEq, not_false_eq_true])
  | clear c =>
      simp only [mutexStep, Option.some.injEq] at hstep
      rw [← hstep]
      -- A mark that is gone asks for nothing.
      refine ⟨fun d => ?_, h.taken, h.unique⟩
      have hd := h.sound d
      refine ⟨hd.wants, fun hpc hmark => hd.loaded hpc ?_, hd.free, hd.failed, hd.frees⟩
      by_cases hdc : d = c
      · simp only [MutexSystem.unmark, hdc, Function.update_self, Bool.false_eq_true] at hmark
      · simpa only [MutexSystem.unmark, Function.update_of_ne hdc] using hmark

/-- At most one context is inside, for any number of contexts and in every
    interleaving of their instructions. -/
theorem lock_exclusive [DecidableEq ι] {s₀ s : MutexSystem ι} {es : List (MutexEvent ι)}
    (h : s₀.Idle) (hmeets : Meets mutexStep EntersWithLocked es s₀)
    (hrun : run mutexStep es s₀ = some s) {c d : ι} (hc : Inside s c) (hd : Inside s d) : c = d := by
  have hinv : Exclusive s :=
    run_invariant mutexStep Exclusive exclusion_step es s₀ s (exclusive_idle h) hmeets hrun
  exact hinv.unique c d (acquired_of_inside hc) (acquired_of_inside hd)

/-! ### A context that is alone -/

section Alone

/-- The context is in the loop of `lock_mutex`, on a locked mutex. -/
structure Spins (s : MutexSystem ι) (c : ι) : Prop where
  mutex : s.mutex = locked
  pc : (s.context c).pc = .ldrex ∨
    (s.context c).pc = .compareLocked ∧ (s.context c).r2 = locked

variable [DecidableEq ι] {s : MutexSystem ι} {c : ι}

/-- On a mutex that is not locked the five instructions of `lock_mutex` lead inside
    and leave `r1` in the word. -/
theorem run_lock (r1 : Word) (hpc : (s.context c).pc = .outside) (hfree : s.mutex ≠ locked) :
    ∃ s', run mutexStep (.lock c r1 :: List.replicate 5 (.execute c)) s = some s' ∧
      (s'.context c).pc = .inside ∧ s'.mutex = r1 := by
  simp [run, mutexStep, execute, hpc, hfree, MutexSystem.put, MutexSystem.mark, MutexSystem.write]

/-- The three instructions of `release_mutex` lead out and leave `unlocked` in it. -/
theorem run_release (hpc : (s.context c).pc = .inside) :
    ∃ s', run mutexStep (.release c :: List.replicate 3 (.execute c)) s = some s' ∧
      (s'.context c).pc = .outside ∧ s'.mutex = unlocked := by
  simp [run, mutexStep, execute, hpc, MutexSystem.put, MutexSystem.write]

omit [DecidableEq ι] in
theorem spins_outside (h : Spins s c) : ¬ Inside s c := by
  intro hc
  rw [Inside] at hc
  rcases h.pc with hpc | ⟨hpc, _⟩ <;> rw [hpc] at hc <;> exact Bool.noConfusion hc

/-- A context in the loop stays there when it is the one that goes on. -/
theorem execute_spins (h : Spins s c) : ∃ s', execute c s = some s' ∧ Spins s' c := by
  rcases h.pc with hpc | ⟨hpc, hr2⟩
  · refine ⟨(s.mark c).put c { s.context c with pc := .compareLocked, r2 := s.mutex },
      by simp only [execute, hpc], h.mutex, Or.inr ?_⟩
    simp only [MutexSystem.put, Function.update_self, true_and]
    exact h.mutex
  · refine ⟨s.put c { s.context c with pc := .ldrex },
      by simp only [execute, hpc, hr2, if_true], h.mutex, Or.inl ?_⟩
    simp only [MutexSystem.put, Function.update_self]

theorem run_spins (n : Nat) : ∀ s : MutexSystem ι, Spins s c →
    ∃ s', run mutexStep (List.replicate n (.execute c)) s = some s' ∧ Spins s' c := by
  induction n with
  | zero => exact fun s h => ⟨s, rfl, h⟩
  | succ n ih =>
      intro s h
      rcases execute_spins h with ⟨s₁, hstep, hspins⟩
      rcases ih s₁ hspins with ⟨s', hrun, hspins'⟩
      refine ⟨s', ?_, hspins'⟩
      rw [List.replicate_succ, run, show mutexStep (.execute c) s = some s₁ from hstep]
      exact hrun

/-- The allocator's model of the mutex is what a context does that nobody
    interrupts. Where `lockMutex` gets through, five instructions lead inside with
    its word, and three more lead out again with that of `releaseMutex`. Where it
    does not, no number of instructions leads inside, and the word stays. -/
theorem lockMutex_alone (m : Allocator) (r1 : Word) (hpc : (s.context c).pc = .outside)
    (hword : s.mutex = m.mutex) :
    match m.lockMutex r1 with
    | some m' => ∃ s', run mutexStep (.lock c r1 :: List.replicate 5 (.execute c)) s = some s' ∧
        Inside s' c ∧ s'.mutex = m'.mutex ∧
        ∃ s'', run mutexStep (.release c :: List.replicate 3 (.execute c)) s' = some s'' ∧
          (s''.context c).pc = .outside ∧ s''.mutex = m'.releaseMutex.mutex
    | none => ∀ n, ∃ s', run mutexStep (.lock c r1 :: List.replicate n (.execute c)) s = some s' ∧
        ¬ Inside s' c ∧ s'.mutex = m.mutex := by
  by_cases hlocked : m.mutex = locked
  · rw [Allocator.lockMutex_locked _ hlocked]
    intro n
    have hspins : Spins (s.put c { s.context c with pc := .ldrex, r1 := r1 }) c :=
      ⟨hword.trans hlocked, Or.inl (by simp only [MutexSystem.put, Function.update_self])⟩
    rcases run_spins n _ hspins with ⟨s', hrun, h⟩
    refine ⟨s', ?_, spins_outside h, h.mutex.trans hlocked.symm⟩
    rw [run, mutexStep, if_pos hpc]
    exact hrun
  · rw [Allocator.lockMutex_free _ hlocked]
    have hfree : s.mutex ≠ locked := by rwa [hword]
    rcases run_lock r1 hpc hfree with ⟨s', hrun, hinside, hmutex⟩
    rcases run_release hinside with ⟨s'', hrun', houtside, hmutex'⟩
    exact ⟨s', hrun, by rw [Inside, hinside]; rfl, hmutex, s'', hrun', houtside, hmutex'⟩

end Alone

end Mutex

/-! ### Two contexts -/

/-- The mutex of `init_allocator` and two contexts outside. -/
def twoContexts : MutexSystem Bool :=
  { mutex := unlocked
    monitor := fun _ => false
    context := fun _ => { pc := .outside, r1 := 0#32, r2 := 0#32 } }

theorem twoContexts_idle : twoContexts.Idle := ⟨rfl, fun _ => rfl⟩

/-- The first context takes the mutex and gives it back. -/
theorem lockMutex_alone_twoContexts :
    blankMemory.mutex = unlocked ∧
      ∃ s', run mutexStep (.lock false locked :: List.replicate 5 (.execute false)) twoContexts =
          some s' ∧ Inside s' false ∧ s'.mutex = locked ∧
        ∃ s'', run mutexStep (.release false :: List.replicate 3 (.execute false)) s' = some s'' ∧
          (s''.context false).pc = .outside ∧ s''.mutex = unlocked := by
  have h := lockMutex_alone (s := twoContexts) (c := false) blankMemory locked rfl rfl
  rw [Allocator.lockMutex_free locked (by decide)] at h
  exact ⟨rfl, h⟩

/-- Both have `locked` in `r1`. The first takes the mutex while the second is
    between its load and its store, and gives it back; the second, whose store
    fails, goes back and takes it. -/
def takeTurns : List (MutexEvent Bool) :=
  [.lock false locked, .lock true locked, .execute true, .execute true, .clear true] ++
    List.replicate 5 (.execute false) ++ [.execute true, .execute true, .release false] ++
    List.replicate 3 (.execute false) ++ List.replicate 5 (.execute true)

theorem lock_exclusive_takeTurns :
    Meets mutexStep EntersWithLocked takeTurns twoContexts ∧
      Ends mutexStep takeTurns twoContexts fun s =>
        Inside s true ∧ ∀ c, Inside s c → c = true := by
  have hmeets : Meets mutexStep EntersWithLocked takeTurns twoContexts := by decide
  have hends : Ends mutexStep takeTurns twoContexts fun s => Inside s true := by decide
  rcases hends with ⟨s, hrun, hinside⟩
  exact ⟨hmeets, s, hrun, hinside, fun c hc =>
    lock_exclusive twoContexts_idle hmeets hrun hc hinside⟩

/-- The first has zero in `r1`, as `release_mutex` leaves it, and takes the
    mutex; then the second asks for it. -/
def bothTake : List (MutexEvent Bool) :=
  .lock false 0#32 :: List.replicate 5 (.execute false) ++
    .lock true 0#32 :: List.replicate 5 (.execute true)

/-- Two contexts are inside. -/
theorem lock_overlap :
    twoContexts.Idle ∧ Ends mutexStep bothTake twoContexts fun s =>
      Inside s false ∧ Inside s true :=
  ⟨twoContexts_idle, by decide⟩

end NextLevelRTOS
