import NextLevelRTOS.Process.Requests
import NextLevelRTOS.Process.Sleep

/-!
# Tasks That Do Not Die

A task ends by what it does itself: it returns, or it faults. What other tasks
do, and what interrupts and switches do, can only make it ready. So a task that
neither returns nor faults is live in every later state, and ready or waiting.

The same case split shows which events write `dma_interrupt_action` and
`kernel_pids.idle_task`: none but those made for it.

## Main definitions

* `Raises`: No state changes but to `READY`.
* `Schedulable`: A task is live, and ready or waiting.

## Theorems

* `step_schedulable`: A schedulable task stays so, whatever others do.
* `step_dma`: `dma_interrupt_action` is left alone.
* `step_idleTask`: `kernel_pids.idle_task` is left alone.
-/

namespace NextLevelRTOS

/-- No state changes but to `READY`. -/
structure Raises (s s' : Kernel) : Prop where
  live : s'.live = s.live
  dma : s'.dmaInterruptAction = s.dmaInterruptAction
  state : ∀ t, (s'.tcb t).state = (s.tcb t).state ∨ (s'.tcb t).state = .READY

theorem raises_refl (s : Kernel) : Raises s s := ⟨rfl, rfl, fun _ => Or.inl rfl⟩

theorem raises_trans {s s' s'' : Kernel} (h : Raises s s') (h' : Raises s' s'') :
    Raises s s'' := by
  refine ⟨h'.live.trans h.live, h'.dma.trans h.dma, fun t => ?_⟩
  rcases h'.state t with hs | hs
  · rw [hs]
    exact h.state t
  · exact Or.inr hs

theorem setState_raises (s : Kernel) (t : Addr) : Raises s (s.setState t .READY) := by
  refine ⟨rfl, rfl, fun u => ?_⟩
  rw [setState_state]
  by_cases hu : u = t
  · rw [if_pos hu]
    exact Or.inr rfl
  · rw [if_neg hu]
    exact Or.inl rfl

theorem wakeNode_raises (q : Addr) (s : Kernel) : Raises s (wakeNode q s) := by
  have hset := setState_raises s (s.dataOf q)
  rw [wakeNode_eq]
  exact ⟨hset.live, hset.dma, hset.state⟩

theorem wakeupPid_raises (pid : Nat) (s : Kernel) : Raises s (wakeupPid pid s).2 :=
  wakeupPid_keeps raises_refl wakeNode_raises pid s

theorem switchTask_raises (s : Kernel) : Raises s (switchTask s) := by
  refine KeptBySwitch.switchTask ⟨raises_refl, raises_trans, wakeNode_raises, fun t s => ?_,
    fun _ _ _ => ⟨rfl, rfl, fun _ => Or.inl rfl⟩⟩ s
  exact setState_raises s t

theorem pendsvIsr_raises (psp : Addr) (s : Kernel) : Raises s (pendsvIsr psp s) := by
  have hsave : Raises s (({ s with pendsv := false } : Kernel).setTcb (s.dataOf s.taskToPreserve)
      { s.tcb (s.dataOf s.taskToPreserve) with sp := psp }) := ?_
  · exact raises_trans hsave (switchTask_raises _)
  refine ⟨rfl, rfl, fun t => Or.inl ?_⟩
  by_cases ht : t = s.dataOf s.taskToPreserve
  · rw [ht]
    simp only [Kernel.setTcb, Function.update_self]
  · simp only [Kernel.setTcb, Function.update_of_ne ht]

theorem runScheduler_raises (s : Kernel) : Raises s (runScheduler s).2 := by
  have hens : ∀ s₁, ensureRunning s = some s₁ → Raises s s₁ := by
    intro s₁ h
    unfold ensureRunning at h
    split at h
    · split at h
      · exact absurd h (by simp only [reduceCtorEq, not_false_eq_true])
      · rw [← Option.some.inj h]
        exact wakeupPid_raises _ s
    · rw [← Option.some.inj h]
      exact raises_refl s
  unfold runScheduler
  cases hs₁ : ensureRunning s with
  | none => exact raises_refl s
  | some s₁ =>
      have h := hens s₁ hs₁
      dsimp only
      split
      · exact ⟨h.live, h.dma, h.state⟩
      · exact ⟨h.live, h.dma, h.state⟩

/-- The task is live, and ready or waiting. -/
def Schedulable (s : Kernel) (t : Addr) : Prop :=
  t ∈ s.live ∧ ((s.tcb t).state = .READY ∨ (s.tcb t).state = .WAITING)

theorem schedulable_raises {s s' : Kernel} {t : Addr} (h : Schedulable s t) (hr : Raises s s') :
    Schedulable s' t := by
  refine ⟨by rw [hr.live]; exact h.1, ?_⟩
  rcases hr.state t with hs | hs
  · rw [hs]
    exact h.2
  · exact Or.inl hs

/-- A task that is not dead does not die of what others do. -/
theorem step_schedulable {e : Event} {s s' : Kernel} {v : View} {t : Addr} (hinv : Inv s v)
    (hstep : step e s = some s') (h : Schedulable s t)
    (hown : t = s.dataOf s.currentlyRunning →
      (∀ stale, e ≠ .finishTask stale) ∧ e ≠ .invalidateCurrentTask) : Schedulable s' t := by
  rcases step_enabled hstep with ⟨hen, heff⟩
  have hother : ∀ state, t ≠ s.dataOf s.currentlyRunning →
      Schedulable (s.setState (s.dataOf s.currentlyRunning) state) t := by
    intro state hne
    refine ⟨h.1, ?_⟩
    rw [setState_state, if_neg hne]
    exact h.2
  have huntouched : ∀ (c : Chunks) (k : Kernel), Untouched c s k → t ∈ k.live → Schedulable k t :=
    fun c k hkeep hlive => ⟨hlive, by rw [hkeep.tcb t h.1]; exact h.2⟩
  cases e with
  | createTask c slot ramLocation =>
      rcases Option.map_eq_some_iff.mp heff with ⟨⟨result, s₁⟩, hrun, rfl⟩
      rcases createTask_inv hinv hen.2.1 hen.2.2 hrun with ⟨v', _, hkeep, ⟨_, hnot⟩ | ⟨_, hnew⟩⟩
      · exact huntouched c s₁ hkeep (by rw [hnot.live]; exact h.1)
      · exact huntouched c s₁ hkeep (by rw [hnew.live]; exact List.mem_append_left _ h.1)
  | createIdle c slot =>
      rcases createIdle_some heff with ⟨result, s₁, hrun, rfl⟩
      rcases createTask_inv hinv hen.2 (Or.inl rfl) hrun with ⟨v', _, hkeep, ⟨_, hnot⟩ | ⟨_, hnew⟩⟩
      · exact huntouched c s₁ hkeep (by rw [hnot.live]; exact h.1)
      · exact huntouched c s₁ hkeep (by rw [hnew.live]; exact List.mem_append_left _ h.1)
  | runScheduler =>
      rw [← Option.some.inj heff]
      exact schedulable_raises h (runScheduler_raises s)
  | allocateImage image =>
      rw [← Option.some.inj heff, allocate_eq]
      exact h
  | blockCurrentTask =>
      rw [← Option.some.inj heff, blockCurrentTask_eq]
      by_cases ht : t = s.dataOf s.currentlyRunning
      · refine ⟨h.1, Or.inr ?_⟩
        simp only [ht, Function.update_self]
      · exact hother .WAITING ht
  | wakeupPid pid =>
      rw [← Option.some.inj heff]
      exact schedulable_raises h (wakeupPid_raises pid s)
  | yieldTask =>
      rw [← Option.some.inj heff]
      exact h
  | pendsv psp =>
      rw [← Option.some.inj heff]
      exact schedulable_raises h (pendsvIsr_raises psp s)
  | finishTask stale =>
      rw [← Option.some.inj heff]
      have hset := hother .FINISHED fun hc => (hown hc).1 stale rfl
      have hwake : Schedulable (wakeJoiningParent stale (s.dataOf s.currentlyRunning)
          (s.setState (s.dataOf s.currentlyRunning) .FINISHED)) t := by
        unfold wakeJoiningParent
        dsimp only
        split
        · exact schedulable_raises hset (wakeupPid_raises _ _)
        · exact hset
      exact hwake
  | invalidateCurrentTask =>
      rw [← Option.some.inj heff]
      exact hother .INVALID fun hc => (hown hc).2 rfl
  | searchInvalidateTasks =>
      rw [← Option.some.inj heff]
      rcases searchInvalidateTasks_inv hinv hen.1 with ⟨v', hr, _⟩
      have halive : (s.tcb t).state.isDead = false := by
        rcases h.2 with hst | hst <;> rw [hst] <;> rfl
      exact ⟨reaped_live hinv.consistent hr h.1 halive, by rw [hr.tcb]; exact h.2⟩
  | joinTask pid =>
      rw [← Option.some.inj heff, joinTask_id hinv.consistent]
      exact h
  | dmaInterrupt action =>
      rw [← Option.some.inj heff]
      exact h

/-- A task that has been created is schedulable and has the next number. -/
theorem created_schedulable {s s' : Kernel} {v : View} {c : Chunks} {slot ramLocation : Addr}
    {result : Int} (hinv : Inv s v) (hfree : c.Free s)
    (himage : ramLocation = 0 ∨ ramLocation ∈ s.images)
    (hrun : createTask c slot ramLocation s = some (result, s')) (hlive : c.tcb ∈ s'.live) :
    Schedulable s' c.tcb ∧ (s'.tcb c.tcb).pid = s.live.length % 256 ∧
      result = (s.live.length % 256 : Nat) := by
  rcases createTask_inv hinv hfree himage hrun with ⟨v', _, _, ⟨_, hnot⟩ | ⟨hresult, hnew⟩⟩
  · -- The block of a failed creation is not in use.
    rw [hnot.live] at hlive
    have hocc := consistent_live_occupied hinv.consistent hlive
    have hgranted : c.tcb ∈ c.granted := by
      refine List.mem_filter.mpr ⟨List.mem_cons_of_mem _ List.mem_cons_self, decide_eq_true ?_⟩
      intro hc
      rw [hc] at hocc
      exact hinv.consistent.nonnull hocc
    exact absurd hocc (hfree.2 _ hgranted)
  -- The number is that of the tasks there were, as a byte.
  · have hpid := newTcb_pid hinv.consistent c ramLocation
    refine ⟨⟨hlive, ?_⟩, ?_, ?_⟩
    · rw [hnew.tcb]
      exact newTcb_state c ramLocation s
    · rw [hnew.tcb, hpid]
    · rw [hresult, hpid]

theorem reap_dma (n : Addr) (s : Kernel) :
    (reap n s).dmaInterruptAction = s.dmaInterruptAction := by
  unfold reap cleanUpTask Kernel.deallocate
  dsimp only
  split
  · rfl
  · rfl

theorem searchLoop_dma (fuel j : Nat) : ∀ (q : Addr) (s : Kernel),
    (searchLoop fuel j q s).dmaInterruptAction = s.dmaInterruptAction := by
  induction fuel generalizing j with
  | zero => exact fun _ _ => rfl
  | succ fuel ih =>
      intro q s
      unfold searchLoop
      dsimp only
      split
      · rw [ih]
        split
        · exact reap_dma q s
        · rfl
      · rfl

/-- What is left alone by all events but those made for it. -/
theorem step_dma {e : Event} {s s' : Kernel} {v : View} (hinv : Inv s v)
    (hstep : step e s = some s') (he : ∀ action, e ≠ .dmaInterrupt action) :
    s'.dmaInterruptAction = s.dmaInterruptAction := by
  rcases step_enabled hstep with ⟨_, heff⟩
  -- What is a wakeup at heart only raises flags; the rest does not touch this one.
  cases e with
  | createTask c slot ramLocation =>
      rcases Option.map_eq_some_iff.mp heff with ⟨⟨result, s₁⟩, hrun, rfl⟩
      exact (createTask_globals hrun).2.1
  | createIdle c slot =>
      rcases createIdle_some heff with ⟨result, s₁, hrun, rfl⟩
      exact (createTask_globals hrun).2.1
  | runScheduler =>
      rw [← Option.some.inj heff]
      exact (runScheduler_raises s).dma
  | allocateImage image =>
      rw [← Option.some.inj heff, allocate_eq]
  | blockCurrentTask =>
      rw [← Option.some.inj heff, blockCurrentTask_eq]
  | wakeupPid pid =>
      rw [← Option.some.inj heff]
      exact (wakeupPid_raises pid s).dma
  | yieldTask =>
      rw [← Option.some.inj heff]
      rfl
  | pendsv psp =>
      rw [← Option.some.inj heff]
      exact (pendsvIsr_raises psp s).dma
  | finishTask stale =>
      rw [← Option.some.inj heff]
      change (wakeJoiningParent stale (s.dataOf s.currentlyRunning)
        (s.setState (s.dataOf s.currentlyRunning) .FINISHED)).dmaInterruptAction = _
      unfold wakeJoiningParent
      dsimp only
      split
      · exact (wakeupPid_raises _ _).dma
      · rfl
  | invalidateCurrentTask =>
      rw [← Option.some.inj heff]
      rfl
  | searchInvalidateTasks =>
      rw [← Option.some.inj heff]
      exact searchLoop_dma ..
  | joinTask pid =>
      rw [← Option.some.inj heff, joinTask_id hinv.consistent]
  | dmaInterrupt action => exact absurd rfl (he action)

theorem step_idleTask {e : Event} {s s' : Kernel} {v : View} (hinv : Inv s v)
    (hstep : step e s = some s') (he : ∀ c slot, e ≠ .createIdle c slot) :
    s'.idleTask = s.idleTask := by
  rcases step_outcome hinv hstep with ⟨v', _, hout⟩
  have hcreate : ∀ c ramLocation, e.creates = some (c, ramLocation) → s'.idleTask = s.idleTask := by
    intro c ramLocation hc
    cases e with
    | createTask c slot ramLocation =>
        rcases Option.map_eq_some_iff.mp (step_enabled hstep).2 with ⟨⟨result, s₁⟩, hrun, rfl⟩
        exact (createTask_globals hrun).2.2
    | createIdle c slot => exact absurd rfl (he c slot)
    | _ => exact absurd hc (by simp only [Event.creates, reduceCtorEq, not_false_eq_true])
  cases hout with
  | moved h _ _ => exact h.frame.idleTask
  | image a _ hs' _ => rw [hs', allocate_eq]
  | notCreated c ramLocation hc _ _ => exact hcreate c ramLocation hc
  | created c ramLocation hc _ _ => exact hcreate c ramLocation hc
  | reaped _ h => exact h.idleTask

end NextLevelRTOS
