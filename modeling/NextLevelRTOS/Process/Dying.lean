import NextLevelRTOS.Process.Requests

/-!
# The Dead Do Not Run

A task dies when it finishes or when a fault handler makes it invalid. Its
control block stays until the idle task reaps it, in the ring that the scheduler
searches and with a stack pointer that could be loaded. Nothing but its state
keeps the scheduler away from it.

No function of the kernel takes that state back, but one:
`force_pid0_into_running` sets the first task with the identifier zero to
`READY`, whatever it was. As long as no switch comes to that, a dead task stays
dead and never runs again.

## Main definitions

* `LeavesDead`: A step that revives nobody.
* `Dead`: A task that has died and was not reaped.
* `Buries`: A run that reaps a task.

## Theorems

* `step_dead`: A dead task stays dead or is reaped.
* `run_dead`: In a run a dead task stays dead or is reaped.
* `dead_never_runs`: A dead task waits to be reaped and does not run.
-/

namespace NextLevelRTOS

open Machine

/-- The step is no switch, or one that revives nobody. -/
def LeavesDead (s : Kernel) : Event → Prop
  | .pendsv _ => ¬ Revives s
  | _ => True

instance (s : Kernel) : DecidablePred (LeavesDead s)
  | .pendsv _ => inferInstanceAs (Decidable (¬ Revives s))
  | .createTask .. | .createIdle .. | .runScheduler | .allocateImage _ | .blockCurrentTask
  | .wakeupPid _ | .yieldTask | .finishTask _ | .invalidateCurrentTask | .searchInvalidateTasks
  | .joinTask _ | .dmaInterrupt _ => isTrue trivial

/-- The task is dead and has not been reaped. -/
structure Dead (t : Addr) (s : Kernel) : Prop where
  live : t ∈ s.live
  dead : (s.tcb t).state.isDead = true

/-- The run passes a state in which no live task has that control block. -/
def Buries (t : Addr) (es : List Event) (s : Kernel) : Prop :=
  ∃ fs gs u, es = fs ++ gs ∧ run step fs s = some u ∧ t ∉ u.live

section Death

variable {s s' : Kernel} {v : View} {t : Addr} {e : Event}

theorem dead_sameDead (h : Dead t s) (hsame : SameDead s s') : Dead t s' :=
  ⟨hsame.live ▸ h.live, (hsame.state t h.live).trans h.dead⟩

/-- Another death changes nothing. -/
theorem dead_setState (h : Dead t s) (u : Addr) (state : TaskState) (hdead : state.isDead = true) :
    Dead t (s.setState u state) := by
  refine ⟨h.live, ?_⟩
  rw [setState_state]
  split
  · exact hdead
  · exact h.dead

theorem dead_untouched {c : Chunks} {slot ramLocation : Addr} {result : Int} (hinv : Inv s v)
    (h : Dead t s) (hfree : c.Free s) (himage : ramLocation = 0 ∨ ramLocation ∈ s.images)
    (hrun : createTask c slot ramLocation s = some (result, s')) : Dead t s' := by
  rcases createTask_inv hinv hfree himage hrun with ⟨v', _, hkeep, ⟨_, hnot⟩ | ⟨_, hnew⟩⟩
  · exact ⟨hnot.live ▸ h.live, by rw [hkeep.tcb t h.live]; exact h.dead⟩
  · refine ⟨?_, by rw [hkeep.tcb t h.live]; exact h.dead⟩
    rw [hnew.live]
    exact List.mem_append_left _ h.live

/-- A dead task stays dead or is reaped. -/
theorem step_dead (hinv : Inv s v) (h : Dead t s) (hC : LeavesDead s e)
    (hstep : step e s = some s') : t ∉ s'.live ∨ Dead t s' := by
  rcases step_enabled hstep with ⟨hen, heff⟩
  cases e with
  | createTask c slot ramLocation =>
      rcases Option.map_eq_some_iff.mp heff with ⟨⟨result, s₁⟩, hrun, rfl⟩
      exact Or.inr (dead_untouched hinv h hen.2.1 hen.2.2 hrun)
  | createIdle c slot =>
      rcases createIdle_some heff with ⟨result, s₁, hrun, rfl⟩
      have hdead := dead_untouched hinv h hen.2 (Or.inl rfl) hrun
      exact Or.inr ⟨hdead.live, hdead.dead⟩
  | runScheduler =>
      rw [← Option.some.inj heff]
      exact Or.inr (dead_sameDead h (runScheduler_sameDead hinv.consistent))
  | allocateImage image =>
      rw [← Option.some.inj heff, allocate_eq]
      exact Or.inr ⟨h.live, h.dead⟩
  | blockCurrentTask =>
      rw [← Option.some.inj heff]
      exact Or.inr (dead_sameDead h (blockCurrentTask_sameDead hinv hen))
  | wakeupPid pid =>
      rw [← Option.some.inj heff]
      exact Or.inr (dead_sameDead h (wakeupPid_sameDead hinv.consistent pid))
  | yieldTask =>
      rw [← Option.some.inj heff]
      exact Or.inr ⟨h.live, h.dead⟩
  | pendsv psp =>
      rw [← Option.some.inj heff]
      exact Or.inr (dead_sameDead h (pendsvIsr_sameDead hinv psp hC))
  | finishTask stale =>
      rw [← Option.some.inj heff]
      have hset := setState_current_moved hinv hen
        (show TaskState.FINISHED ≠ .WAITING from fun hc => TaskState.noConfusion hc)
      have hdead := dead_setState h (s.dataOf s.currentlyRunning) .FINISHED rfl
      have hwake : Dead t (wakeJoiningParent stale (s.dataOf s.currentlyRunning)
          (s.setState (s.dataOf s.currentlyRunning) .FINISHED)) := by
        unfold wakeJoiningParent
        dsimp only
        split
        · exact dead_sameDead hdead (wakeupPid_sameDead hset.consistent _)
        · exact hdead
      exact Or.inr ⟨hwake.live, hwake.dead⟩
  | invalidateCurrentTask =>
      rw [← Option.some.inj heff]
      have hdead := dead_setState h (s.dataOf s.currentlyRunning) .INVALID rfl
      exact Or.inr ⟨hdead.live, hdead.dead⟩
  | searchInvalidateTasks =>
      rw [← Option.some.inj heff]
      rcases searchInvalidateTasks_inv hinv hen.1 with ⟨v', hr, _⟩
      by_cases hlive : t ∈ (searchInvalidateTasks s).live
      · exact Or.inr ⟨hlive, by rw [hr.tcb]; exact h.dead⟩
      · exact Or.inl hlive
  | joinTask pid =>
      rw [← Option.some.inj heff, joinTask_id hinv.consistent]
      exact Or.inr h
  | dmaInterrupt action =>
      rw [← Option.some.inj heff]
      exact Or.inr ⟨h.live, h.dead⟩

theorem run_dead {es : List Event} (hinv : Inv s v) (h : Dead t s)
    (hC : Meets step LeavesDead es s) (hrun : run step es s = some s') :
    Buries t es s ∨ (∃ v', Inv s' v') ∧ Dead t s' := by
  induction es generalizing s v with
  | nil =>
      rw [← Option.some.inj hrun]
      exact Or.inr ⟨⟨v, hinv⟩, h⟩
  | cons e es ih =>
      rcases run_cons step hrun with ⟨s₁, hstep, hrest⟩
      rcases hC with ⟨hCe, hCes⟩
      rw [hstep] at hCes
      rcases step_inv ⟨v, hinv⟩ hstep with ⟨v₁, hinv₁⟩
      rcases step_dead hinv h hCe hstep with hreaped | hdead
      · exact Or.inl ⟨[e], es, s₁, rfl, by simp only [run, hstep], hreaped⟩
      · rcases ih hinv₁ hdead hCes hrest with ⟨fs, gs, u, hsplit, hfs, hu⟩ | hend
        · exact Or.inl ⟨e :: fs, gs, u, by rw [hsplit, List.cons_append],
            by simp only [run, hstep, hfs], hu⟩
        · exact Or.inr hend

/-- A dead task lies in the ring that is searched for it, and is not the task that
    is executing. -/
theorem dead_placed (hinv : Inv s v) (h : Dead t s) :
    (∃ n ∈ s.runningTasks.members s.node, s.dataOf n = t) ∧
      (Thread s → s.dataOf s.currentlyRunning ≠ t) := by
  have hcons := hinv.consistent
  refine ⟨?_, fun hthread heq => ?_⟩
  · rcases (consistent_live_iff hcons t).mp h.live with ⟨n, hn, rfl⟩
    rcases List.mem_append.mp hn with hr | hw
    · exact ⟨n, by rwa [represents_members hcons.running], rfl⟩
    · have hwait : (s.tcb (s.dataOf n)).state = .WAITING := hcons.waitingState n hw
      have hdead := h.dead
      rw [hwait] at hdead
      exact Bool.noConfusion hdead
  · have hready : (s.tcb t).state = .READY := heq ▸ (hinv.thread hthread).1
    have hdead := h.dead
    rw [hready] at hdead
    exact Bool.noConfusion hdead

end Death

/-- In every run whose switches revive nobody: a task that is dead has either been
    reaped since, or it is dead still, lies in the ring where the idle task will find
    it, and is not the task that is executing. -/
theorem dead_never_runs (s₀ s s' : Kernel) (es fs : List Event) (t : Addr)
    (hinit : Initialized s₀) (hrun : run step es s₀ = some s) (hdead : Dead t s)
    (hC : Meets step LeavesDead fs s) (hrun' : run step fs s = some s') :
    Buries t fs s ∨ Dead t s' ∧
      (∃ n ∈ s'.runningTasks.members s'.node, s'.dataOf n = t) ∧
      (Thread s' → s'.dataOf s'.currentlyRunning ≠ t) := by
  rcases reachable_inv hinit hrun with ⟨v, hinv⟩
  rcases run_dead hinv hdead hC hrun' with hburied | ⟨⟨v', hinv'⟩, hdead'⟩
  · exact Or.inl hburied
  · exact Or.inr ⟨hdead', dead_placed hinv' hdead'⟩


/-- Until a task has finished, and what the system does then without reaping it. -/
def finished : List Event :=
  startUp ++ [.createTask (chunksFrom 20) 3 0, .yieldTask, .pendsv 8, .finishTask blankTcb]

def afterFinish : List Event := [.pendsv 8, .yieldTask, .pendsv 8]

theorem dead_never_runs_finished : Ends step finished freshKernel fun s =>
    Ends step afterFinish s fun s' => Thread s' ∧
      (Buries (chunksFrom 20).tcb afterFinish s ∨ Dead (chunksFrom 20).tcb s' ∧
        (∃ n ∈ s'.runningTasks.members s'.node, s'.dataOf n = (chunksFrom 20).tcb) ∧
        (Thread s' → s'.dataOf s'.currentlyRunning ≠ (chunksFrom 20).tcb)) := by
  have hends : Ends step finished freshKernel fun s =>
      ((chunksFrom 20).tcb ∈ s.live ∧ (s.tcb (chunksFrom 20).tcb).state.isDead = true ∧
        Meets step LeavesDead afterFinish s) ∧
        Ends step afterFinish s fun s' => Thread s' := by decide +kernel
  rcases hends with ⟨s, hs, ⟨hlive, hdead, hC⟩, s', hs', hthread⟩
  exact ⟨s, hs, s', hs', hthread, dead_never_runs freshKernel s s' _ _ _ freshKernel_initialized
    hs ⟨hlive, hdead⟩ hC hs'⟩

end NextLevelRTOS
