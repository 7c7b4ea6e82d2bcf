import NextLevelRTOS.Process.Task
import NextLevelRTOS.Lib.Machine

/-!
# The Kernel as a Machine

The kernel driven by events: calls of the task that is running, interrupts,
and the PendSV exception that switches tasks.

Thread code runs only while no switch is pending. Blocking, finishing, a
fault and a yield all pend PendSV, and the exception is taken before the next
instruction of any task. Until then interrupts may still arrive, so a wakeup
is possible in every state, the window between a block and its switch
included, while nothing a task does is.

A task's calls act on `currently_running`. `search_invalidate_tasks` is
called by the idle task, the one whose process identifier is in
`kernel_pids`. During start-up no task runs: tasks are created and
`run_scheduler` is called by the bootstrap code.

## Main definitions

* `Event`: What can happen.
* `Thread`: Thread code is running, no switch is pending.
* `Enabled`: When it can.
* `effect`: What it does.
* `step`: The transition function.
-/

namespace NextLevelRTOS

/-- What can happen to the kernel. -/
inductive Event where
  /-- `create_task`, with `ramLocation` the code image of an external task or
      zero. -/
  | createTask (c : Chunks) (slot ramLocation : Addr)
  /-- `kernel_pids.idle_task = create_task(&idle_runner, 0)` -/
  | createIdle (c : Chunks) (slot : Addr)
  | runScheduler
  /-- A chunk is allocated for a code image that is about to be received. -/
  | allocateImage (image : Addr)
  | blockCurrentTask
  | wakeupPid (pid : Nat)
  | yieldTask
  | pendsv (psp : Addr)
  | finishTask (stale : Tcb)
  | invalidateCurrentTask
  | searchInvalidateTasks
  | joinTask (pid : Nat)
  /-- The DMA interrupt and the code it informs set `dma_interrupt_action`. -/
  | dmaInterrupt (action : Nat)
  deriving DecidableEq

/-- A task is running: the system is up, there is a current task and no
    switch is pending. -/
def Thread (s : Kernel) : Prop :=
  s.booted = true ∧ s.pendsv = false ∧ s.currentlyRunning ≠ NULL

/-- A memory chunk handed out is not in use. -/
def FreeChunk (a : Addr) (s : Kernel) : Prop := a ≠ NULL ∧ a ∉ s.occupied

instance (s : Kernel) : Decidable (Thread s) := inferInstanceAs (Decidable (_ ∧ _ ∧ _))

instance (a : Addr) (s : Kernel) : Decidable (FreeChunk a s) :=
  inferInstanceAs (Decidable (_ ∧ _))

/-- When an event can happen. -/
def Enabled (e : Event) (s : Kernel) : Prop :=
  match e with
  | .createTask c _ ramLocation =>
    (s.booted = false ∨ Thread s) ∧ c.Free s ∧ (ramLocation = 0 ∨ ramLocation ∈ s.images)
  | .createIdle c _ => s.booted = false ∧ c.Free s
  | .runScheduler => s.booted = false
  | .allocateImage image => Thread s ∧ FreeChunk image s
  | .blockCurrentTask => Thread s
  | .wakeupPid _ => True
  | .yieldTask => Thread s
  | .pendsv _ => s.pendsv = true
  | .finishTask _ => Thread s
  | .invalidateCurrentTask => Thread s
  | .searchInvalidateTasks =>
    Thread s ∧ s.pidOf s.currentlyRunning = toUnsigned s.idleTask
  | .joinTask _ => Thread s
  | .dmaInterrupt _ => True

instance decidableEnabled : ∀ (e : Event) (s : Kernel), Decidable (Enabled e s)
  | .createTask c _ ramLocation, s => inferInstanceAs (Decidable
      ((s.booted = false ∨ Thread s) ∧ c.Free s ∧ (ramLocation = 0 ∨ ramLocation ∈ s.images)))
  | .createIdle c _, s => inferInstanceAs (Decidable (s.booted = false ∧ c.Free s))
  | .runScheduler, s => inferInstanceAs (Decidable (s.booted = false))
  | .allocateImage image, s => inferInstanceAs (Decidable (Thread s ∧ FreeChunk image s))
  | .blockCurrentTask, s => inferInstanceAs (Decidable (Thread s))
  | .wakeupPid _, _ => isTrue trivial
  | .yieldTask, s => inferInstanceAs (Decidable (Thread s))
  | .pendsv _, s => inferInstanceAs (Decidable (s.pendsv = true))
  | .finishTask _, s => inferInstanceAs (Decidable (Thread s))
  | .invalidateCurrentTask, s => inferInstanceAs (Decidable (Thread s))
  | .searchInvalidateTasks, s => inferInstanceAs (Decidable
      (Thread s ∧ s.pidOf s.currentlyRunning = toUnsigned s.idleTask))
  | .joinTask _, s => inferInstanceAs (Decidable (Thread s))
  | .dmaInterrupt _, _ => isTrue trivial

/-- What an event does, when nothing is written through the null pointer. -/
def effect (e : Event) (s : Kernel) : Option Kernel :=
  match e with
  | .createTask c slot ramLocation => (createTask c slot ramLocation s).map Prod.snd
  | .createIdle c slot => createIdle c slot s
  | .runScheduler => some (runScheduler s).2
  | .allocateImage image => some { s.allocate image with images := image :: s.images }
  | .blockCurrentTask => some (blockCurrentTask s)
  | .wakeupPid pid => some (wakeupPid pid s).2
  | .yieldTask => some (svcallYieldTask s)
  | .pendsv psp => some (pendsvIsr psp s)
  | .finishTask stale => some (finishTask stale s)
  | .invalidateCurrentTask => some (invalidateCurrentTask s)
  | .searchInvalidateTasks => some (searchInvalidateTasks s)
  | .joinTask pid => some (joinTask pid s)
  | .dmaInterrupt action => some { s with dmaInterruptAction := action }

/-- The transition function. -/
def step (e : Event) (s : Kernel) : Option Kernel :=
  if Enabled e s then effect e s else none

theorem step_enabled {e : Event} {s s' : Kernel} (h : step e s = some s') :
    Enabled e s ∧ effect e s = some s' := by
  unfold step at h
  by_cases hen : Enabled e s
  · rw [if_pos hen] at h
    exact ⟨hen, h⟩
  · rw [if_neg hen] at h
    exact absurd h (by simp only [reduceCtorEq, not_false_eq_true])

end NextLevelRTOS
