import NextLevelRTOS.Process.Placement

/-!
# There Is Always a Task to Run

A switch ends without a task only if nobody with the idle task's identifier
waits and nobody with the identifier zero is in the running queue. The idle
task is created first, so it gets the identifier zero, and it stays: a task is
reaped only by the idle task, and the idle task that reaps is ready. So one
task with the identifier zero is in one of the queues in every reachable
state, and one of the three ways through `switch_task` finds a task.

The task found is ready when the switch ends. Where the workaround finds it,
the workaround has made it so.

## Main definitions

* `StartedUp`: The states `setup_kernel_runtime` succeeds in.
* `Alive`: The system is up and a task with the identifier zero is live.
* `Resumable`: The current task can be resumed.

## Theorems

* `not_stuck`: With such a task no switch is stuck.
* `step_alive`: Every event keeps the system alive.
* `switchTask_resumable`: Every switch ends with a task that can be resumed.
-/

namespace NextLevelRTOS

open Machine

/-- The system is up, the idle task's identifier is zero and somebody has it,
    and unless a switch is pending a task is running. -/
structure Alive (s : Kernel) (v : View) : Prop where
  booted : s.booted = true
  idleTask : s.idleTask = 0
  idle : ∃ n ∈ v.nodes, s.pidOf n = 0
  running : s.pendsv = false → s.currentlyRunning ≠ NULL

theorem not_stuck {s : Kernel} {v : View} (hidle : s.idleTask = 0)
    (hzero : ∃ n ∈ v.nodes, s.pidOf n = 0) : ¬ Stuck s v := by
  intro hstuck
  rcases hzero with ⟨n, hn, hpid⟩
  rcases List.mem_append.mp hn with hr | hw
  · exact hstuck.running n hr hpid
  · refine hstuck.waiting n hw ?_
    rw [hpid, hidle]
    rfl

theorem moved_idle {s s' : Kernel} {v v' : View} (h : Moved s s' v v')
    (hzero : ∃ n ∈ v.nodes, s.pidOf n = 0) : ∃ n ∈ v'.nodes, s'.pidOf n = 0 := by
  rcases hzero with ⟨n, hn, hpid⟩
  exact ⟨n, (moved_mem h n).mpr hn, (moved_pidOf h.frame n).trans hpid⟩

theorem untouched_pidOf {s s' : Kernel} {v : View} {c : Chunks} (h : Consistent s v)
    (hkeep : Untouched c s s') {n : Addr} (hn : n ∈ v.nodes) : s'.pidOf n = s.pidOf n := by
  have hlive := (consistent_live_iff h _).mpr ⟨n, hn, rfl⟩
  rw [Kernel.pidOf, hkeep.data n (consistent_node_occupied h hn), hkeep.tcb _ hlive]
  rfl

/-- Creating a task, or failing to, leaves the tasks there were in place. -/
theorem untouched_alive {s s' : Kernel} {v v' : View} {c : Chunks} (h : Consistent s v)
    (halive : Alive s v) (hkeep : Untouched c s s') (hnodes : ∀ n ∈ v.nodes, n ∈ v'.nodes) :
    Alive s' v' := by
  rcases halive.idle with ⟨n, hn, hpid⟩
  refine ⟨hkeep.booted.trans halive.booted, (hkeep.idleTask halive.booted).trans halive.idleTask,
    ⟨n, hnodes n hn, (untouched_pidOf h hkeep hn).trans hpid⟩, fun hp => ?_⟩
  rw [hkeep.current]
  exact halive.running (hkeep.pendsv.symm.trans hp)

/-- Every event keeps the system alive. -/
theorem step_alive {e : Event} {s s' : Kernel} {v : View} (hinv : Inv s v) (halive : Alive s v)
    (hstep : step e s = some s') : ∃ v', Inv s' v' ∧ Alive s' v' := by
  rcases step_outcome hinv hstep with ⟨v', hinv', hout⟩
  refine ⟨v', hinv', ?_⟩
  cases hout with
  | moved h hsteer _ =>
      have hzero := moved_idle h halive.idle
      have hidle : s'.idleTask = 0 := h.frame.idleTask.trans halive.idleTask
      rcases hsteer halive.booted with ⟨hbooted, hcontrol⟩
      refine ⟨hbooted, hidle, hzero, fun hp => ?_⟩
      rcases hcontrol with hpend | ⟨hcur, hpend⟩ | hchosen | hstuck
      · exact Bool.noConfusion (hp.symm.trans hpend)
      · rw [hcur]
        exact halive.running (hpend.symm.trans hp)
      · exact hchosen.nonnull
      · exact absurd hstuck (not_stuck hidle hzero)
  | image a hfree hs' hv =>
      rw [hs', hv, allocate_eq]
      exact ⟨halive.booted, halive.idleTask, halive.idle, halive.running⟩
  | notCreated c ramLocation _ hkeep h =>
      refine untouched_alive hinv.consistent halive hkeep fun n hn => ?_
      rw [View.nodes, h.running, h.waiting]
      exact hn
  | created c ramLocation _ hkeep h =>
      refine untouched_alive hinv.consistent halive hkeep fun n hn => ?_
      rw [h.view]
      exact (insert_nodes_perm ..).mem_iff.mpr (List.mem_cons_of_mem _ hn)
  | reaped he h =>
      -- The task that reaps has the identifier zero and survives.
      rw [he] at hstep
      rcases (step_enabled hstep).1 with ⟨hthread, hself⟩
      have hcur : s'.currentlyRunning ∈ v'.running := by
        refine hinv'.current ?_
        rw [h.current]
        exact hthread.2.2
      refine ⟨h.booted.trans halive.booted, h.idleTask.trans halive.idleTask,
        ⟨_, List.mem_append_left _ hcur, ?_⟩, fun _ => ?_⟩
      · rw [halive.idleTask] at hself
        simp only [Kernel.pidOf, Kernel.dataOf, h.current, h.tcb, h.data]
        exact hself
      · rw [h.current]
        exact hthread.2.2

theorem run_alive {es : List Event} {s s' : Kernel} (h : ∃ v, Inv s v ∧ Alive s v)
    (hrun : run step es s = some s') : ∃ v, Inv s' v ∧ Alive s' v := by
  refine run_preserves step (fun s => ∃ v, Inv s v ∧ Alive s v) ?_ es s s' h hrun
  rintro s e s' ⟨v, hinv, halive⟩ hstep
  exact step_alive hinv halive hstep

/-- `s` is what `setup_kernel_runtime` makes of empty memory when it succeeds.
    The answers it gets for the queue headers and for the idle task keep the
    contract of `allocate`. -/
def StartedUp (s : Kernel) : Prop :=
  ∃ node tcb list snode runningQueue waitingQueue c slot, runningQueue ≠ waitingQueue ∧
    c.Free (initScheduler runningQueue waitingQueue (Kernel.reset node tcb list snode)).2 ∧
    setupKernelRuntime runningQueue waitingQueue c slot (Kernel.reset node tcb list snode) = some s

theorem runScheduler_result (s : Kernel) : (runScheduler s).1 = -1 ∨ (runScheduler s).1 = 0 := by
  unfold runScheduler
  cases ensureRunning s with
  | none => exact Or.inl rfl
  | some s₁ =>
      dsimp only
      by_cases hhead : s₁.runningTasks.head = NULL
      · exact Or.inl (by rw [if_pos hhead])
      · exact Or.inr (by rw [if_neg hhead])

/-- The idle task is the first task, and its identifier is zero. -/
theorem createIdle_first {c : Chunks} {slot : Addr} {s s' : Kernel} (hinit : Initialized s)
    (hfree : c.Free s) (hidle : createIdle c slot s = some s') (hne : s'.idleTask ≠ -1) :
    ∃ v, Inv s' v ∧ s'.idleTask = 0 ∧ (∃ n ∈ v.nodes, s'.pidOf n = 0) ∧ s'.booted = false := by
  rcases initScheduler_inv hinit with ⟨hinv, _, _, hboot⟩
  rcases createIdle_some hidle with ⟨result, s₁, hrun, rfl⟩
  rcases createTask_inv hinv hfree (Or.inl rfl) hrun with
    ⟨v', hinv', hkeep, ⟨hres, _⟩ | ⟨hres, hnew⟩⟩
  · rw [hres] at hne
    exact absurd rfl hne
  -- The identifier is the number of tasks, and there is none yet.
  · have hpid : (newTcb c 0 s).pid = 0 := by
      simp only [newTcb, initTcb, hinv.consistent.running.size, hinv.consistent.waiting.size]
      rfl
    refine ⟨v', inv_idleTask hinv' _, ?_, ⟨c.queueNode, ?_, ?_⟩, hkeep.booted.trans hboot⟩
    · rw [hres, hpid]
      rfl
    · rw [hnew.view]
      exact (insert_nodes_perm ..).mem_iff.mpr List.mem_cons_self
    · change (s₁.tcb (s₁.dataOf c.queueNode)).pid = 0
      rw [hnew.node, hnew.tcb]
      exact hpid

theorem startedUp_alive {s : Kernel} (h : StartedUp s) : ∃ v, Inv s v ∧ Alive s v := by
  rcases h with ⟨node, tcb, list, snode, rq, wq, c, slot, hne, hfree, hsetup⟩
  unfold setupKernelRuntime at hsetup
  rcases hpair : initScheduler rq wq (Kernel.reset node tcb list snode) with ⟨result, s₁⟩
  have hresult := initScheduler_cases rq wq (Kernel.reset node tcb list snode)
  rw [hpair] at hsetup hfree hresult
  -- Each of the three steps ends the setup if it fails.
  by_cases hfail : result = -1
  · simp only [if_pos hfail, reduceCtorEq] at hsetup
  have hinit : Initialized s₁ := by
    refine ⟨node, tcb, list, snode, rq, wq, hne, ?_⟩
    rcases hresult.resolve_left hfail with ⟨_, _, hzero⟩
    rw [hpair, (Prod.mk.inj hzero).1]
  simp only [if_neg hfail] at hsetup
  cases hcreate : createIdle c slot s₁ with
  | none => simp only [hcreate, reduceCtorEq] at hsetup
  | some s₂ =>
      simp only [hcreate] at hsetup
      by_cases hid : s₂.idleTask = -1
      · simp only [if_pos hid, reduceCtorEq] at hsetup
      rcases createIdle_first hinit hfree hcreate hid with ⟨v, hinv, hidle, hzero, hboot⟩
      simp only [if_neg hid] at hsetup
      rcases runScheduler_inv hinv hboot with ⟨v', hmoved, _, hinv', hrun⟩
      by_cases hrs : (runScheduler s₂).1 = -1
      · simp only [if_pos hrs, reduceCtorEq] at hsetup
      simp only [if_neg hrs, Option.some.injEq] at hsetup
      rcases hrun ((runScheduler_result s₂).resolve_left hrs) with ⟨hchosen, hbooted, _⟩
      rw [← hsetup]
      exact ⟨v', hinv', hbooted, hmoved.frame.idleTask.trans hidle, moved_idle hmoved hzero,
        fun _ => hchosen.nonnull⟩

/-- The current task is a member of the running queue, it is ready, and it is
    the one whose registers will be saved. -/
def Resumable (s : Kernel) : Prop :=
  s.currentlyRunning ≠ NULL ∧ s.currentlyRunning ∈ s.runningTasks.members s.node ∧
    s.stateOf s.currentlyRunning = .READY ∧ s.taskToPreserve = s.currentlyRunning

theorem chosen_resumable {s : Kernel} {v : View} (hcons : Consistent s v) (h : Chosen s v) :
    Resumable s :=
  ⟨h.nonnull, (represents_members hcons.running).symm ▸ h.member, h.ready, h.preserve⟩

/-- The registers to save are a task's in every state of a running system. -/
theorem alive_preserve {s : Kernel} {v : View} (hinv : Inv s v) (halive : Alive s v) :
    s.taskToPreserve ≠ NULL := by
  cases hp : s.pendsv with
  | true => exact hinv.pending hp
  | false =>
      have hthread : Thread s := ⟨halive.booted, hp, halive.running hp⟩
      exact (inv_preserve_current hinv hthread).1

/-- In every state reachable after start-up, `pendsv_isr` saves the registers
    of a task, and `switch_task` ends with a task that can be resumed, whether
    called from there or at once. -/
theorem switchTask_resumable (s₀ s : Kernel) (es : List Event) (psp : Addr)
    (hstart : StartedUp s₀) (hrun : run step es s₀ = some s) :
    s.taskToPreserve ≠ NULL ∧ Resumable (switchTask s) ∧ Resumable (pendsvIsr psp s) := by
  rcases run_alive (startedUp_alive hstart) hrun with ⟨v, hinv, halive⟩
  refine ⟨alive_preserve hinv halive, ?_, ?_⟩
  · rcases switchTask_moved hinv.consistent hinv.current with ⟨v', hmoved, _, hch | hst⟩
    · exact chosen_resumable hmoved.consistent hch
    · have hidle := hmoved.frame.idleTask.trans halive.idleTask
      exact absurd hst (not_stuck hidle (moved_idle hmoved halive.idle))
  · rcases pendsvIsr_moved hinv psp with ⟨v', hmoved, _, hch | hst, _⟩
    · exact chosen_resumable hmoved.consistent hch
    · have hidle := hmoved.frame.idleTask.trans halive.idleTask
      exact absurd hst (not_stuck hidle (moved_idle hmoved halive.idle))

/-- The kernel right after start-up on blank memory. -/
def startedKernel : Option Kernel :=
  setupKernelRuntime 1 2 (chunksFrom 10) 3 (Kernel.reset
    (fun _ => { next := 0, prev := 0, data := 0 }) (fun _ => blankTcb)
    (fun _ => { size := 0, head := NULL }) (fun _ => { next := NULL, data := NULL }))

theorem startedKernel_startedUp {s : Kernel} (h : startedKernel = some s) : StartedUp s :=
  ⟨_, _, _, _, 1, 2, chunksFrom 10, 3, by decide, by decide +kernel, h⟩

/-- The only task besides the idle task faults while the idle task waits, and
    an interrupt wakes the idle task before the switch. -/
theorem switchTask_resumable_fault : ∃ s₀, startedKernel = some s₀ ∧
    Ends step [.createTask (chunksFrom 20) 3 0, .blockCurrentTask, .pendsv 8,
      .invalidateCurrentTask, .wakeupPid 0] s₀ fun s =>
        s.taskToPreserve ≠ NULL ∧ Resumable (switchTask s) ∧ Resumable (pendsvIsr 8 s) := by
  have hends : ∃ s₀, startedKernel = some s₀ ∧
      Ends step [.createTask (chunksFrom 20) 3 0, .blockCurrentTask, .pendsv 8,
        .invalidateCurrentTask, .wakeupPid 0] s₀ fun _ => True := by decide +kernel
  rcases hends with ⟨s₀, hs₀, s, hs, _⟩
  exact ⟨s₀, hs₀, s, hs, switchTask_resumable s₀ s _ 8 (startedKernel_startedUp hs₀) hs⟩

end NextLevelRTOS
