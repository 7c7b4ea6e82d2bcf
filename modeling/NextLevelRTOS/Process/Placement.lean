import NextLevelRTOS.Process.Reachable

/-!
# Where the Tasks Are

Every live task is in one of the two queues, once, and its state says in which
one: the waiting queue holds the waiting tasks and no others. The tasks in the
queues are the live tasks up to order, so both facts are a matter of reading
the invariant off the heads of the queues.

Joining a child looks for it where it cannot be. `check_tasks_availability`
goes through the waiting queue in search of a task that is ready, and the
waiting queue has none, in any reachable state. So `join_task` returns at once
whatever child it is given: the caller never moves to the waiting queue, and
the scheduler goes on choosing it while the child still runs.

## Main definitions

* `ReadyChild`: The caller has a child that has not finished.
* `JoinBlocks`: Joining puts the caller into the waiting queue.

## Theorems

* `tasksIn_running`, `tasksIn_waiting`: The queues hold the nodes of the view.
* `live_in_one_queue`: Each live task is in one queue, once.
* `joinTask_never_blocks`: Joining changes nothing.
-/

namespace NextLevelRTOS

open Machine

theorem tasksIn_running {s : Kernel} {v : View} (h : Consistent s v) :
    s.tasksIn s.runningTasks = v.running.map s.dataOf := by
  rw [Kernel.tasksIn, represents_members h.running]

theorem tasksIn_waiting {s : Kernel} {v : View} (h : Consistent s v) :
    s.tasksIn s.waitingTasks = v.waiting.map s.dataOf := by
  rw [Kernel.tasksIn, represents_members h.waiting]

/-- The tasks in the two queues together are the live tasks. -/
theorem tasksIn_perm {s : Kernel} {v : View} (h : Consistent s v) :
    (s.tasksIn s.runningTasks ++ s.tasksIn s.waitingTasks).Perm s.live := by
  rw [tasksIn_running h, tasksIn_waiting h, ← List.map_append]
  exact h.tasks

/-- A live task is in the waiting queue exactly if it waits. -/
theorem waiting_iff {s : Kernel} {v : View} (h : Consistent s v) {t : Addr} (ht : t ∈ s.live) :
    t ∈ s.tasksIn s.waitingTasks ↔ (s.tcb t).state = .WAITING := by
  rw [tasksIn_waiting h, List.mem_map]
  constructor
  · rintro ⟨n, hn, rfl⟩
    exact h.waitingState n hn
  · intro hstate
    rcases (consistent_live_iff h t).mp ht with ⟨n, hn, rfl⟩
    rcases List.mem_append.mp hn with hr | hw
    · exact absurd hstate (h.runningState n hr)
    · exact ⟨n, hw, rfl⟩

/-- In every reachable state each live task is in exactly one of the queues,
    exactly once, it is in the waiting queue exactly if it waits, and the two
    sizes add up to the number of live tasks. -/
theorem live_in_one_queue (s₀ s : Kernel) (es : List Event) (hinit : Initialized s₀)
    (hrun : run step es s₀ = some s) :
    (∀ t ∈ s.live, (s.tasksIn s.runningTasks ++ s.tasksIn s.waitingTasks).count t = 1) ∧
    (∀ t ∈ s.live, t ∈ s.tasksIn s.waitingTasks ↔ (s.tcb t).state = .WAITING) ∧
    s.runningTasks.size + s.waitingTasks.size = s.live.length := by
  rcases reachable_inv hinit hrun with ⟨v, hinv⟩
  have h := hinv.consistent
  refine ⟨fun t ht => ?_, fun t ht => waiting_iff h ht, ?_⟩
  · rw [(tasksIn_perm h).count_eq]
    exact List.count_eq_one_of_mem (consistent_live_nodup h) ht
  · rw [h.running.size, h.waiting.size, ← h.tasks.length_eq, List.length_map, View.nodes,
      List.length_append]

/-- Tasks come and go: the idle task blocks and is woken by an interrupt while
    its switch is pending, one task finishes, one faults, both are reaped and a
    third blocks. -/
def comeAndGo : List Event :=
  startUp ++ [.createTask (chunksFrom 20) 3 0, .createTask (chunksFrom 30) 3 0,
    .createTask (chunksFrom 40) 3 0, .blockCurrentTask, .wakeupPid 0, .pendsv 8, .yieldTask,
    .pendsv 8, .finishTask blankTcb, .pendsv 8, .invalidateCurrentTask, .pendsv 8,
    .blockCurrentTask, .pendsv 8, .searchInvalidateTasks]

theorem live_in_one_queue_comeAndGo : Ends step comeAndGo freshKernel fun s =>
    (∀ t ∈ s.live, (s.tasksIn s.runningTasks ++ s.tasksIn s.waitingTasks).count t = 1) ∧
    (∀ t ∈ s.live, t ∈ s.tasksIn s.waitingTasks ↔ (s.tcb t).state = .WAITING) ∧
    s.runningTasks.size + s.waitingTasks.size = s.live.length := by
  have hends : Ends step comeAndGo freshKernel fun _ => True := by decide +kernel
  rcases hends with ⟨s, hs, _⟩
  exact ⟨s, hs, live_in_one_queue freshKernel s comeAndGo freshKernel_initialized hs⟩

section Join

/-- The caller has a live child with this identifier that has not finished. -/
def ReadyChild (s : Kernel) (pid : Nat) : Prop :=
  ∃ t ∈ s.live, (s.tcb t).parentTask = s.dataOf s.currentlyRunning ∧ (s.tcb t).pid = pid ∧
    (s.tcb t).state ≠ .FINISHED

instance (s : Kernel) (pid : Nat) : Decidable (ReadyChild s pid) :=
  inferInstanceAs (Decidable (∃ t ∈ s.live, _))

/-- Joining puts the caller into the waiting queue. -/
def JoinBlocks (s : Kernel) (pid : Nat) : Prop :=
  s.dataOf s.currentlyRunning ∈ (joinTask pid s).tasksIn (joinTask pid s).waitingTasks

instance (s : Kernel) (pid : Nat) : Decidable (JoinBlocks s pid) :=
  inferInstanceAs (Decidable (_ ∈ _))

/-- In every reachable state joining changes nothing, whatever children there
    are: the caller does not block, and stays ready in the running queue. -/
theorem joinTask_never_blocks (s₀ s : Kernel) (es : List Event) (pid : Nat)
    (hinit : Initialized s₀) (hrun : run step es s₀ = some s) (hthread : Thread s) :
    ¬ JoinBlocks s pid ∧ joinTask pid s = s ∧ s.stateOf s.currentlyRunning = .READY ∧
      s.dataOf s.currentlyRunning ∈ s.tasksIn s.runningTasks := by
  rcases reachable_inv hinit hrun with ⟨v, hinv⟩
  have h := hinv.consistent
  have hcur := inv_current_running hinv hthread
  have hready := (hinv.thread hthread).1
  refine ⟨?_, joinTask_id h pid, hready, ?_⟩
  · rw [JoinBlocks, joinTask_id h pid]
    have hlive := (consistent_live_iff h (s.dataOf s.currentlyRunning)).mpr
      ⟨_, List.mem_append_left _ hcur, rfl⟩
    exact fun hc => TaskState.noConfusion (hready.symm.trans ((waiting_iff h hlive).mp hc))
  · rw [tasksIn_running h]
    exact List.mem_map_of_mem hcur

/-- A task with a child: the first task creates a second one. -/
def parentAndChild : List Event :=
  startUp ++ [.createTask (chunksFrom 20) 3 0, .blockCurrentTask, .pendsv 8,
    .createTask (chunksFrom 30) 3 0]

theorem joinTask_never_blocks_parentAndChild : Ends step parentAndChild freshKernel fun s =>
    ReadyChild s 2 ∧ ¬ JoinBlocks s 2 ∧ joinTask 2 s = s ∧
      s.stateOf s.currentlyRunning = .READY ∧
      s.dataOf s.currentlyRunning ∈ s.tasksIn s.runningTasks := by
  have hends : Ends step parentAndChild freshKernel fun s => Thread s ∧ ReadyChild s 2 := by
    decide +kernel
  rcases hends with ⟨s, hs, hthread, hchild⟩
  exact ⟨s, hs, hchild,
    joinTask_never_blocks freshKernel s parentAndChild 2 freshKernel_initialized hs hthread⟩

/-- Joining does not wait for a child: the caller has one that is ready, and
    two switches later the caller runs again and the child still is. -/
theorem joinTask_does_not_wait : Ends step parentAndChild freshKernel fun s =>
    Thread s ∧ ReadyChild s 2 ∧ ¬ JoinBlocks s 2 ∧
      Ends step [.joinTask 2, .yieldTask, .pendsv 8, .yieldTask, .pendsv 8] s fun s' =>
        s'.currentlyRunning = s.currentlyRunning ∧ ReadyChild s' 2 := by
  decide +kernel

end Join

end NextLevelRTOS
