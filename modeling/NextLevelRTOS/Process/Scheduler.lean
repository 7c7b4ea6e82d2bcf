import NextLevelRTOS.Process.Kernel

/-!
# The Scheduler

The functions of `process/scheduler.c` and the inline functions of
`process/scheduler.h`, each one call taken as a whole.

Three loops walk a queue by counting: `wakeup_pid`, `force_pid0_into_running`
and `check_tasks_availability` look for a node from the head on, and
`findNode` is that loop with the test as a parameter. The search of
`switch_task` advances before it tests, which is `nextReady`.

`search_invalidate_tasks` reads the queue size again before every step, and
cleaning a task up lowers it, so the loop of `searchLoop` has the counter and
the size apart. Its fuel is the size at the start, which bounds the counter.

`finish_task` reads its parent's control block through a pointer that nothing
clears when the parent is reaped. The block is what it was only as long as
the parent is live; afterwards the memory may hold anything, and what is read
there comes in as an argument.

## Main definitions

* `initScheduler`, `runScheduler`: Setting up.
* `blockCurrentTask`, `wakeupPid`: Moving a task between the queues.
* `switchTask`, `pendsvIsr`: Choosing the next task.
* `finishTask`, `invalidateCurrentTask`: A task's end.
* `cleanUpTask`, `searchInvalidateTasks`: Reaping.
* `checkTasksAvailability`, `joinTask`: Waiting for a child.
-/

namespace NextLevelRTOS

/-- The conversion of a `signed char` or an `int` to `unsigned int`. -/
def toUnsigned (i : Int) : Nat := (i % 4294967296).toNat

/-- The conversion to `short`. -/
def toShort (n : Nat) : Int := Int.bmod n 65536

/-- The conversion to `signed char`. -/
def toSignedChar (i : Int) : Int := Int.bmod i 256

/-- A counted loop over the forward links, stopping at the first node that
    passes the test. -/
def findNode (σ : NodeStore) (test : Addr → Bool) : Nat → Addr → Option Addr
  | 0, _ => none
  | n + 1, q => if test q then some q else findNode σ test n (σ.next q)

/-- `init_scheduler`, given what the two calls of `new_queue` got. -/
def initScheduler (runningQueue waitingQueue : Addr) (s : Kernel) : Int × Kernel :=
  let s := { s with currentlyRunning := NULL }
  let s := s.allocate runningQueue
  if runningQueue = NULL then (-1, s)
  else
    let s := { s with runningTasks := { size := 0, head := NULL, tail := NULL } }
    let s := s.allocate waitingQueue
    if waitingQueue = NULL then (-1, s)
    else
      let s := { s with waitingTasks := { size := 0, head := NULL, tail := NULL } }
      (0, { s with cleanUpRequests := 0, idleTask := -1 })

/-- `insert_scheduled_task`, given the answer of the allocation in
    `enqueue_element`. -/
def insertScheduledTask (newNode t : Addr) (s : Kernel) : Int × Kernel :=
  match (s.tcb t).state with
  | .READY =>
    let s := s.allocate newNode
    let (result, node, queue) := enqueueElement newNode s.node s.runningTasks t
    if result < 0 then (-1, s)
    else (1, { s with node := node, runningTasks := queue })
  | .WAITING =>
    let s := s.allocate newNode
    let (result, node, queue) := enqueueElement newNode s.node s.waitingTasks t
    if result < 0 then (-1, s)
    else (1, { s with node := node, waitingTasks := queue })
  | _ => (-1, s)

/-- `svcall(yieldTask)`: the handler pends PendSV and nothing else. -/
def svcallYieldTask (s : Kernel) : Kernel := { s with pendsv := true }

/-- `block_current_task` -/
def blockCurrentTask (s : Kernel) : Kernel :=
  let s := s.setState (s.dataOf s.currentlyRunning) .WAITING
  let q := s.node.prev s.currentlyRunning
  let s := { s with taskToPreserve := s.currentlyRunning }
  let (node, queue) := isolateNode s.node s.runningTasks s.currentlyRunning
  let s := { s with node := node, runningTasks := queue }
  let (node, queue) := moveNode s.node s.waitingTasks s.currentlyRunning
  let s := { s with node := node, waitingTasks := queue }
  let s := { s with currentlyRunning := if 0 < s.runningTasks.size then q else NULL }
  svcallYieldTask s

/-- What `wakeup_pid` does with the node it found. -/
def wakeNode (q : Addr) (s : Kernel) : Kernel :=
  let (node, queue) := isolateNode s.node s.waitingTasks q
  let s := { s with node := node, waitingTasks := queue }
  let (node, queue) := moveNode s.node s.runningTasks q
  let s := { s with node := node, runningTasks := queue }
  s.setState (s.dataOf q) .READY

/-- `wakeup_pid`. It returns the node it woke, or the null pointer. -/
def wakeupPid (pid : Nat) (s : Kernel) : Addr × Kernel :=
  if s.waitingTasks.head = NULL then (NULL, s)
  else
    match findNode s.node (fun q => s.pidOf q = pid) s.waitingTasks.size s.waitingTasks.head with
    | none => (NULL, s)
    | some q => (q, wakeNode q s)

/-- `force_pid0_into_running` -/
def forcePid0IntoRunning (s : Kernel) : Kernel :=
  match findNode s.node (fun q => s.pidOf q = 0) s.runningTasks.size s.runningTasks.head with
  | none => s
  | some q =>
    let s := s.setState (s.dataOf q) .READY
    { s with currentlyRunning := q, taskToPreserve := q }

/-- The ring search of `switch_task`: one link forward, then the test. -/
def nextReady (s : Kernel) : Nat → Addr → Option Addr
  | 0, _ => none
  | n + 1, q => if s.stateOf (s.node.next q) = .READY then some (s.node.next q)
    else nextReady s n (s.node.next q)

/-- The second step of `switch_task`: an image the DMA has transferred needs
    the idle task. -/
def serveDma (s : Kernel) : Kernel :=
  if s.dmaInterruptAction &&& DmaTransferedExternalTask = 0 then s
  else (wakeupPid (toUnsigned s.idleTask) s).2

/-- `switch_task` -/
def switchTask (s : Kernel) : Kernel :=
  if s.currentlyRunning = NULL then
    let (q, s) := wakeupPid (toUnsigned s.idleTask) s
    let s := { s with currentlyRunning := q }
    let s := if s.currentlyRunning = NULL then forcePid0IntoRunning s else s
    { s with taskToPreserve := s.currentlyRunning }
  else
    let s := serveDma s
    match nextReady s s.runningTasks.size s.currentlyRunning with
    | some q => { s with currentlyRunning := q, taskToPreserve := q }
    | none =>
      let (q, s) := wakeupPid (toUnsigned s.idleTask) s
      let s := { s with currentlyRunning := q, taskToPreserve := q }
      if s.currentlyRunning = NULL then forcePid0IntoRunning s else s

/-- `pendsv_isr` entered with the process stack pointer at `psp`. -/
def pendsvIsr (psp : Addr) (s : Kernel) : Kernel :=
  let s := { s with pendsv := false }
  let t := s.dataOf s.taskToPreserve
  switchTask (s.setTcb t { s.tcb t with sp := psp })

/-- The first step of `run_scheduler`: with no task to run the idle task is
    woken, and `none` says that there is none. -/
def ensureRunning (s : Kernel) : Option Kernel :=
  if s.runningTasks.size = 0 then
    if (wakeupPid (toUnsigned s.idleTask) s).1 = NULL then none
    else some (wakeupPid (toUnsigned s.idleTask) s).2
  else some s

/-- `run_scheduler`, without the timers it starts. -/
def runScheduler (s : Kernel) : Int × Kernel :=
  match ensureRunning s with
  | none => (-1, s)
  | some s =>
    let s := { s with currentlyRunning := s.runningTasks.head }
    if s.currentlyRunning = NULL then (-1, s)
    else (0, { s with taskToPreserve := s.currentlyRunning, booted := true })

/-- `process_stats.clean_up_requests++`, in four bits. -/
def requestCleanUp (s : Kernel) : Kernel :=
  { s with cleanUpRequests := (s.cleanUpRequests + 1) % 16 }

/-- `invalidate_current_task`, followed by `set_pendsv` as in the fault
    handlers that call it. -/
def invalidateCurrentTask (s : Kernel) : Kernel :=
  let s := s.setState (s.dataOf s.currentlyRunning) .INVALID
  let s := requestCleanUp s
  { s with pendsv := true }

/-- What a task control block pointer reads: the block while its task is
    live, whatever the memory holds afterwards. -/
def readTcb (stale : Tcb) (t : Addr) (s : Kernel) : Tcb :=
  if t ∈ s.live then s.tcb t else stale

/-- The middle of `finish_task`: a parent that joined this task is woken. -/
def wakeJoiningParent (stale : Tcb) (t : Addr) (s : Kernel) : Kernel :=
  let parent := readTcb stale (s.tcb t).parentTask s
  if parent.joinPid = (s.tcb t).pid then (wakeupPid parent.pid s).2 else s

/-- `finish_task` -/
def finishTask (stale : Tcb) (s : Kernel) : Kernel :=
  let t := s.dataOf s.currentlyRunning
  let s := s.setState t .FINISHED
  let s := wakeJoiningParent stale t s
  let s := requestCleanUp s
  { s with pendsv := true }

/-- `clean_up_task` -/
def cleanUpTask (t obsoleteNode : Addr) (s : Kernel) : Kernel :=
  let s := if (s.tcb t).isExternal then s.deallocate (s.tcb t).codeSection else s
  let s := s.deallocate (s.tcb t).stacksectionLowerBound
  let s := s.deallocate t
  let (node, queue) := dequeueElement s.node s.runningTasks obsoleteNode
  let s := { s with node := node, runningTasks := queue, live := s.live.erase t }
  s.deallocate obsoleteNode

/-- `clean_up_task` and `process_stats.clean_up_requests--`, in four bits. -/
def reap (n : Addr) (s : Kernel) : Kernel :=
  let s := cleanUpTask (s.dataOf n) n s
  { s with cleanUpRequests := (s.cleanUpRequests + 15) % 16 }

/-- The loop of `search_invalidate_tasks`. -/
def searchLoop : Nat → Nat → Addr → Kernel → Kernel
  | 0, _, _, s => s
  | fuel + 1, j, q, s =>
    if j < s.runningTasks.size then
      let s := if s.stateOf q = .FINISHED ∨ s.stateOf q = .INVALID then reap q s else s
      searchLoop fuel (j + 1) (s.node.next q) s
    else s

/-- `search_invalidate_tasks` -/
def searchInvalidateTasks (s : Kernel) : Kernel :=
  searchLoop s.runningTasks.size 0 s.currentlyRunning s

/-- `check_tasks_availability` -/
def checkTasksAvailability (pid : Nat) (s : Kernel) : Bool :=
  if s.waitingTasks.head = NULL then false
  else (findNode s.node (fun q => s.pidOf q = pid ∧ s.stateOf q = .READY) s.waitingTasks.size
    s.waitingTasks.head).isSome

/-- `join_task` -/
def joinTask (pidToWaitFor : Nat) (s : Kernel) : Kernel :=
  if checkTasksAvailability pidToWaitFor s then
    let t := s.dataOf s.currentlyRunning
    blockCurrentTask (s.setTcb t { s.tcb t with joinPid := toShort pidToWaitFor })
  else s

end NextLevelRTOS
