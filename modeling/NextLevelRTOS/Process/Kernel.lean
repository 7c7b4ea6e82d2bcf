import NextLevelRTOS.Data.Queue

/-!
# The Kernel State

The globals of `process/scheduler.c` together with the heap objects they
reach: task control blocks, queue nodes, child lists.

The heap is seen the way the kernel sees it. `allocate` answers with the null
pointer or with a chunk that is not in use, and `deallocate` puts a chunk out
of use; `occupied` lists the base addresses of the chunks in use. Which free
chunk an allocation gets is not determined here: the answer comes in with the
event that needs it, and `Chunks.Free` is the contract it has to keep. A
freed object stays readable where it was, because freeing writes nothing.

`live` and `images` are history and are read by no kernel function: the tasks
created and not yet reaped, in the order of creation, and the code images
received for tasks that are still to be created.

The panic state, which is only ever written, and the statistics kept in debug
builds are left out.

## Main definitions

* `TaskState`, `Tcb`: Task states and task control blocks.
* `Kernel`: The kernel state.
* `Kernel.setState`, `Kernel.setTcb`: Writes to a control block.
* `Kernel.allocate`, `Kernel.deallocate`: A chunk comes into use, goes out of
  use.
* `Kernel.dataOf`, `Kernel.stateOf`, `Kernel.pidOf`: What a node's task says.
* `Kernel.tasksIn`: The tasks in a queue.
-/

namespace NextLevelRTOS

/-- `TaskState_t` -/
inductive TaskState where
  | READY
  | WAITING
  | FINISHED
  | DEAD
  | INVALID
  deriving DecidableEq, Repr

/-- `Tcb`. The process identifier is a `char`, which is unsigned on this
    target, and the join identifier a `short`. -/
structure Tcb where
  pid : Nat
  state : TaskState
  isExternal : Bool
  stackSize : Nat
  sp : Addr
  stacksectionLowerBound : Addr
  codeSection : Addr
  joinPid : Int
  parentTask : Addr
  childTasks : Addr
  deriving DecidableEq, Repr

/-- `DmaTransferedExternalTask`, a flag of `dma_interrupt_action`. -/
def DmaTransferedExternalTask : Nat := 1

/-- The state of the kernel. -/
structure Kernel where
  node : NodeStore
  tcb : Addr → Tcb
  list : Addr → SingleList
  snode : Addr → SingleLinkedNode
  /-- Base addresses of the chunks in use. -/
  occupied : List Addr
  runningTasks : Queue
  waitingTasks : Queue
  currentlyRunning : Addr
  taskToPreserve : Addr
  /-- `kernel_pids.idle_task`, a `signed char`. -/
  idleTask : Int
  /-- `process_stats.clean_up_requests`, four bits wide. -/
  cleanUpRequests : Nat
  dmaInterruptAction : Nat
  /-- The PendSV exception is pending. -/
  pendsv : Bool
  /-- `run_scheduler` has succeeded. -/
  booted : Bool
  images : List Addr
  live : List Addr

namespace Kernel

variable (s : Kernel)

/-- The task a node carries. -/
def dataOf (n : Addr) : Addr := s.node.data n

/-- The state of a node's task. -/
def stateOf (n : Addr) : TaskState := (s.tcb (s.dataOf n)).state

/-- The process identifier of a node's task. -/
def pidOf (n : Addr) : Nat := (s.tcb (s.dataOf n)).pid

/-- The tasks in a queue, from the head on. -/
def tasksIn (queue : Queue) : List Addr := (queue.members s.node).map s.dataOf

/-- `tcb->general.task_info.state = state` -/
def setState (t : Addr) (state : TaskState) : Kernel :=
  { s with tcb := Function.update s.tcb t { s.tcb t with state := state } }

/-- A control block is written as a whole. -/
def setTcb (t : Addr) (tcb : Tcb) : Kernel :=
  { s with tcb := Function.update s.tcb t tcb }

/-- `allocate`, given its answer: a chunk comes into use unless there was no
    memory. -/
def allocate (answer : Addr) : Kernel :=
  if answer = NULL then s else { s with occupied := answer :: s.occupied }

/-- `deallocate` -/
def deallocate (address : Addr) : Kernel :=
  { s with occupied := s.occupied.erase address }

/-- The memory `init_allocator` leaves: no chunk in use, the globals zero,
    anything at all in the heap. -/
def reset (node : NodeStore) (tcb : Addr → Tcb) (list : Addr → SingleList)
    (snode : Addr → SingleLinkedNode) : Kernel :=
  { node := node
    tcb := tcb
    list := list
    snode := snode
    occupied := []
    runningTasks := { size := 0, head := NULL, tail := NULL }
    waitingTasks := { size := 0, head := NULL, tail := NULL }
    currentlyRunning := NULL
    taskToPreserve := NULL
    idleTask := 0
    cleanUpRequests := 0
    dmaInterruptAction := 0
    pendsv := false
    booted := false
    images := []
    live := [] }

end Kernel

end NextLevelRTOS
