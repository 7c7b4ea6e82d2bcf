import NextLevelRTOS.Process.Scheduler

/-!
# Task Creation

`create_task` of `process/task.c`. It allocates up to five times: the stack,
the control block, the list node that is pushed onto the parent's child list,
the new task's own child list and the queue node. `Chunks` holds the five
answers. A null answer to the first two ends the creation with `-1`; a null
answer inside `single_list_push` or `new_list` is written through, which is
the `none` of `createTask`; a null answer to the last leaves the new task
outside the queues and returns `-1`.

What is pushed onto the parent's child list is `&tcb`, the address of the
local variable that holds the control block pointer, so `createTask` takes
that address as an argument.

## Main definitions

* `Chunks`: The answers to the five allocations.
* `Chunks.Free`: The answers an allocator may give.
* `initTcb`: The control block before the child list is attached.
* `pushChild`: The entry in the parent's child list.
* `createTask`: The whole.
* `setupKernelRuntime`: The idle task and the first choice of a task to run.
-/

namespace NextLevelRTOS

/-- `STACK_SIZE` -/
def STACK_SIZE : Nat := 1536

/-- `sizeof(CpuRegister_t)`, sixteen words. -/
def sizeofCpuRegister : Nat := 64

/-- What the five calls of `allocate` in `create_task` answer. -/
structure Chunks where
  stack : Addr
  tcb : Addr
  childNode : Addr
  childList : Addr
  queueNode : Addr
  deriving DecidableEq, Repr

/-- The chunks handed out: the answers other than the null pointer. -/
def Chunks.granted (c : Chunks) : List Addr :=
  [c.stack, c.tcb, c.childNode, c.childList, c.queueNode].filter (fun a => a ≠ NULL)

/-- The contract of `allocate`: a chunk handed out is not in use. -/
def Chunks.Free (c : Chunks) (s : Kernel) : Prop :=
  c.granted.Nodup ∧ ∀ a ∈ c.granted, a ∉ s.occupied

instance (c : Chunks) (s : Kernel) : Decidable (c.Free s) :=
  inferInstanceAs (Decidable (_ ∧ _))

/-- The control block as far as it is filled in before the child list. The
    process identifier is the number of tasks in the two queues, as a `char`. -/
def initTcb (stack ramLocation : Addr) (s : Kernel) : Tcb :=
  let pid := (s.runningTasks.size + s.waitingTasks.size) % 256
  { pid := pid
    state := if pid = 0 then .WAITING else .READY
    isExternal := ramLocation ≠ 0
    stackSize := STACK_SIZE
    sp := stack + STACK_SIZE - sizeofCpuRegister
    stacksectionLowerBound := stack
    codeSection := ramLocation
    joinPid := -1
    parentTask := if s.currentlyRunning = NULL then NULL else s.dataOf s.currentlyRunning
    childTasks := NULL }

/-- `if (currently_running) single_list_push(.., &tcb)` -/
def pushChild (childNode slot : Addr) (s : Kernel) : Option Kernel :=
  if s.currentlyRunning = NULL then some s
  else
    let list := (s.tcb (s.dataOf s.currentlyRunning)).childTasks
    let s := s.allocate childNode
    match singleListPush childNode s.snode (s.list list) slot with
    | none => none
    | some (snode, l) => some { s with snode := snode, list := Function.update s.list list l }

/-- `tcb->child_tasks = new_list()` -/
def attachChildList (childList t : Addr) (s : Kernel) : Option Kernel :=
  let s := s.allocate childList
  match newList childList s.list with
  | none => none
  | some list => some ({ s with list := list }.setTcb t { s.tcb t with childTasks := childList })

/-- The task has been created: it is live, and its code image is its own. -/
def recordTask (t ramLocation : Addr) (s : Kernel) : Kernel :=
  { s with
    live := s.live ++ [t]
    images := if ramLocation = 0 then s.images else s.images.erase ramLocation }

/-- `create_task`. -/
def createTask (c : Chunks) (slot ramLocation : Addr) (s : Kernel) : Option (Int × Kernel) :=
  let s := s.allocate c.stack
  if c.stack = NULL then some (-1, s)
  else
    let s := s.allocate c.tcb
    if c.tcb = NULL then some (-1, s)
    else
      let s := s.setTcb c.tcb (initTcb c.stack ramLocation s)
      match pushChild c.childNode slot s with
      | none => none
      | some s =>
        match attachChildList c.childList c.tcb s with
        | none => none
        | some s =>
          let (result, s) := insertScheduledTask c.queueNode c.tcb s
          if result = -1 then some (-1, s)
          else some ((s.tcb c.tcb).pid, recordTask c.tcb ramLocation s)

/-- `kernel_pids.idle_task = create_task(&idle_runner, 0)` -/
def createIdle (c : Chunks) (slot : Addr) (s : Kernel) : Option Kernel :=
  match createTask c slot 0 s with
  | none => none
  | some (pid, s) => some { s with idleTask := toSignedChar pid }

/-- `setup_kernel_runtime`, as far as it succeeds. -/
def setupKernelRuntime (runningQueue waitingQueue : Addr) (c : Chunks) (slot : Addr)
    (s : Kernel) : Option Kernel :=
  let (result, s) := initScheduler runningQueue waitingQueue s
  if result = -1 then none
  else
    match createIdle c slot s with
    | none => none
    | some s =>
      if s.idleTask = -1 then none
      else
        let (result, s) := runScheduler s
        if result = -1 then none else some s

end NextLevelRTOS
