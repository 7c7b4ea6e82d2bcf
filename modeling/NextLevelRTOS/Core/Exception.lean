import NextLevelRTOS.Lib.Block
import NextLevelRTOS.Lib.Machine
import NextLevelRTOS.Memory.Entry

/-!
# Supervisor Calls and the Task Switch

The handlers of `core/exception.c` and `process/scheduler.c` at the level of
registers and stacks. A task runs in thread mode on the process stack pointer.
On an exception the processor pushes eight registers there (`r0` to `r3`,
`r12`, `lr`, the return address and the status word) and pops them on the way
back; `r4` to `r11` are up to the handlers.

`svcall_isr` pushes `r4` to `r11` on entry, for every trap. Traps that return
to their caller pop them again; a trap that asks for a task switch leaves them
on the stack, where `pendsv_isr` expects them. A switch requested in the
handler is taken when the handler returns, before any instruction of the
task, and without a second frame.

What is left out is what no register depends on. Which task `switch_task`
selects is not determined here: the event says which, so every statement holds
for every order of switches, and waking a task has no effect of its own.
Printing is left out for the same reason. The code a task passes to `execPriv`
is a parameter, and so are the build flag `SYSTICK` and the address of
`rx_state`.

Memory is addressed by words, and `owner` says whose stack a word belongs to,
so stacks do not overlap. `issued` is history: the registers of a task at its
last supervisor call, until it executes anything else.

## Main definitions

* `TrapType`: The traps.
* `Cpu`: The registers, the memory and the pointers of the scheduler.
* `Platform`: What the handlers run with.
* `enterException`, `leaveException`: What the processor does.
* `svcallIsr`, `pendsvIsr`: The handlers.
* `TaskEvent`, `taskStep`: The tasks and the processor as a machine.
-/

namespace NextLevelRTOS

/-- `TrapType_t` -/
inductive TrapType where
  | execPspTask
  | printMsg
  | yieldTask
  | std
  | ste
  | reset
  | execPriv
  | wakeupPid
  | setExtIoCallback
  | getIoBuffer
  | wakeupIoHandler
  | disableIrReception
  | enableIrReception
  deriving DecidableEq, Repr

/-- The trap a number stands for. -/
def TrapType.ofWord (w : Word) : Option TrapType :=
  match w.toNat with
  | 0 => some execPspTask
  | 1 => some printMsg
  | 2 => some yieldTask
  | 3 => some std
  | 4 => some ste
  | 5 => some reset
  | 6 => some execPriv
  | 7 => some wakeupPid
  | 8 => some setExtIoCallback
  | 9 => some getIoBuffer
  | 10 => some wakeupIoHandler
  | 11 => some disableIrReception
  | 12 => some enableIrReception
  | _ => none

/-- Eight registers. -/
abbrev Registers := Fin 8 → Word

/-- The registers of a task when it issues a supervisor call. -/
structure Issue where
  psp : Int
  high : Registers
  low : Registers

/-- The registers, the memory and the pointers of the scheduler. -/
structure Cpu (τ : Type) where
  mem : Int → Word
  /-- The process stack pointer, in words. -/
  psp : Int
  /-- `r4` to `r11`. -/
  high : Registers
  /-- `r0` to `r3`, `r12`, `lr`, the address of the next instruction and the
      status word. -/
  low : Registers
  pendsv : Bool
  /-- The enable bit of the SysTick timer. -/
  sysTick : Bool
  /-- Interrupts are masked. -/
  primask : Bool
  ioHandler : Word
  /-- `sp` of each task control block, in words. -/
  sp : τ → Int
  currentlyRunning : Option τ
  /-- The task whose registers the next switch saves, which is the task that
      runs. -/
  taskToPreserve : τ
  /-- The task is `FINISHED`. -/
  finished : τ → Bool
  issued : τ → Option Issue

/-- What the handlers run with. -/
structure Platform (τ : Type) where
  /-- Whose stack a word of memory belongs to. -/
  owner : Int → Option τ
  /-- What the code at an address does when it is called by `execPriv`. -/
  privileged : Word → Cpu τ → Cpu τ
  /-- `&rx_state` -/
  rxState : Word
  /-- `SYSTICK` -/
  systick : Bool

/-- The link register in the handler of an exception taken from a task. -/
def EXC_RETURN : Word := 0xFFFFFFFD#32

/-- The word a pointer points to. -/
def wordAt (address : Word) : Int := (address.toNat / 4 : Nat)

namespace Cpu

variable {τ : Type} (c : Cpu τ)

/-- `r6`, which holds the number of the trap. -/
def r6 : Word := c.high 2

/-- The number of a trap is put in `r6`. -/
def setR6 (trap : Word) : Cpu τ := { c with high := Function.update c.high 2 trap }

/-- `r9`, which holds the parameter of the trap. -/
def r9 : Word := c.high 5

/-- The processor enters an exception. -/
def enterException : Cpu τ :=
  { c with mem := Block.store c.mem (c.psp - 8) c.low, psp := c.psp - 8 }

/-- The processor returns from an exception. -/
def leaveException : Cpu τ :=
  { c with low := Block.load 8 c.mem c.psp, psp := c.psp + 8 }

/-- `save_psp_if_threadmode`, the first instructions of `svcall_isr`. -/
def savePspIfThreadmode (lr : Word) : Cpu τ :=
  if lr &&& 4#32 ≠ 0#32 then
    { c with mem := Block.store c.mem (c.psp - 8) c.high, psp := c.psp - 8 }
  else c

/-- `restore_psp` -/
def restorePsp : Cpu τ :=
  { c with high := Block.load 8 c.mem c.psp, psp := c.psp + 8 }

/-- `restore_psp_if_threadmode` -/
def restorePspIfThreadmode (lr : Word) : Cpu τ :=
  if lr &&& 4#32 ≠ 0#32 then c.restorePsp else c

/-- The switch of `svcall_isr`, entered with the return code `lr`. -/
def handleTrap (P : Platform τ) (lr : Word) (trap : TrapType) : Option (Cpu τ) :=
  match trap with
  | .execPspTask =>
    -- init_systick leaves the timer stopped.
    let c := if P.systick then { c with sysTick := false } else c
    match c.currentlyRunning with
    | none => none
    | some t => some { c with high := Block.load 8 c.mem (c.sp t), psp := c.sp t + 8 }
  | .printMsg => some { c with pendsv := true }
  | .yieldTask => some { c with pendsv := true }
  | .std => some (if P.systick then { c with sysTick := false } else c).restorePsp
  | .ste => some (if P.systick then { c with sysTick := true } else c).restorePsp
  | .execPriv => some (P.privileged (c.r9 ||| 1#32) c).restorePsp
  | .setExtIoCallback => some { c with ioHandler := c.r9 }.restorePsp
  | .wakeupPid => some c.restorePsp
  | .getIoBuffer => some { c with mem := Function.update c.mem (wordAt c.r9) P.rxState }
  | .wakeupIoHandler => some (c.restorePspIfThreadmode lr)
  | .disableIrReception => some { c with primask := true }.restorePsp
  | .enableIrReception => some { c with primask := false }.restorePsp
  | .reset => none

/-- `svcall_isr`. Other numbers are `__builtin_unreachable`. -/
def svcallIsr (P : Platform τ) (lr : Word) : Option (Cpu τ) :=
  match TrapType.ofWord c.r6 with
  | none => none
  | some trap => (c.savePspIfThreadmode lr).handleTrap P lr trap

variable [DecidableEq τ]

/-- `pendsv_isr`, with the task that `switch_task` selects. -/
def pendsvIsr (next : τ) : Cpu τ :=
  let sp := Function.update c.sp c.taskToPreserve c.psp
  { c with
    sp := sp
    currentlyRunning := some next
    taskToPreserve := next
    primask := false
    high := Block.load 8 c.mem (sp next)
    sysTick := true
    psp := sp next + 8
    pendsv := false }

/-- The task executes something else than a supervisor call. -/
def proceed : Cpu τ := { c with issued := Function.update c.issued c.taskToPreserve none }

/-- The task issues a supervisor call. -/
def issue : Cpu τ :=
  { c with issued := Function.update c.issued c.taskToPreserve (some ⟨c.psp, c.high, c.low⟩) }

/-- `svc 0`: the handler runs, and the task goes on unless a switch is
    pending. -/
def svc (P : Platform τ) : Option (Cpu τ) :=
  (c.issue.enterException.svcallIsr P EXC_RETURN).map fun c =>
    if c.pendsv then c else c.leaveException

end Cpu

/-- What can happen. -/
inductive TaskEvent (τ : Type) where
  /-- The task computes, and moves its stack pointer. -/
  | compute (high low : Registers) (psp : Int)
  /-- The task stores a word. -/
  | write (a : Int) (w : Word)
  | svc
  /-- `block_current_task`, with the predecessor that becomes current. -/
  | blockCurrentTask (predecessor : Option τ)
  /-- `finish_task` requests a switch from the task itself. -/
  | finishTask
  /-- The switch, with the task that `switch_task` selects. -/
  | pendsv (next : τ)

section Step

variable {τ : Type} [DecidableEq τ] (P : Platform τ)

/-- The effect of an event. Tasks run while no switch is pending, and do not
    write to the stack of another task. -/
def taskStep : TaskEvent τ → Cpu τ → Option (Cpu τ)
  | .compute high low psp, c =>
    if c.pendsv then none
    else some { c.proceed with high := high, low := low, psp := psp }
  | .write a w, c =>
    if c.pendsv ∨ ¬ (P.owner a = none ∨ P.owner a = some c.taskToPreserve) then none
    else some { c.proceed with mem := Function.update c.mem a w }
  | .svc, c => if c.pendsv then none else c.svc P
  | .blockCurrentTask predecessor, c =>
    if c.pendsv then none
    else match c.currentlyRunning with
      | none => none
      | some t =>
        { c with
          taskToPreserve := t
          currentlyRunning := predecessor
          primask := false
          high := Function.update c.high 2 2#32 }.svc P
  | .finishTask, c =>
    if c.pendsv then none
    else some { c.proceed.enterException with
      finished := Function.update c.finished c.taskToPreserve true
      pendsv := true }
  | .pendsv next, c =>
    if c.pendsv ∧ c.finished next = false then some (c.pendsvIsr next).leaveException else none

end Step

end NextLevelRTOS
