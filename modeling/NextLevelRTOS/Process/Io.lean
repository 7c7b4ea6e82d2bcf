import NextLevelRTOS.Lib.Buffer
import NextLevelRTOS.Memory.Entry
import NextLevelRTOS.Process.Reachable

/-!
# External Input

How a command of the host reaches the task that acts on it, and how a task
image gets from the host into a task. Four contexts take part.

* The UART interrupt collects four bytes in `uart_rx_buffer`, stores the first
  in `rx_state` and wakes the task `external_io_runner`.
* `external_io_runner` looks at `rx_state` each time it runs, and at the buffer
  where the command needs it. To prepare a transfer it allocates a buffer, keeps
  address and size in `tInfo`, sets `dma_interrupt_action` and starts the DMA
  stream.
* The DMA interrupt notes in `dma_interrupt_action` how the transfer ended.
* The idle task creates a task from `tInfo` when it finds that note.

The machine is the kernel with these globals next to it. `external_io_runner`
and the part of `idle_runner` that creates the task are taken statement by
statement, since interrupts arrive and tasks are switched between any two of
them. None of their statements faults.
`io_handler` returns, and what it does is not part of the machine. A reboot
ends a run.

`completed`, `acted`, `transferred` and `called` are history: the commands
received, what the runner has acted on, the buffers filled, and the calls of
`create_task`. The runner acts where it reads the buffer, where it schedules
the statistic, and where it finds nothing to do although a command has not been
acted on yet.

## Main definitions

* `IoSystem`: The kernel and the globals of the input path.
* `uartIsrHandler`: The UART interrupt.
* `runnerStep`: The next statement of `external_io_runner`.
* `dmaIrHandler`: The DMA interrupt.
* `ioStep`: The transition function.
* `Statement`, `IoOutcome`: What a statement of the runner, and an event, can do.
* `IoInitialized`: The states runs start from.

## Theorems

* `runnerStep_cases`, `ioStep_cases`: Nothing else happens.
-/

namespace NextLevelRTOS

open Buffer

/-- `PREPARE_TASK_TRANSFER` -/
def PREPARE_TASK_TRANSFER : Word := 1#32

/-- `REQUEST_STATISTIC` -/
def REQUEST_STATISTIC : Word := 3#32

/-- `REBOOT` -/
def REBOOT : Word := 6#32

/-- `RX_READY` -/
def RX_READY : Word := 0#32

/-- `DmaIsIdle` -/
def DmaIsIdle : Nat := 0

/-- `DmaHadTransferError` -/
def DmaHadTransferError : Nat := 2

/-- `DmaWaitsForExternalTask` -/
def DmaWaitsForExternalTask : Nat := 8

/-- `BUFFERSIZE` -/
def BUFFERSIZE : Nat := 4

/-- `TaskInformation_t` -/
structure TaskInformation where
  taskSize : Nat
  startAdress : Addr
  deriving DecidableEq, Repr

/-- Where `external_io_runner` is. -/
inductive RunnerStage where
  /-- Before `rx_state < 10`. -/
  | top
  /-- Before the `switch`. -/
  | switch
  /-- Before `tInfo.task_size = ..`. -/
  | prepare
  /-- Before `tInfo.start_adress = allocate(..)`. -/
  | allocate
  /-- Before `dma_interrupt_action = ..`. -/
  | arm
  /-- Before `dma_transfer`. -/
  | transfer
  /-- Before `schedule_kernel_subtask`. -/
  | statistic
  /-- Before `rx_state = RX_READY`. -/
  | reset
  /-- Before `if (io_handler)`. -/
  | callback
  /-- Before `block_current_task`. -/
  | block
  deriving DecidableEq, Repr

/-- The runner has acted: in which branch, and what was in the buffer. -/
structure Action where
  branch : RunnerStage
  word : Word
  deriving DecidableEq, Repr

/-- Where `idle_runner` is. -/
inductive IdleStage where
  /-- Before `external_io_runner` is created. -/
  | setup
  /-- Anywhere else. -/
  | other
  /-- An image has been found, before `create_task`. -/
  | image
  /-- Before `dma_interrupt_action = DmaIsIdle`. -/
  | created
  deriving DecidableEq, Repr

/-- The kernel and the globals of the input path. -/
structure IoSystem where
  kernel : Kernel
  rxState : Word
  uartRxBuffer : CharBuffer
  bytesReceived : Nat
  hostIsNotified : Bool
  /-- Bit 5 of `cr1`: the UART interrupts when a byte has arrived. -/
  rxneie : Bool
  /-- `kernel_pids.external_io_runner`, a `signed char`. -/
  externalIoRunner : Int
  ioHandler : Addr
  tInfo : TaskInformation
  /-- DMA stream 5 while it is enabled: where to, and how many bytes. -/
  stream : Option TaskInformation
  /-- The control blocks of the two tasks. -/
  runner : Option Addr
  idle : Option Addr
  stage : RunnerStage
  idleStage : IdleStage
  /-- The words sent to the host. -/
  printed : List Nat
  completed : List Word
  acted : List Action
  transferred : List TaskInformation
  called : List TaskInformation

namespace IoSystem

variable (s : IoSystem)

/-- The task that is running. -/
def caller : Addr := s.kernel.dataOf s.kernel.currentlyRunning

/-- `*((unsigned int*) uart_rx_buffer)` -/
def word : Word := wordOf s.uartRxBuffer

/-- What the runner does when it acts here. -/
def action : Action := { branch := s.stage, word := s.word }

/-- A command has been received that has not been acted on. -/
def Outstanding : Prop := s.acted.length < s.completed.length

instance : Decidable s.Outstanding := inferInstanceAs (Decidable (_ < _))

/-- A round that finds nothing to do acts on an outstanding command all the
    same. -/
def actedInPassing : List Action := if s.Outstanding then s.acted ++ [s.action] else s.acted

/-- `dma_interrupt_action = action` -/
def setAction (action : Nat) : IoSystem :=
  { s with kernel := { s.kernel with dmaInterruptAction := action } }

/-- `idle_runner` is running. -/
def RunsIdle : Prop := Thread s.kernel ∧ s.idle = some s.caller ∧ s.runner ≠ some s.caller

/-- Neither `external_io_runner` is running nor `idle_runner` between the
    discovery of an image and the reset of `dma_interrupt_action`. -/
def Elsewhere : Prop :=
  s.runner ≠ some s.caller ∧
    (s.idle = some s.caller → s.idleStage = .setup ∨ s.idleStage = .other)

instance : Decidable s.RunsIdle := inferInstanceAs (Decidable (_ ∧ _ ∧ _))

instance : Decidable s.Elsewhere := inferInstanceAs (Decidable (_ ∧ (_ → _)))

end IoSystem

/-- `wakeup_pid(kernel_pids.external_io_runner)` -/
def wakeupRunner (s : IoSystem) : IoSystem :=
  { s with kernel := (wakeupPid (toUnsigned s.externalIoRunner) s.kernel).2 }

/-- `uart_isr_handler`, with the bits `ORE` and `RXNE` and the data register. A
    reboot does not return. -/
def uartIsrHandler (ore rxne : Bool) (dr : Byte) (s : IoSystem) : Option IoSystem :=
  if ore then
    let s := if s.hostIsNotified then s
      else { s with printed := s.printed ++ [4294967295], hostIsNotified := true }
    let s := if rxne then
        { s with uartRxBuffer := Function.update s.uartRxBuffer s.bytesReceived dr }
      else s
    some { s with bytesReceived := 0 }
  else
    let s := { s with
      hostIsNotified := false
      uartRxBuffer := Function.update s.uartRxBuffer s.bytesReceived dr
      bytesReceived := s.bytesReceived + 1 }
    if s.bytesReceived ≠ BUFFERSIZE then some s
    else
      let s := { s with rxState := s.word &&& 0xFF#32 }
      if s.rxState = REBOOT then none
      else
        let s := { s with completed := s.completed ++ [s.word] }
        some { wakeupRunner s with bytesReceived := 0 }

/-- `is_task_currently_running` -/
def isTaskCurrentlyRunning (pid : Nat) (s : Kernel) : Bool :=
  (findNode s.node (fun q => s.pidOf q = pid) s.runningTasks.size s.currentlyRunning).isSome

/-- `schedule_kernel_subtask`, as far as it concerns the tasks. -/
def scheduleKernelSubtask (s : Kernel) : Kernel :=
  if isTaskCurrentlyRunning (toUnsigned s.idleTask) s then s
  else (wakeupPid (toUnsigned s.idleTask) s).2

/-- The next statement of `external_io_runner`, with the answer of `allocate`. -/
def runnerStep (answer : Addr) (s : IoSystem) : Option IoSystem :=
  if Thread s.kernel ∧ s.runner = some s.caller then
    match s.stage with
    | .top =>
      if s.rxState.toNat < 10 then some { s with stage := .switch }
      else some { s with stage := .callback }
    | .switch =>
      if s.rxState = PREPARE_TASK_TRANSFER then some { s with stage := .prepare }
      else if s.rxState = REQUEST_STATISTIC then some { s with stage := .statistic }
      else some { s with stage := .reset }
    | .prepare =>
      some { s with
        stage := .allocate
        tInfo := { s.tInfo with taskSize := s.word.toNat / 256 }
        acted := s.acted ++ [s.action] }
    | .allocate =>
      if answer = NULL then
        some { s with
          stage := .arm
          tInfo := { s.tInfo with startAdress := answer }
          printed := s.printed ++ [answer] }
      else
        (step (.allocateImage answer) s.kernel).map fun kernel =>
          { s with
            kernel := kernel
            stage := .arm
            tInfo := { s.tInfo with startAdress := answer }
            printed := s.printed ++ [answer] }
    | .arm => some { s.setAction DmaWaitsForExternalTask with stage := .transfer }
    | .transfer =>
      -- `ndtr` has sixteen bits. The UART stops to interrupt.
      some { s with
        stage := .block
        stream := some { s.tInfo with taskSize := s.tInfo.taskSize % 65536 }
        rxneie := false }
    | .statistic =>
      some { s with
        stage := .block
        kernel := scheduleKernelSubtask s.kernel
        acted := s.acted ++ [s.action] }
    | .reset => some { s with stage := .block, rxState := RX_READY, acted := s.actedInPassing }
    | .callback =>
      if s.ioHandler ≠ NULL then some { s with stage := .block, acted := s.acted ++ [s.action] }
      else some { s with stage := .block, acted := s.actedInPassing }
    | .block =>
      (step .blockCurrentTask s.kernel).map fun kernel =>
        { s with kernel := kernel, stage := .top }
  else none

/-- `dma2_stream5_ir_handler`, taken when the stream has moved its bytes or
    failed. Either way it is no longer enabled. -/
def dmaIrHandler (error : Bool) (filled : TaskInformation) (s : IoSystem) : IoSystem :=
  let s := { s with stream := none }
  let s :=
    if error then s.setAction DmaHadTransferError
    else
      let s := { s with transferred := s.transferred ++ [filled] }
      if s.kernel.dmaInterruptAction = DmaWaitsForExternalTask then
        s.setAction ((s.kernel.dmaInterruptAction ^^^ DmaWaitsForExternalTask) |||
          DmaTransferedExternalTask)
      else s
  { s with rxneie := true }

/-- What can happen. -/
inductive IoEvent where
  | kernel (e : Event)
  /-- `kernel_pids.idle_task = create_task(&idle_runner, 0)` -/
  | createIdle (c : Chunks) (slot : Addr)
  /-- `kernel_pids.external_io_runner = create_task(&external_io_runner, 0)` -/
  | createRunner (c : Chunks) (slot : Addr)
  /-- The UART interrupt. -/
  | uart (ore rxne : Bool) (dr : Byte)
  /-- The next statement of `external_io_runner`. -/
  | runner (answer : Addr)
  /-- `idle_runner` looks for an image. -/
  | testImage
  | createImage (c : Chunks) (slot : Addr)
  | resetAction
  /-- The interrupt of DMA stream 5. -/
  | dma (error : Bool)
  /-- The supervisor calls `wakeupIoHandler` and `setExtIoCallback`. -/
  | wakeupIoHandler
  | setExtIoCallback (handler : Addr)

/-- When a kernel event is not one of the others: the allocation of an image, the
    creation of the idle task and the DMA interrupt have events of their own, and
    nobody but the idle task creates a task from an image. A task may be switched
    anywhere. -/
def IoEnabled (s : IoSystem) : Event → Prop
  | .wakeupPid _ => True
  | .yieldTask => True
  | .pendsv _ => True
  | .dmaInterrupt _ => False
  | .allocateImage _ => False
  | .createIdle .. => False
  | .createTask _ _ ramLocation => ramLocation = 0 ∧ s.Elsewhere
  | _ => s.Elsewhere

instance decidableIoEnabled (s : IoSystem) : ∀ e : Event, Decidable (IoEnabled s e)
  | .wakeupPid _ => isTrue trivial
  | .yieldTask => isTrue trivial
  | .pendsv _ => isTrue trivial
  | .dmaInterrupt _ => isFalse id
  | .allocateImage _ => isFalse id
  | .createIdle .. => isFalse id
  | .createTask _ _ ramLocation => inferInstanceAs (Decidable (ramLocation = 0 ∧ s.Elsewhere))
  | .runScheduler => inferInstanceAs (Decidable s.Elsewhere)
  | .blockCurrentTask => inferInstanceAs (Decidable s.Elsewhere)
  | .finishTask _ => inferInstanceAs (Decidable s.Elsewhere)
  | .invalidateCurrentTask => inferInstanceAs (Decidable s.Elsewhere)
  | .searchInvalidateTasks => inferInstanceAs (Decidable s.Elsewhere)
  | .joinTask _ => inferInstanceAs (Decidable s.Elsewhere)

/-- The task that has been created, if it has. -/
def createdTask (c : Chunks) (kernel : Kernel) : Option Addr :=
  if c.tcb ∈ kernel.live then some c.tcb else none

theorem mem_createdTask {c : Chunks} {kernel : Kernel} {t : Addr} (h : t ∈ createdTask c kernel) :
    c.tcb ∈ kernel.live ∧ t = c.tcb := by
  change createdTask c kernel = some t at h
  unfold createdTask at h
  split at h
  · exact ⟨‹_›, (Option.some.inj h).symm⟩
  · exact absurd h (by simp only [reduceCtorEq, not_false_eq_true])

/-- The transition function. -/
def ioStep (e : IoEvent) (s : IoSystem) : Option IoSystem :=
  match e with
  | .kernel e =>
    if IoEnabled s e then (step e s.kernel).map fun kernel => { s with kernel := kernel } else none
  | .createIdle c slot =>
    if s.idle = none then
      (step (.createIdle c slot) s.kernel).map fun kernel =>
        { s with kernel := kernel, idle := createdTask c kernel }
    else none
  | .createRunner c slot =>
    if Enabled (.createTask c slot 0) s.kernel ∧ s.RunsIdle ∧ s.runner = none ∧
        s.idleStage = .setup then
      (createTask c slot 0 s.kernel).map fun (pid, kernel) =>
        { s with
          kernel := kernel
          externalIoRunner := toSignedChar pid
          runner := createdTask c kernel
          idleStage := .other
          ioHandler := NULL }
    else none
  | .uart ore rxne dr => if s.rxneie then uartIsrHandler ore rxne dr s else none
  | .runner answer => runnerStep answer s
  | .testImage =>
    if s.RunsIdle ∧ s.idleStage = .other then
      if s.kernel.dmaInterruptAction &&& DmaTransferedExternalTask = 0 then some s
      else some { s with idleStage := .image }
    else none
  | .createImage c slot =>
    if s.RunsIdle ∧ s.idleStage = .image then
      (step (.createTask c slot s.tInfo.startAdress) s.kernel).map fun kernel =>
        { s with kernel := kernel, idleStage := .created, called := s.called ++ [s.tInfo] }
    else none
  | .resetAction =>
    if s.RunsIdle ∧ s.idleStage = .created then
      some { s.setAction DmaIsIdle with idleStage := .other }
    else none
  | .dma error => s.stream.map fun filled => dmaIrHandler error filled s
  | .wakeupIoHandler => some (wakeupRunner s)
  | .setExtIoCallback handler =>
    if Thread s.kernel ∧ s.Elsewhere then some { s with ioHandler := handler } else none

/-! ### What a step can do -/

/-- What the next statement of `external_io_runner` can be. -/
inductive Statement (answer : Addr) (s : IoSystem) : IoSystem → Prop
  | small : s.stage = .top → s.rxState.toNat < 10 → Statement answer s { s with stage := .switch }
  | large : s.stage = .top → ¬ s.rxState.toNat < 10 →
      Statement answer s { s with stage := .callback }
  | isPrepare : s.stage = .switch → s.rxState = PREPARE_TASK_TRANSFER →
      Statement answer s { s with stage := .prepare }
  | isStatistic : s.stage = .switch → s.rxState = REQUEST_STATISTIC →
      Statement answer s { s with stage := .statistic }
  | isOther : s.stage = .switch → s.rxState ≠ PREPARE_TASK_TRANSFER →
      s.rxState ≠ REQUEST_STATISTIC → Statement answer s { s with stage := .reset }
  | prepare : s.stage = .prepare → Statement answer s
      { s with
        stage := .allocate
        tInfo := { s.tInfo with taskSize := s.word.toNat / 256 }
        acted := s.acted ++ [s.action] }
  -- `allocate` has not served the request, and the code goes on.
  | noBuffer : s.stage = .allocate → answer = NULL → Statement answer s
      { s with
        stage := .arm
        tInfo := { s.tInfo with startAdress := answer }
        printed := s.printed ++ [answer] }
  | buffer (kernel : Kernel) : s.stage = .allocate →
      step (.allocateImage answer) s.kernel = some kernel → Statement answer s
        { s with
          kernel := kernel
          stage := .arm
          tInfo := { s.tInfo with startAdress := answer }
          printed := s.printed ++ [answer] }
  | arm : s.stage = .arm →
      Statement answer s { s.setAction DmaWaitsForExternalTask with stage := .transfer }
  | transfer : s.stage = .transfer → Statement answer s
      { s with
        stage := .block
        stream := some { s.tInfo with taskSize := s.tInfo.taskSize % 65536 }
        rxneie := false }
  | statistic : s.stage = .statistic → Statement answer s
      { s with
        stage := .block
        kernel := scheduleKernelSubtask s.kernel
        acted := s.acted ++ [s.action] }
  | reset : s.stage = .reset →
      Statement answer s { s with stage := .block, rxState := RX_READY, acted := s.actedInPassing }
  | callback : s.stage = .callback → s.ioHandler ≠ NULL →
      Statement answer s { s with stage := .block, acted := s.acted ++ [s.action] }
  | noCallback : s.stage = .callback → s.ioHandler = NULL →
      Statement answer s { s with stage := .block, acted := s.actedInPassing }
  | block (kernel : Kernel) : s.stage = .block → step .blockCurrentTask s.kernel = some kernel →
      Statement answer s { s with kernel := kernel, stage := .top }

/-- The runner only goes on while it is the current task. -/
theorem runnerStep_cases {answer : Addr} {s s' : IoSystem} (h : runnerStep answer s = some s') :
    (Thread s.kernel ∧ s.runner = some s.caller) ∧ Statement answer s s' := by
  unfold runnerStep at h
  by_cases hturn : Thread s.kernel ∧ s.runner = some s.caller
  · refine ⟨hturn, ?_⟩
    rw [if_pos hturn] at h
    cases hstage : s.stage with
    | top =>
        rw [hstage] at h
        dsimp only at h
        split at h
        · exact Option.some.inj h ▸ .small hstage ‹_›
        · exact Option.some.inj h ▸ .large hstage ‹_›
    | switch =>
        rw [hstage] at h
        dsimp only at h
        split at h
        · exact Option.some.inj h ▸ .isPrepare hstage ‹_›
        · split at h
          · exact Option.some.inj h ▸ .isStatistic hstage ‹_›
          · exact Option.some.inj h ▸ .isOther hstage ‹_› ‹_›
    | prepare =>
        rw [hstage] at h
        exact Option.some.inj h ▸ .prepare hstage
    | allocate =>
        rw [hstage] at h
        dsimp only at h
        split at h
        · exact Option.some.inj h ▸ .noBuffer hstage ‹_›
        · rcases Option.map_eq_some_iff.mp h with ⟨kernel, hkernel, rfl⟩
          exact .buffer kernel hstage hkernel
    | arm =>
        rw [hstage] at h
        exact Option.some.inj h ▸ .arm hstage
    | transfer =>
        rw [hstage] at h
        exact Option.some.inj h ▸ .transfer hstage
    | statistic =>
        rw [hstage] at h
        exact Option.some.inj h ▸ .statistic hstage
    | reset =>
        rw [hstage] at h
        exact Option.some.inj h ▸ .reset hstage
    | callback =>
        rw [hstage] at h
        dsimp only at h
        split at h
        · exact Option.some.inj h ▸ .callback hstage ‹_›
        · exact Option.some.inj h ▸ .noCallback hstage (not_not.mp ‹_›)
    | block =>
        rw [hstage] at h
        rcases Option.map_eq_some_iff.mp h with ⟨kernel, hkernel, rfl⟩
        exact .block kernel hstage hkernel
  · rw [if_neg hturn] at h
    exact absurd h (by simp only [reduceCtorEq, not_false_eq_true])

/-- What an event can do. -/
inductive IoOutcome (s : IoSystem) : IoEvent → IoSystem → Prop
  | kernel (e : Event) (kernel : Kernel) : IoEnabled s e → step e s.kernel = some kernel →
      IoOutcome s (.kernel e) { s with kernel := kernel }
  | createIdle (c : Chunks) (slot : Addr) (kernel : Kernel) : s.idle = none →
      step (.createIdle c slot) s.kernel = some kernel →
      IoOutcome s (.createIdle c slot) { s with kernel := kernel, idle := createdTask c kernel }
  | createRunner (c : Chunks) (slot : Addr) (pid : Int) (kernel : Kernel) :
      Enabled (.createTask c slot 0) s.kernel → s.RunsIdle → s.runner = none →
      s.idleStage = .setup → createTask c slot 0 s.kernel = some (pid, kernel) →
      IoOutcome s (.createRunner c slot)
        { s with
          kernel := kernel
          externalIoRunner := toSignedChar pid
          runner := createdTask c kernel
          idleStage := .other
          ioHandler := NULL }
  | uart (ore rxne : Bool) (dr : Byte) (s' : IoSystem) : s.rxneie = true →
      uartIsrHandler ore rxne dr s = some s' → IoOutcome s (.uart ore rxne dr) s'
  | runner (answer : Addr) (s' : IoSystem) : runnerStep answer s = some s' →
      IoOutcome s (.runner answer) s'
  | noImage : s.RunsIdle → s.idleStage = .other →
      s.kernel.dmaInterruptAction &&& DmaTransferedExternalTask = 0 → IoOutcome s .testImage s
  | image : s.RunsIdle → s.idleStage = .other →
      s.kernel.dmaInterruptAction &&& DmaTransferedExternalTask ≠ 0 →
      IoOutcome s .testImage { s with idleStage := .image }
  | createImage (c : Chunks) (slot : Addr) (kernel : Kernel) : s.RunsIdle → s.idleStage = .image →
      step (.createTask c slot s.tInfo.startAdress) s.kernel = some kernel →
      IoOutcome s (.createImage c slot)
        { s with kernel := kernel, idleStage := .created, called := s.called ++ [s.tInfo] }
  | resetAction : s.RunsIdle → s.idleStage = .created →
      IoOutcome s .resetAction { s.setAction DmaIsIdle with idleStage := .other }
  | dma (error : Bool) (filled : TaskInformation) : s.stream = some filled →
      IoOutcome s (.dma error) (dmaIrHandler error filled s)
  | wakeupIoHandler : IoOutcome s .wakeupIoHandler (wakeupRunner s)
  | setExtIoCallback (handler : Addr) : Thread s.kernel → s.Elsewhere →
      IoOutcome s (.setExtIoCallback handler) { s with ioHandler := handler }

theorem ioStep_cases {e : IoEvent} {s s' : IoSystem} (h : ioStep e s = some s') :
    IoOutcome s e s' := by
  have hnone : ¬ (none : Option IoSystem) = some s' := by
    simp only [reduceCtorEq, not_false_eq_true]
  unfold ioStep at h
  cases e with
  | kernel e =>
      dsimp only at h
      split at h
      · rcases Option.map_eq_some_iff.mp h with ⟨kernel, hkernel, rfl⟩
        exact .kernel e kernel ‹_› hkernel
      · exact absurd h hnone
  | createIdle c slot =>
      dsimp only at h
      split at h
      · rcases Option.map_eq_some_iff.mp h with ⟨kernel, hkernel, rfl⟩
        exact .createIdle c slot kernel ‹_› hkernel
      · exact absurd h hnone
  | createRunner c slot =>
      dsimp only at h
      split at h
      · rename_i hg
        rcases hg with ⟨hen, hidle, hrunner, hstage⟩
        rcases Option.map_eq_some_iff.mp h with ⟨⟨pid, kernel⟩, hrun, rfl⟩
        exact .createRunner c slot pid kernel hen hidle hrunner hstage hrun
      · exact absurd h hnone
  | uart ore rxne dr =>
      dsimp only at h
      split at h
      · exact .uart ore rxne dr s' ‹_› h
      · exact absurd h hnone
  | runner answer => exact .runner answer s' h
  | testImage =>
      dsimp only at h
      split at h
      · rename_i hg
        split at h
        · exact Option.some.inj h ▸ .noImage hg.1 hg.2 ‹_›
        · exact Option.some.inj h ▸ .image hg.1 hg.2 ‹_›
      · exact absurd h hnone
  | createImage c slot =>
      dsimp only at h
      split at h
      · rename_i hg
        rcases Option.map_eq_some_iff.mp h with ⟨kernel, hkernel, rfl⟩
        exact .createImage c slot kernel hg.1 hg.2 hkernel
      · exact absurd h hnone
  | resetAction =>
      dsimp only at h
      split at h
      · rename_i hg
        exact Option.some.inj h ▸ .resetAction hg.1 hg.2
      · exact absurd h hnone
  | dma error =>
      rcases Option.map_eq_some_iff.mp h with ⟨filled, hfilled, rfl⟩
      exact .dma error filled hfilled
  | wakeupIoHandler => exact Option.some.inj h ▸ .wakeupIoHandler
  | setExtIoCallback handler =>
      dsimp only at h
      split at h
      · rename_i hg
        exact Option.some.inj h ▸ .setExtIoCallback handler hg.1 hg.2
      · exact absurd h hnone

/-! ### Where runs start -/

/-- What runs start from: no task yet, nothing received. -/
def IoInitialized (s : IoSystem) : Prop :=
  Initialized s.kernel ∧ s.runner = none ∧ s.idle = none ∧ s.stage = .top ∧
    s.idleStage = .setup ∧ s.stream = none ∧ s.completed = [] ∧ s.acted = [] ∧
    s.transferred = [] ∧ s.called = []

/-- Memory full of zeros, with the UART interrupt enabled. -/
def freshIo : IoSystem :=
  { kernel := freshKernel
    rxState := RX_READY
    uartRxBuffer := fun _ => 0
    bytesReceived := 0
    hostIsNotified := false
    rxneie := true
    externalIoRunner := 0
    ioHandler := NULL
    tInfo := { taskSize := 0, startAdress := NULL }
    stream := none
    runner := none
    idle := none
    stage := .top
    idleStage := .setup
    printed := []
    completed := []
    acted := []
    transferred := []
    called := [] }

theorem freshIo_initialized : IoInitialized freshIo :=
  ⟨freshKernel_initialized, rfl, rfl, rfl, rfl, rfl, rfl, rfl, rfl, rfl⟩

/-- The idle task blocks, and the runner executes `n` statements, the last of
    which blocks it. A buffer is allocated at `image`. -/
def runnerTurn (n : Nat) (image : Addr) : List IoEvent :=
  [.kernel .blockCurrentTask, .kernel (.pendsv 8)] ++ List.replicate n (.runner image) ++
    [.kernel (.pendsv 8)]

/-- Start-up and the creation of the runner. -/
def ioStartUp : List IoEvent :=
  [.createIdle (chunksFrom 10) 3, .kernel .runScheduler, .createRunner (chunksFrom 20) 3]

/-- Four bytes arrive. -/
def receive (w : Word) : List IoEvent :=
  (List.range BUFFERSIZE).map fun i => .uart false true (byteOf w i)

end NextLevelRTOS
