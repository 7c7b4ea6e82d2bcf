import NextLevelRTOS.Process.Io
import NextLevelRTOS.Process.Schedulable

/-!
# Task Images

A task image travels through two globals. `external_io_runner` writes address
and size of the buffer to `tInfo`, the DMA interrupt sets a bit of
`dma_interrupt_action` when the buffer is full, and the idle task calls
`create_task` with what `tInfo` says then. The bit is all that says that an
image is there: the next `PREPARE_TASK_TRANSFER` overwrites `tInfo` and clears
the bit, whether or not the idle task has seen it, and aims the stream at
another buffer, whether or not it was still filling the first. Sizes of 65536
bytes and more are cut to sixteen bits for the stream and not for `tInfo`.

`Channel` is what an image passes through, apart from the rest of the system,
and `TransferInv` the invariant of the channel. The other half is that the idle
task is found when an image is there, for which `switch_task` wakes it by its
process identifier; this needs identifiers to be distinct, and an idle task that
goes on.

## Main definitions

* `Channel`: What an image passes through.
* `ImagesCreated`: Every image is passed to `create_task` once.
* `Spared`: The condition on a step.
* `TransferInv`: The invariant of the channel.
* `IdleInv`: The invariant of the idle task.

## Theorems

* `switchTask_wakes`: With an image there, no switch leaves the idle task
  waiting.
* `ioStep_transfer`, `ioStep_idle`: Every spared step keeps the invariants.
* `images_created`: Every image is created in runs whose steps are spared.
* `images_lost`: Images that are not.
-/

namespace NextLevelRTOS

open Machine Buffer

/-- What an image passes through on its way from the host to `create_task`. -/
structure Channel where
  action : Nat
  tInfo : TaskInformation
  stream : Option TaskInformation
  stage : RunnerStage
  idleStage : IdleStage
  transferred : List TaskInformation
  called : List TaskInformation
  runner : Option Addr
  idle : Option Addr

/-- The channel of a system. -/
def IoSystem.channel (s : IoSystem) : Channel :=
  { action := s.kernel.dmaInterruptAction
    tInfo := s.tInfo
    stream := s.stream
    stage := s.stage
    idleStage := s.idleStage
    transferred := s.transferred
    called := s.called
    runner := s.runner
    idle := s.idle }

/-- `dma_interrupt_action & DmaTransferedExternalTask` -/
def Channel.Full (c : Channel) : Prop := c.action &&& DmaTransferedExternalTask ≠ 0

instance (c : Channel) : Decidable c.Full := inferInstanceAs (Decidable (_ ≠ _))

/-- The image that has been received and not yet passed on. -/
def Channel.pending (c : Channel) : List TaskInformation :=
  if c.Full ∧ c.idleStage ≠ .created then [c.tInfo] else []

/-- Whatever switch comes next leaves the idle task ready. -/
def IdleAwaits (s : IoSystem) : Prop :=
  ∃ t ∈ s.idle, ∀ psp, t ∈ (pendsvIsr psp s.kernel).tasksIn (pendsvIsr psp s.kernel).runningTasks ∧
    ((pendsvIsr psp s.kernel).tcb t).state = .READY

/-- The images received are the images passed to `create_task`, each once and
    with the buffer it was received in, except perhaps for one that is pending.
    For this one the idle task is made ready, if it is not, by the next switch. -/
def ImagesCreated (s : IoSystem) : Prop :=
  s.transferred = s.called ++ s.channel.pending ∧ (s.channel.pending ≠ [] → IdleAwaits s)

/-- The task that is running ends. -/
def Event.ends : Event → Bool
  | .finishTask _ => true
  | .invalidateCurrentTask => true
  | _ => false

/-- The condition on a step: a transfer is prepared only when no other is under
    way and no image is pending, and of less than 65536 bytes; the idle task is
    one of the first 128 tasks and does not end; and the number of live tasks is
    nobody's identifier when a task is created. -/
def Spared (s : IoSystem) : IoEvent → Prop
  | .runner _ => s.stage = .prepare →
      s.stream = none ∧ ¬ s.channel.Full ∧ s.word.toNat / 256 < 65536
  | .kernel e => FreshPid s.kernel e ∧ (e.ends = true → s.idle ≠ some s.caller)
  | .createIdle c slot =>
      FreshPid s.kernel (.createIdle c slot) ∧ s.kernel.live.length % 256 < 128
  | .createRunner c slot => FreshPid s.kernel (.createTask c slot 0)
  | .createImage c slot => FreshPid s.kernel (.createTask c slot s.tInfo.startAdress)
  | _ => True

instance decidableSpared (s : IoSystem) : ∀ e : IoEvent, Decidable (Spared s e)
  | .runner _ => inferInstanceAs (Decidable (_ → _ ∧ _ ∧ _))
  | .kernel _ => inferInstanceAs (Decidable (_ ∧ (_ → _)))
  | .createIdle .. => inferInstanceAs (Decidable (_ ∧ _))
  | .createRunner c slot => inferInstanceAs (Decidable (FreshPid s.kernel (.createTask c slot 0)))
  | .createImage c slot =>
      inferInstanceAs (Decidable (FreshPid s.kernel (.createTask c slot s.tInfo.startAdress)))
  | .uart .. => isTrue trivial
  | .testImage => isTrue trivial
  | .resetAction => isTrue trivial
  | .dma _ => isTrue trivial
  | .wakeupIoHandler => isTrue trivial
  | .setExtIoCallback _ => isTrue trivial

/-! ### The channel -/

/-- The runner has begun to write `tInfo` and not yet started the stream. -/
def RunnerStage.preparing : RunnerStage → Bool
  | .allocate => true
  | .arm => true
  | .transfer => true
  | _ => false

/-- The invariant of the channel. An image, a transfer and a preparation exclude
    one another. -/
structure TransferInv (c : Channel) : Prop where
  creator : c.idle = none → c.runner = none
  started : c.runner = none → c.stream = none ∧ ¬ c.Full
  balance : c.transferred = c.called ++ c.pending
  found : c.idleStage = .image ∨ c.idleStage = .created → c.Full
  full : c.Full → c.stream = none ∧ c.stage.preparing = false
  armed : ∀ f ∈ c.stream,
    c.action = DmaWaitsForExternalTask ∧ f = c.tInfo ∧ c.stage.preparing = false
  sized : c.stage.preparing = true → c.tInfo.taskSize < 65536
  ready : c.stage = .transfer → c.action = DmaWaitsForExternalTask

section Channel

variable {c : Channel}

theorem pending_nil (h : ¬ c.Full) : c.pending = [] := if_neg fun hc => h hc.1

theorem pending_full (h : c.Full) (hstage : c.idleStage ≠ .created) : c.pending = [c.tInfo] :=
  if_pos ⟨h, hstage⟩

theorem not_full_waits (h : c.action = DmaWaitsForExternalTask) : ¬ c.Full := by
  rw [Channel.Full, h]
  decide

theorem transferInv_preparing (h : TransferInv c) (hstage : c.stage.preparing = true) :
    c.stream = none ∧ ¬ c.Full := by
  refine ⟨?_, fun hc => ?_⟩
  · by_contra hne
    rcases Option.ne_none_iff_exists'.mp hne with ⟨f, hf⟩
    exact Bool.noConfusion (hstage.symm.trans (h.armed f hf).2.2)
  · exact Bool.noConfusion (hstage.symm.trans (h.full hc).2)

/-- The runner moves on outside of a preparation. -/
theorem transferInv_moved (h : TransferInv c) {stage : RunnerStage}
    (hstage : stage.preparing = false) : TransferInv { c with stage := stage } := by
  refine ⟨h.creator, h.started, h.balance, h.found, fun hc => ⟨(h.full hc).1, hstage⟩,
    fun f hf => ⟨(h.armed f hf).1, (h.armed f hf).2.1, hstage⟩, fun hc => ?_, fun hc => ?_⟩
  · exact Bool.noConfusion (hstage.symm.trans hc)
  · have hstage' : stage = .transfer := hc
    rw [hstage'] at hstage
    exact Bool.noConfusion hstage

/-- The runner writes `tInfo` and the action while nothing is under way. -/
theorem transferInv_written (h : TransferInv c) (hnone : c.stream = none ∧ ¬ c.Full)
    {stage : RunnerStage} {tInfo : TaskInformation} {action : Nat}
    (hempty : action &&& DmaTransferedExternalTask = 0) (hsize : tInfo.taskSize < 65536)
    (hready : stage = .transfer → action = DmaWaitsForExternalTask) :
    TransferInv { c with stage := stage, tInfo := tInfo, action := action } := by
  have hnot : ¬ Channel.Full { c with stage := stage, tInfo := tInfo, action := action } :=
    fun hc => hc hempty
  have hbalance := h.balance
  rw [pending_nil hnone.2] at hbalance
  refine ⟨h.creator, fun _ => ⟨hnone.1, hnot⟩, ?_, fun hc => absurd (h.found hc) hnone.2,
    fun hc => absurd hc hnot, fun f hf => ?_, fun _ => hsize, hready⟩
  · rw [pending_nil hnot]
    exact hbalance
  · exact absurd (hnone.1.symm.trans hf) (Option.some_ne_none f).symm

/-- The stream is started with the size in `tInfo`, which sixteen bits hold. -/
theorem transferInv_started (h : TransferInv c) (hstage : c.stage = .transfer)
    (hrunner : c.runner ≠ none) : TransferInv { c with
      stage := .block
      stream := some { c.tInfo with taskSize := c.tInfo.taskSize % 65536 } } := by
  have hprep : c.stage.preparing = true := by rw [hstage]; rfl
  have hnone := transferInv_preparing h hprep
  refine ⟨h.creator, fun hc => absurd hc hrunner, h.balance, h.found,
    fun hc => absurd hc hnone.2, fun f hf => ⟨h.ready hstage, ?_, rfl⟩,
    fun hc => Bool.noConfusion hc, fun hc => RunnerStage.noConfusion hc⟩
  rw [← Option.some.inj hf, Nat.mod_eq_of_lt (h.sized hprep)]

/-- The idle task finds an image. -/
theorem transferInv_found (h : TransferInv c) (hfull : c.Full) (hstage : c.idleStage = .other) :
    TransferInv { c with idleStage := .image } := by
  refine ⟨h.creator, h.started, ?_, fun _ => hfull, h.full, h.armed, h.sized, h.ready⟩
  have hbalance := h.balance
  rw [pending_full hfull (by rw [hstage]; exact fun hc => IdleStage.noConfusion hc)] at hbalance
  rw [pending_full (c := { c with idleStage := .image }) hfull fun hc => IdleStage.noConfusion hc]
  exact hbalance

/-- `create_task` is called. -/
theorem transferInv_called (h : TransferInv c) (hstage : c.idleStage = .image) :
    TransferInv { c with idleStage := .created, called := c.called ++ [c.tInfo] } := by
  have hfull := h.found (Or.inl hstage)
  refine ⟨h.creator, h.started, ?_, fun _ => hfull, h.full, h.armed, h.sized, h.ready⟩
  have hbalance := h.balance
  rw [pending_full hfull (by rw [hstage]; exact fun hc => IdleStage.noConfusion hc)] at hbalance
  have hnil : Channel.pending { c with
      idleStage := .created, called := c.called ++ [c.tInfo] } = [] := if_neg fun hc => hc.2 rfl
  rw [hnil, List.append_nil]
  exact hbalance

/-- The action is reset after the call. -/
theorem transferInv_reset (h : TransferInv c) (hstage : c.idleStage = .created) :
    TransferInv { c with idleStage := .other, action := DmaIsIdle } := by
  have hfull := h.found (Or.inr hstage)
  rcases h.full hfull with ⟨hstream, hprep⟩
  have hzero : DmaIsIdle &&& DmaTransferedExternalTask = 0 := by decide
  have hnot : ¬ Channel.Full { c with idleStage := .other, action := DmaIsIdle } :=
    fun hc => hc hzero
  have hbalance := h.balance
  -- The image was called for, so nothing is pending once the action is reset.
  have hnil : c.pending = [] := if_neg fun hc => hc.2 hstage
  rw [hnil] at hbalance
  refine ⟨h.creator, fun hc => ⟨hstream, hnot⟩, ?_, fun hc => ?_, fun hc => absurd hc hnot,
    fun f hf => ?_, h.sized, fun hc => ?_⟩
  · rw [pending_nil hnot]
    exact hbalance
  · rcases hc with hc | hc
    · exact IdleStage.noConfusion hc
    · exact IdleStage.noConfusion hc
  · exact absurd (hstream.symm.trans hf) (Option.some_ne_none f).symm
  · have hstage' : c.stage = .transfer := hc
    rw [hstage'] at hprep
    exact Bool.noConfusion hprep

/-- The stream fails. -/
theorem transferInv_failed (h : TransferInv c) {f : TaskInformation} (hf : c.stream = some f) :
    TransferInv { c with stream := none, action := DmaHadTransferError } := by
  rcases h.armed f hf with ⟨haction, _, hprep⟩
  have hempty := not_full_waits haction
  have hzero : DmaHadTransferError &&& DmaTransferedExternalTask = 0 := by decide
  have hnot : ¬ Channel.Full { c with stream := none, action := DmaHadTransferError } :=
    fun hc => hc hzero
  have hbalance := h.balance
  rw [pending_nil hempty] at hbalance
  refine ⟨h.creator, fun _ => ⟨rfl, hnot⟩, ?_, fun hc => absurd (h.found hc) hempty,
    fun hc => absurd hc hnot, fun g hg => absurd hg (Option.not_mem_none g), h.sized, fun hc => ?_⟩
  · rw [pending_nil hnot]
    exact hbalance
  · have hstage' : c.stage = .transfer := hc
    rw [hstage'] at hprep
    exact Bool.noConfusion hprep

/-- The stream has filled the buffer. -/
theorem transferInv_filled (h : TransferInv c) {f : TaskInformation} (hf : c.stream = some f) :
    TransferInv { c with
      stream := none
      transferred := c.transferred ++ [f]
      action := (c.action ^^^ DmaWaitsForExternalTask) ||| DmaTransferedExternalTask } := by
  rcases h.armed f hf with ⟨haction, htInfo, hprep⟩
  -- While the stream runs nothing is full, so all transfers were called for.
  have hempty := not_full_waits haction
  have hbalance := h.balance
  rw [pending_nil hempty, List.append_nil] at hbalance
  have hnow : Channel.Full { c with
      stream := none
      transferred := c.transferred ++ [f]
      action := (c.action ^^^ DmaWaitsForExternalTask) ||| DmaTransferedExternalTask } := by
    have hset :
        (DmaWaitsForExternalTask ^^^ DmaWaitsForExternalTask ||| DmaTransferedExternalTask) &&&
          DmaTransferedExternalTask ≠ 0 := by decide
    rw [Channel.Full, haction]
    exact hset
  refine ⟨h.creator, fun hc => ?_, ?_, fun _ => hnow, fun _ => ⟨rfl, hprep⟩,
    fun g hg => absurd hg (Option.not_mem_none g), h.sized, fun hc => ?_⟩
  · exact absurd (hf.symm.trans (h.started hc).1) (Option.some_ne_none f)
  · rw [pending_full hnow fun hc => hempty (h.found (Or.inr hc))]
    change c.transferred ++ [f] = c.called ++ [c.tInfo]
    rw [hbalance, htInfo]
  · have hstage' : c.stage = .transfer := hc
    rw [hstage'] at hprep
    exact Bool.noConfusion hprep

end Channel

theorem channel_kernel (s : IoSystem) {k : Kernel}
    (hdma : k.dmaInterruptAction = s.kernel.dmaInterruptAction) :
    IoSystem.channel { s with kernel := k } = s.channel := by
  simp only [IoSystem.channel, hdma]

theorem channel_wakeupRunner (s : IoSystem) : (wakeupRunner s).channel = s.channel :=
  channel_kernel s (wakeupPid_raises _ s.kernel).dma

/-- Of what is behind the UART the handler at most wakes the runner. -/
theorem uartIsrHandler_kernel {s s' : IoSystem} {ore rxne : Bool} {dr : Byte}
    (h : uartIsrHandler ore rxne dr s = some s') :
    (s'.channel = s.channel ∧ s'.kernel = s.kernel) ∨
      (s'.channel = (wakeupRunner s).channel ∧ s'.kernel = (wakeupRunner s).kernel) := by
  unfold uartIsrHandler at h
  cases ore with
  | true =>
      rw [if_pos rfl, Option.some.injEq] at h
      subst h
      left
      -- Neither the report to the host nor the byte in the buffer is part of it.
      cases rxne with
      | true =>
          cases s.hostIsNotified with
          | true => exact ⟨rfl, rfl⟩
          | false => exact ⟨rfl, rfl⟩
      | false =>
          cases s.hostIsNotified with
          | true => exact ⟨rfl, rfl⟩
          | false => exact ⟨rfl, rfl⟩
  | false =>
      rw [if_neg Bool.false_ne_true] at h
      dsimp only at h
      split at h
      · rw [← Option.some.inj h]
        exact Or.inl ⟨rfl, rfl⟩
      · split at h
        · exact absurd h (by simp only [reduceCtorEq, not_false_eq_true])
        · rw [← Option.some.inj h]
          exact Or.inr ⟨rfl, rfl⟩

theorem channel_uart {s s' : IoSystem} {ore rxne : Bool} {dr : Byte}
    (h : uartIsrHandler ore rxne dr s = some s') : s'.channel = s.channel := by
  rcases uartIsrHandler_kernel h with ⟨hchannel, _⟩ | ⟨hchannel, _⟩
  · exact hchannel
  · exact hchannel.trans (channel_wakeupRunner s)

theorem scheduleKernelSubtask_dma (s : Kernel) :
    (scheduleKernelSubtask s).dmaInterruptAction = s.dmaInterruptAction := by
  unfold scheduleKernelSubtask
  split
  · rfl
  · exact (wakeupPid_raises _ s).dma

/-- Every statement of the runner keeps the invariant of the channel. -/
theorem runnerStep_transfer {s s' : IoSystem} {v : View} {answer : Addr} (hinv : Inv s.kernel v)
    (h : TransferInv s.channel) (hC : s.stage = .prepare →
      s.stream = none ∧ ¬ s.channel.Full ∧ s.word.toNat / 256 < 65536)
    (hstep : runnerStep answer s = some s') : TransferInv s'.channel := by
  rcases runnerStep_cases hstep with ⟨hturn, hstatement⟩
  -- The address is written while nothing is on its way.
  have hwritten : s.stage = .allocate → TransferInv { s.channel with
      stage := .arm
      tInfo := { s.tInfo with startAdress := answer }
      action := s.kernel.dmaInterruptAction } := by
    intro hstage
    have hprep : s.stage.preparing = true := by rw [hstage]; rfl
    have hnone := transferInv_preparing h hprep
    exact transferInv_written h hnone (Decidable.not_not.mp hnone.2) (h.sized hprep)
      fun hc => RunnerStage.noConfusion hc
  cases hstatement with
  -- Outside of a preparation only the place in the loop matters.
  | small | large | isPrepare | isStatistic | isOther | reset | callback | noCallback =>
      exact transferInv_moved h rfl
  | statistic =>
      have hmoved := transferInv_moved h (show RunnerStage.block.preparing = false from rfl)
      simp only [IoSystem.channel, scheduleKernelSubtask_dma]
      exact hmoved
  | block kernel _ hkernel =>
      have hmoved := transferInv_moved h (show RunnerStage.top.preparing = false from rfl)
      have hdma := step_dma hinv hkernel fun _ hc => Event.noConfusion hc
      simp only [IoSystem.channel, hdma]
      exact hmoved
  | prepare hstage =>
      rcases hC hstage with ⟨hnone, hempty, hsize⟩
      exact transferInv_written h ⟨hnone, hempty⟩ (Decidable.not_not.mp hempty) hsize
        fun hc => RunnerStage.noConfusion hc
  | noBuffer hstage _ => exact hwritten hstage
  | buffer kernel hstage hkernel =>
      have hallocated := hwritten hstage
      rw [← step_dma hinv hkernel fun _ hc => Event.noConfusion hc] at hallocated
      exact hallocated
  | arm hstage =>
      have hprep : s.stage.preparing = true := by rw [hstage]; rfl
      have hzero : DmaWaitsForExternalTask &&& DmaTransferedExternalTask = 0 := by decide
      exact transferInv_written h (transferInv_preparing h hprep) hzero (h.sized hprep)
        fun _ => rfl
  | transfer hstage =>
      refine transferInv_started h hstage ?_
      change s.runner ≠ none
      rw [hturn.2]
      exact Option.some_ne_none _

theorem dmaIrHandler_transfer {s : IoSystem} {filled : TaskInformation} (h : TransferInv s.channel)
    (hfilled : s.stream = some filled) (error : Bool) :
    TransferInv (dmaIrHandler error filled s).channel := by
  unfold dmaIrHandler
  cases error with
  | true => exact transferInv_failed h hfilled
  | false =>
      have haction : s.kernel.dmaInterruptAction = DmaWaitsForExternalTask :=
        (h.armed filled hfilled).1
      dsimp only
      rw [if_neg Bool.false_ne_true, if_pos haction]
      exact transferInv_filled h hfilled

/-- The creation of the runner. -/
theorem transferInv_runner {s : IoSystem} {k : Kernel} {externalIoRunner : Int}
    {runner : Option Addr} {t : Addr} (h : TransferInv s.channel) (hidle : s.idle = some t)
    (hnone : s.runner = none)
    (hdma : k.dmaInterruptAction = s.kernel.dmaInterruptAction) :
    TransferInv (IoSystem.channel { s with
      kernel := k
      externalIoRunner := externalIoRunner
      runner := runner
      idleStage := .other
      ioHandler := NULL }) := by
  have heq : IoSystem.channel { s with
        kernel := k
        externalIoRunner := externalIoRunner
        runner := runner
        idleStage := .other
        ioHandler := NULL } = { s.channel with runner := runner, idleStage := .other } := by
    simp only [IoSystem.channel, hdma]
  rw [heq]
  -- Before the runner exists no transfer was started, so both sides count nothing.
  rcases h.started hnone with ⟨hstream, hempty⟩
  refine ⟨fun hc => ?_, fun _ => ⟨hstream, hempty⟩, ?_, fun hc => ?_, h.full, h.armed, h.sized,
    h.ready⟩
  · exact absurd (hidle.symm.trans hc) (Option.some_ne_none t)
  · have hbalance := h.balance
    rw [pending_nil hempty] at hbalance
    rw [pending_nil (c := { s.channel with runner := runner, idleStage := .other }) hempty]
    exact hbalance
  · rcases hc with hc | hc
    · exact IdleStage.noConfusion hc
    · exact IdleStage.noConfusion hc

/-- Every spared step keeps the invariant of the channel. -/
theorem ioStep_transfer {s s' : IoSystem} {v : View} {e : IoEvent} (hinv : Inv s.kernel v)
    (h : TransferInv s.channel) (hC : Spared s e) (hstep : ioStep e s = some s') :
    TransferInv s'.channel := by
  cases ioStep_cases hstep with
  | kernel e kernel hen hkernel =>
      -- No event of the kernel touches the channel.
      rw [channel_kernel s (step_dma hinv hkernel fun action hc => by rw [hc] at hen; exact hen)]
      exact h
  | createIdle c slot kernel hidle hkernel =>
      -- There is an idle task now, but it has not looked yet.
      have hdma := step_dma hinv hkernel fun _ hc => Event.noConfusion hc
      have hnone := h.creator hidle
      have heq : IoSystem.channel { s with kernel := kernel, idle := createdTask c kernel } =
          { s.channel with idle := createdTask c kernel } := by
        simp only [IoSystem.channel, hdma]
      rw [heq]
      exact ⟨fun _ => hnone, h.started, h.balance, h.found, h.full, h.armed, h.sized, h.ready⟩
  | createRunner c slot pid kernel _ hidle hnone _ hrun =>
      exact transferInv_runner h hidle.2.1 hnone (createTask_globals hrun).2.1
  | uart ore rxne dr s' _ hisr =>
      rw [channel_uart hisr]
      exact h
  | runner answer s' hrunner => exact runnerStep_transfer hinv h hC hrunner
  | noImage => exact h
  | image _ hstage hfull => exact transferInv_found h hfull hstage
  | createImage c slot kernel _ hstage hkernel =>
      have hdma := step_dma hinv hkernel fun _ hc => Event.noConfusion hc
      have heq : IoSystem.channel { s with
            kernel := kernel, idleStage := .created, called := s.called ++ [s.tInfo] } =
          { s.channel with
            idleStage := .created, called := s.channel.called ++ [s.channel.tInfo] } := by
        simp only [IoSystem.channel, hdma]
      rw [heq]
      exact transferInv_called h hstage
  | resetAction _ hstage => exact transferInv_reset h hstage
  | dma error filled hfilled => exact dmaIrHandler_transfer h hfilled error
  | wakeupIoHandler =>
      rw [channel_wakeupRunner]
      exact h
  | setExtIoCallback => exact h

/-! ### The idle task -/

/-- The workaround does not touch the waiting queue. -/
theorem forcePid0_waiters (s : Kernel) :
    (forcePid0IntoRunning s).tasksIn (forcePid0IntoRunning s).waitingTasks =
      s.tasksIn s.waitingTasks := by
  unfold forcePid0IntoRunning
  cases findNode s.node (fun q => s.pidOf q = 0) s.runningTasks.size s.runningTasks.head with
  | none => rfl
  | some q => rfl

/-- Waking makes nobody wait. -/
theorem wakeupPid_fewer {s : Kernel} {v : View} (h : Consistent s v) (pid : Nat) {t : Addr}
    (ht : t ∈ (wakeupPid pid s).2.tasksIn (wakeupPid pid s).2.waitingTasks) :
    t ∈ s.tasksIn s.waitingTasks := by
  rcases wakeupPid_moved h pid with ⟨v', hw⟩
  rw [tasksIn_waiting hw.moved.consistent, List.mem_map] at ht
  rcases ht with ⟨n, hn, rfl⟩
  have hdata : (wakeupPid pid s).2.dataOf n = s.dataOf n := congrFun hw.moved.frame.data n
  rw [tasksIn_waiting h, hdata]
  exact List.mem_map_of_mem (hw.waiting hn)

/-- With an image there, no switch leaves the idle task waiting. -/
theorem switchTask_wakes {s : Kernel} {v : View} (h : Consistent s v) (hdist : DistinctPids s)
    (hfull : s.dmaInterruptAction &&& DmaTransferedExternalTask ≠ 0) {t : Addr}
    (ht : t ∈ (switchTask s).tasksIn (switchTask s).waitingTasks) :
    (s.tcb t).pid ≠ toUnsigned s.idleTask := by
  -- Once the idle task has been woken nobody with its identifier waits.
  have hwoken := (wakeupPid_waiters h (toUnsigned s.idleTask)).2 hdist t
  by_cases hnull : s.currentlyRunning = NULL
  · rw [switchTask_null hnull] at ht
    dsimp only at ht
    refine hwoken ?_
    split at ht
    · have hsame := forcePid0_waiters { (wakeupPid (toUnsigned s.idleTask) s).2 with
        currentlyRunning := (wakeupPid (toUnsigned s.idleTask) s).1 }
      rw [← show _ = (wakeupPid (toUnsigned s.idleTask) s).2.tasksIn _ from hsame]
      exact ht
    · exact ht
  -- Serving the DMA is that wakeup; what comes after it wakes others at most.
  · have hdma : serveDma s = (wakeupPid (toUnsigned s.idleTask) s).2 := if_neg hfull
    rcases wakeupPid_moved h (toUnsigned s.idleTask) with ⟨v', hw⟩
    refine hwoken ?_
    rw [← hdma]
    cases hq : nextReady (serveDma s) (serveDma s).runningTasks.size
        (serveDma s).currentlyRunning with
    | some q =>
        rw [switchTask_found hnull hq] at ht
        exact ht
    | none =>
        have hcons : Consistent (serveDma s) v' := by
          rw [hdma]
          exact hw.moved.consistent
        refine wakeupPid_fewer hcons (toUnsigned (serveDma s).idleTask) ?_
        rw [switchTask_idle hnull hq] at ht
        dsimp only at ht
        split at ht
        · rw [forcePid0_waiters] at ht
          exact ht
        · exact ht

theorem pendsvIsr_wakes {s : Kernel} {v : View} (hinv : Inv s v) (hdist : DistinctPids s)
    (hfull : s.dmaInterruptAction &&& DmaTransferedExternalTask ≠ 0) {psp t : Addr}
    (ht : t ∈ (pendsvIsr psp s).tasksIn (pendsvIsr psp s).waitingTasks) :
    (s.tcb t).pid ≠ toUnsigned s.idleTask := by
  have hclear : Moved s { s with pendsv := false } v v :=
    moved_control (moved_refl hinv.consistent) ..
  have hsave := (moved_setTcb (t := s.dataOf s.taskToPreserve) hclear.consistent
    (show SameTask (s.tcb (s.dataOf s.taskToPreserve))
      { s.tcb (s.dataOf s.taskToPreserve) with sp := psp } from
      ⟨rfl, rfl, rfl, rfl, rfl, rfl⟩) rfl).1
  have hpid := fun u => (hsave.frame.tcb u).pid
  have hdist' : DistinctPids ({ s with pendsv := false : Kernel }.setTcb
      (s.dataOf s.taskToPreserve) { s.tcb (s.dataOf s.taskToPreserve) with sp := psp }) :=
    distinctPids_of_sublist hdist (fun _ hu => hu) fun u _ => hpid u
  have hne := switchTask_wakes hsave.consistent hdist' hfull ht
  rw [hpid t] at hne
  exact hne

/-- The invariant of the idle task: it goes on, and `kernel_pids` names it. -/
structure IdleInv (k : Kernel) (idle : Option Addr) : Prop where
  kernel : ∃ v, Inv k v ∧ DistinctPids k
  named : ∀ t ∈ idle, Schedulable k t ∧ (k.tcb t).pid = toUnsigned k.idleTask

/-- A kernel event with which the idle task does not end. -/
theorem idleInv_kernel {k k' : Kernel} {idle : Option Addr} {e : Event} (h : IdleInv k idle)
    (hfresh : FreshPid k e) (hends : e.ends = true → idle ≠ some (k.dataOf k.currentlyRunning))
    (hidle : ∀ c slot, e ≠ .createIdle c slot) (hstep : step e k = some k') : IdleInv k' idle := by
  rcases h.kernel with ⟨v, hinv, hdist⟩
  refine ⟨step_distinctPids hinv hdist hfresh hstep, fun t ht => ?_⟩
  rcases h.named t ht with ⟨hsched, hpid⟩
  have hsched' : Schedulable k' t := by
    refine step_schedulable hinv hstep hsched fun hself => ⟨fun stale hc => ?_, fun hc => ?_⟩
    · rw [hself] at ht
      exact hends (by rw [hc]; rfl) ht
    · rw [hself] at ht
      exact hends (by rw [hc]; rfl) ht
  refine ⟨hsched', ?_⟩
  rw [step_idleTask hinv hstep hidle, ← hpid]
  rcases (step_tasks hinv hstep).2.live t hsched'.1 with ⟨_, hsame⟩ | ⟨_, _, hnew, _⟩
  · exact hsame
  · exact absurd hsched.1 hnew

/-- An identifier below 128 survives the conversion to `signed char`. -/
theorem toUnsigned_toSignedChar {pid : Nat} (h : pid < 128) :
    toUnsigned (toSignedChar pid) = pid := by
  have hchar : toSignedChar pid = pid := by
    unfold toSignedChar
    rw [Int.bmod_def]
    split
    · omega
    · omega
  rw [hchar, toUnsigned]
  omega

theorem idleInv_created {k k' : Kernel} {c : Chunks} {slot : Addr} (h : IdleInv k none)
    (hfresh : FreshPid k (.createIdle c slot)) (hsmall : k.live.length % 256 < 128)
    (hstep : step (.createIdle c slot) k = some k') : IdleInv k' (createdTask c k') := by
  rcases h.kernel with ⟨v, hinv, hdist⟩
  refine ⟨step_distinctPids hinv hdist hfresh hstep, fun t ht => ?_⟩
  rcases mem_createdTask ht with ⟨hlive, rfl⟩
  rcases step_enabled hstep with ⟨hen, heff⟩
  rcases createIdle_some heff with ⟨result, s₁, hrun, rfl⟩
  rcases created_schedulable hinv hen.2 (Or.inl rfl) hrun hlive with ⟨hsched, hpid, hresult⟩
  refine ⟨hsched, ?_⟩
  change (s₁.tcb c.tcb).pid = toUnsigned (toSignedChar result)
  rw [hpid, hresult, toUnsigned_toSignedChar hsmall]

/-- Events that neither create nor end a task ask nothing. -/
theorem idleInv_event {k k' : Kernel} {idle : Option Addr} {e : Event} (h : IdleInv k idle)
    (hcreates : e.creates = none) (hends : e.ends = false) (hstep : step e k = some k') :
    IdleInv k' idle := by
  refine idleInv_kernel h (fun hc => ?_) (fun hc => ?_) (fun c slot hc => ?_) hstep
  · rw [hcreates] at hc
    exact Bool.noConfusion hc
  · exact Bool.noConfusion (hends.symm.trans hc)
  · rw [hc] at hcreates
    exact absurd hcreates (Option.some_ne_none _)

theorem idleInv_setAction {k : Kernel} {idle : Option Addr} (h : IdleInv k idle) (action : Nat) :
    IdleInv { k with dmaInterruptAction := action } idle :=
  idleInv_event (e := .dmaInterrupt action) h rfl rfl rfl

theorem idleInv_wakeupPid {k : Kernel} {idle : Option Addr} (h : IdleInv k idle) (pid : Nat) :
    IdleInv (wakeupPid pid k).2 idle :=
  idleInv_event (e := .wakeupPid pid) h rfl rfl rfl

theorem uartIsrHandler_idle {s s' : IoSystem} {ore rxne : Bool} {dr : Byte}
    (h : IdleInv s.kernel s.idle) (hstep : uartIsrHandler ore rxne dr s = some s') :
    IdleInv s'.kernel s'.idle := by
  have hidle : s'.idle = s.idle := congrArg Channel.idle (channel_uart hstep)
  rw [hidle]
  rcases uartIsrHandler_kernel hstep with ⟨_, hkernel⟩ | ⟨_, hkernel⟩
  · rw [hkernel]
    exact h
  · rw [hkernel]
    exact idleInv_wakeupPid h _

theorem runnerStep_idle {s s' : IoSystem} {answer : Addr} (h : IdleInv s.kernel s.idle)
    (hstep : runnerStep answer s = some s') : IdleInv s'.kernel s'.idle := by
  -- Only four of the statements touch the kernel.
  cases (runnerStep_cases hstep).2 with
  | buffer kernel _ hkernel => exact idleInv_event h rfl rfl hkernel
  | block kernel _ hkernel => exact idleInv_event h rfl rfl hkernel
  | arm => exact idleInv_setAction h _
  | statistic =>
      unfold scheduleKernelSubtask
      split
      · exact h
      · exact idleInv_wakeupPid h _
  | small | large | isPrepare | isStatistic | isOther | prepare | noBuffer | transfer | reset
  | callback | noCallback => exact h

theorem dmaIrHandler_idle {s : IoSystem} (h : IdleInv s.kernel s.idle) (error : Bool)
    (filled : TaskInformation) :
    IdleInv (dmaIrHandler error filled s).kernel (dmaIrHandler error filled s).idle := by
  unfold dmaIrHandler
  cases error with
  | true => exact idleInv_setAction h _
  | false =>
      dsimp only
      rw [if_neg Bool.false_ne_true]
      split
      · exact idleInv_setAction h _
      · exact h

/-- Every spared step keeps the invariant of the idle task. -/
theorem ioStep_idle {s s' : IoSystem} {e : IoEvent} (h : IdleInv s.kernel s.idle)
    (hC : Spared s e) (hstep : ioStep e s = some s') : IdleInv s'.kernel s'.idle := by
  cases ioStep_cases hstep with
  | kernel e kernel hen hkernel =>
      exact idleInv_kernel h hC.1 hC.2 (fun c slot hc => by rw [hc] at hen; exact hen) hkernel
  | createIdle c slot kernel hidle hkernel =>
      rw [hidle] at h
      exact idleInv_created h hC.1 hC.2 hkernel
  | createRunner c slot pid kernel hen _ _ _ hrun =>
      -- The creation is one of the kernel's own events.
      have hkernel : step (.createTask c slot 0) s.kernel = some kernel := by
        rw [step, if_pos hen, effect.eq_def]
        dsimp only
        rw [hrun]
        rfl
      exact idleInv_kernel h hC (fun hc => Bool.noConfusion hc)
        (fun _ _ hc => Event.noConfusion hc) hkernel
  | uart ore rxne dr s' _ hisr => exact uartIsrHandler_idle h hisr
  | runner answer s' hrunner => exact runnerStep_idle h hrunner
  | createImage c slot kernel _ _ hkernel =>
      exact idleInv_kernel h hC (fun hc => Bool.noConfusion hc)
        (fun _ _ hc => Event.noConfusion hc) hkernel
  | resetAction => exact idleInv_setAction h _
  | dma error filled _ => exact dmaIrHandler_idle h error filled
  | wakeupIoHandler => exact idleInv_wakeupPid h _
  | noImage | image | setExtIoCallback => exact h

/-! ### Runs -/

theorem ioInitialized_transfer {s : IoSystem} (h : IoInitialized s) : TransferInv s.channel := by
  rcases h with ⟨hinit, hrunner, _, htop, hsetup, hstream, _, _, htransferred, hcalled⟩
  have hdma : s.kernel.dmaInterruptAction = 0 := (initialized_globals hinit).2
  have hempty : ¬ s.channel.Full := by
    rw [Channel.Full, show s.channel.action = 0 from hdma]
    decide
  have hstage : s.channel.stage = .top := htop
  refine ⟨fun _ => hrunner, fun _ => ⟨hstream, hempty⟩, ?_, fun hc => ?_,
    fun hc => absurd hc hempty, fun f hf => ?_, fun hc => ?_, fun hc => ?_⟩
  · rw [pending_nil hempty, show s.channel.transferred = [] from htransferred,
      show s.channel.called = [] from hcalled]
    rfl
  · rcases hc with hc | hc
    · exact IdleStage.noConfusion (hsetup.symm.trans hc)
    · exact IdleStage.noConfusion (hsetup.symm.trans hc)
  · exact absurd (hstream.symm.trans hf) (Option.some_ne_none f).symm
  · rw [hstage] at hc
    exact Bool.noConfusion hc
  · rw [hstage] at hc
    exact RunnerStage.noConfusion hc

theorem ioInitialized_idle {s : IoSystem} (h : IoInitialized s) : IdleInv s.kernel s.idle := by
  rcases h with ⟨hinit, _, hidle, _⟩
  rcases initScheduler_inv hinit with ⟨hinv, hlive, _⟩
  refine ⟨⟨_, hinv, fun t ht => ?_⟩, fun t ht => ?_⟩
  · rw [hlive] at ht
    exact absurd ht List.not_mem_nil
  · rw [hidle] at ht
    exact absurd ht (Option.not_mem_none t)

theorem inv_imagesCreated {s : IoSystem} (htransfer : TransferInv s.channel)
    (hidle : IdleInv s.kernel s.idle) : ImagesCreated s := by
  refine ⟨htransfer.balance, fun hne => ?_⟩
  have hfull : s.channel.Full := by
    by_contra hempty
    exact hne (pending_nil hempty)
  have hsome : s.idle ≠ none := fun hc => (htransfer.started (htransfer.creator hc)).2 hfull
  rcases Option.ne_none_iff_exists'.mp hsome with ⟨t, ht⟩
  rcases hidle.kernel with ⟨v, hinv, hdist⟩
  rcases hidle.named t ht with ⟨hsched, hpid⟩
  refine ⟨t, ht, fun psp => ?_⟩
  rcases pendsvIsr_moved hinv psp with ⟨v', hmoved, _⟩
  have hsched' := schedulable_raises hsched (pendsvIsr_raises psp s.kernel)
  have hawake : t ∉ (pendsvIsr psp s.kernel).tasksIn (pendsvIsr psp s.kernel).waitingTasks :=
    fun hc => pendsvIsr_wakes hinv hdist hfull hc hpid
  refine ⟨?_, hsched'.2.resolve_right fun hc => ?_⟩
  · have hmem := (tasksIn_perm hmoved.consistent).mem_iff.mpr hsched'.1
    exact (List.mem_append.mp hmem).resolve_right hawake
  · exact hawake ((waiting_iff hmoved.consistent hsched'.1).mpr hc)

/-- Every image is passed to `create_task` once, with the buffer it was received
    in, in every run whose steps are spared. -/
theorem images_created (s₀ s : IoSystem) (es : List IoEvent) (hinit : IoInitialized s₀)
    (hspared : Meets ioStep Spared es s₀) (hrun : run ioStep es s₀ = some s) :
    ImagesCreated s := by
  have hend : TransferInv s.channel ∧ IdleInv s.kernel s.idle := by
    refine run_invariant ioStep (fun s => TransferInv s.channel ∧ IdleInv s.kernel s.idle) ?_ es
      s₀ s ⟨ioInitialized_transfer hinit, ioInitialized_idle hinit⟩ hspared hrun
    rintro s e s' ⟨htransfer, hidle⟩ hC hstep
    rcases hidle.kernel with ⟨v, hinv, _⟩
    exact ⟨ioStep_transfer hinv htransfer hC hstep, ioStep_idle hidle hC hstep⟩
  exact inv_imagesCreated hend.1 hend.2

/-- A transfer of 256 bytes, whose image becomes a task. -/
def oneImage : List IoEvent :=
  ioStartUp ++ receive 0x00010001#32 ++ runnerTurn 7 40 ++
    [.dma false, .testImage, .createImage (chunksFrom 30) 3, .resetAction]

theorem images_created_oneImage : Ends ioStep oneImage freshIo fun s =>
    s.called = [{ taskSize := 256, startAdress := 40 }] ∧ s.called = s.transferred ∧
      ImagesCreated s := by
  have hends : Ends ioStep oneImage freshIo fun s =>
      s.called = [{ taskSize := 256, startAdress := 40 }] ∧
        s.transferred = [{ taskSize := 256, startAdress := 40 }] := by decide +kernel
  rcases hends with ⟨s, hs, hcalled, htransferred⟩
  exact ⟨s, hs, hcalled, hcalled.trans htransferred.symm, images_created freshIo s _
    freshIo_initialized (by decide +kernel) hs⟩

/-- A third task runs when an image arrives and when the next command does. It
    yields, the runner comes before the idle task, and the image is lost. -/
def commandOverImage : List IoEvent :=
  ioStartUp ++ [.kernel (.createTask (chunksFrom 30) 3 0)] ++ receive 0x00010001#32 ++
    runnerTurn 7 40 ++ [.dma false] ++ receive 0x00020001#32 ++
    [.kernel .yieldTask, .kernel (.pendsv 8)] ++ List.replicate 5 (.runner 50)

/-- A transfer of 65537 bytes is started with one byte. -/
def largeImage : List IoEvent :=
  ioStartUp ++ receive 0x01000101#32 ++ runnerTurn 7 40 ++
    [.dma false, .testImage, .createImage (chunksFrom 30) 3, .resetAction]

theorem images_lost : IoInitialized freshIo ∧
    (Ends ioStep commandOverImage freshIo fun s =>
      s.transferred = [{ taskSize := 256, startAdress := 40 }] ∧ s.called = [] ∧
      ¬ ImagesCreated s) ∧
    (Ends ioStep largeImage freshIo fun s =>
      s.transferred = [{ taskSize := 1, startAdress := 40 }] ∧
      s.called = [{ taskSize := 65537, startAdress := 40 }] ∧ ¬ ImagesCreated s) := by
  have hoverwritten : Ends ioStep commandOverImage freshIo fun s =>
      s.transferred = [{ taskSize := 256, startAdress := 40 }] ∧ s.called = [] ∧
        ¬ s.channel.Full := by decide +kernel
  have hcut : Ends ioStep largeImage freshIo fun s =>
      s.transferred = [{ taskSize := 1, startAdress := 40 }] ∧
        s.called = [{ taskSize := 65537, startAdress := 40 }] ∧ ¬ s.channel.Full := by
    decide +kernel
  refine ⟨freshIo_initialized, ?_, ?_⟩
  · rcases hoverwritten with ⟨s, hs, htransferred, hcalled, hempty⟩
    refine ⟨s, hs, htransferred, hcalled, fun hc => ?_⟩
    have hbalance := hc.1
    rw [htransferred, hcalled, pending_nil hempty] at hbalance
    exact absurd hbalance (by decide)
  · rcases hcut with ⟨s, hs, htransferred, hcalled, hempty⟩
    refine ⟨s, hs, htransferred, hcalled, fun hc => ?_⟩
    have hbalance := hc.1
    rw [htransferred, hcalled, pending_nil hempty] at hbalance
    exact absurd hbalance (by decide)

end NextLevelRTOS
