import NextLevelRTOS.Process.Io
import NextLevelRTOS.Process.Schedulable

/-!
# Commands

Between the UART interrupt and `external_io_runner` there is one word,
`rx_state`, and one buffer of four bytes, and no handshake. A command is lost
when the next one completes before the runner has looked, when bytes of the next
one reach the buffer before the runner has read it, and when the wakeup finds
the runner on its way to `block_current_task`. A command is acted on again when
the runner is woken for nothing: some branches leave `rx_state` as it was.

Where none of this happens the commands acted on are the commands received, in
order, except for the last one as long as the runner is awake and has it still
before it. What the invariant needs of the kernel is that the runner is never
dead and that only its own block makes it wait.

## Main definitions

* `request`: What acting on a command looks like.
* `CommandsServed`: Every command is acted on once, as it was received.
* `Attended`: The condition on a step.
* `IoInv`: The invariant.

## Theorems

* `ioInv_kernel`: A kernel event keeps the invariant.
* `ioStep_inv`: Every attended step keeps the invariant.
* `commands_served`: Every command is served in runs whose steps are attended.
* `commands_lost`: Commands that are not.
-/

namespace NextLevelRTOS

open Machine Buffer

/-! ### What is relied on -/

/-- The branch in which `external_io_runner` acts on a state. -/
def branchOf (state : Word) : RunnerStage :=
  if state.toNat < 10 then
    if state = PREPARE_TASK_TRANSFER then .prepare
    else if state = REQUEST_STATISTIC then .statistic
    else .reset
  else .callback

/-- What acting on a command looks like. -/
def request (w : Word) : Action := { branch := branchOf (w &&& 0xFF#32), word := w }

/-- The runner has still to look at the state, or has looked at it and is on the
    way to the branch for it. -/
def Looking (stage : RunnerStage) (state : Word) : Prop :=
  match stage with
  | .top => True
  | .switch => state.toNat < 10
  | .prepare => branchOf state = .prepare
  | .statistic => branchOf state = .statistic
  | .reset => branchOf state = .reset
  | .callback => branchOf state = .callback
  | _ => False

instance decidableLooking : ∀ (stage : RunnerStage) (state : Word), Decidable (Looking stage state)
  | .top, _ => isTrue trivial
  | .switch, state => inferInstanceAs (Decidable (state.toNat < 10))
  | .prepare, state => inferInstanceAs (Decidable (branchOf state = .prepare))
  | .statistic, state => inferInstanceAs (Decidable (branchOf state = .statistic))
  | .reset, state => inferInstanceAs (Decidable (branchOf state = .reset))
  | .callback, state => inferInstanceAs (Decidable (branchOf state = .callback))
  | .allocate, _ => isFalse id
  | .arm, _ => isFalse id
  | .transfer, _ => isFalse id
  | .block, _ => isFalse id

/-- The last of the commands received is intact, and the runner is ready and will
    come upon it. -/
def Awaited (s : IoSystem) (w : Word) : Prop :=
  s.rxState = w &&& 0xFF#32 ∧ s.word = w ∧ Looking s.stage s.rxState ∧
    ∃ t ∈ s.runner, t ∈ s.kernel.tasksIn s.kernel.runningTasks ∧ (s.kernel.tcb t).state = .READY

instance (s : IoSystem) (w : Word) : Decidable (Awaited s w) :=
  inferInstanceAs (Decidable (_ ∧ _ ∧ _ ∧ ∃ t ∈ s.runner, _))

/-- Every command received has been acted on once, in order and as it was
    received, except perhaps for the last, which is awaited. -/
def CommandsServed (s : IoSystem) : Prop :=
  s.acted = s.completed.map request ∨
    ∃ w ∈ s.completed.getLast?, s.acted = s.completed.dropLast.map request ∧ Awaited s w

instance (s : IoSystem) : Decidable (CommandsServed s) :=
  inferInstanceAs (Decidable (_ ∨ ∃ w ∈ s.completed.getLast?, _))

/-- The waiting task that `wakeup_pid(kernel_pids.external_io_runner)` finds. -/
def firstNamed (s : IoSystem) : Option Addr :=
  (s.kernel.tasksIn s.kernel.waitingTasks).find? fun t =>
    (s.kernel.tcb t).pid = toUnsigned s.externalIoRunner

/-- The runner exists and is found, or is awake and has not looked at the state
    yet. -/
def Reached (s : IoSystem) : Prop :=
  ∃ t ∈ s.runner, firstNamed s = some t ∨
    (t ∉ s.kernel.tasksIn s.kernel.waitingTasks ∧ s.stage = .top)

instance (s : IoSystem) : Decidable (Reached s) :=
  inferInstanceAs (Decidable (∃ t ∈ s.runner, _))

/-- The state asks for nothing that a round does not clear, or for a handler that
    is not there. -/
def AsksNothing (s : IoSystem) : Prop :=
  branchOf s.rxState = .reset ∨ (branchOf s.rxState = .callback ∧ s.ioHandler = NULL)

instance (s : IoSystem) : Decidable (AsksNothing s) := inferInstanceAs (Decidable (_ ∨ _))

/-- The condition on a step: no byte reaches the buffer while a command has not
    been acted on; when the fourth byte arrives the runner is reached; the runner
    begins a round for a command, or while the state asks for nothing; and no
    handler is entered while the runner is about to look for one. -/
def Attended (s : IoSystem) : IoEvent → Prop
  | .uart ore rxne _ => (ore = false ∨ rxne = true → ¬ s.Outstanding) ∧
      (ore = false → s.bytesReceived + 1 = BUFFERSIZE → Reached s)
  | .runner _ => s.stage = .top → s.Outstanding ∨ AsksNothing s
  | .setExtIoCallback _ => s.stage ≠ .callback
  | _ => True

instance decidableAttended (s : IoSystem) : ∀ e : IoEvent, Decidable (Attended s e)
  | .uart ore rxne _ => inferInstanceAs (Decidable
      ((ore = false ∨ rxne = true → ¬ s.Outstanding) ∧
        (ore = false → s.bytesReceived + 1 = BUFFERSIZE → Reached s)))
  | .runner _ => inferInstanceAs (Decidable (_ → _))
  | .kernel _ => isTrue trivial
  | .createIdle .. => isTrue trivial
  | .createRunner .. => isTrue trivial
  | .testImage => isTrue trivial
  | .createImage .. => isTrue trivial
  | .resetAction => isTrue trivial
  | .dma _ => isTrue trivial
  | .wakeupIoHandler => isTrue trivial
  | .setExtIoCallback _ => inferInstanceAs (Decidable (s.stage ≠ .callback))

/-! ### The invariant -/

/-- The runner is in the waiting queue. -/
def RunnerWaits (s : IoSystem) : Prop :=
  ∃ t ∈ s.runner, t ∈ s.kernel.tasksIn s.kernel.waitingTasks

/-- Where the runner may be when every command has been acted on. -/
def Quiet (s : IoSystem) : Prop :=
  match s.stage with
  | .switch => branchOf s.rxState = .reset
  | .prepare => False
  | .statistic => False
  | .callback => s.ioHandler = NULL
  | _ => True

/-- All commands have been acted on, or all but the last. -/
inductive History (s : IoSystem) : Prop where
  | served (hacted : s.acted = s.completed.map request) (hquiet : Quiet s)
  | due (served : List Word) (w : Word) (hcompleted : s.completed = served ++ [w])
      (hacted : s.acted = served.map request) (hstate : s.rxState = w &&& 0xFF#32)
      (hword : s.word = w) (hlooking : Looking s.stage s.rxState)
      (hrunner : s.runner.isSome = true) (hawake : ¬ RunnerWaits s)

/-- The invariant of the input path, as far as it concerns commands. -/
structure IoInv (s : IoSystem) : Prop where
  kernel : ∃ v, Inv s.kernel v
  alive : ∀ t ∈ s.runner, Schedulable s.kernel t
  awake : s.stage ≠ .top → s.runner.isSome = true ∧ ¬ RunnerWaits s
  history : History s

theorem not_outstanding {s : IoSystem} (h : s.acted = s.completed.map request) :
    ¬ s.Outstanding := by
  rw [IoSystem.Outstanding, h, List.length_map]
  exact Nat.lt_irrefl _

theorem outstanding_due {s : IoSystem} {served : List Word} {w : Word}
    (hcompleted : s.completed = served ++ [w]) (hacted : s.acted = served.map request) :
    s.Outstanding := by
  rw [IoSystem.Outstanding, hcompleted, hacted, List.length_map, List.length_append]
  exact Nat.lt_succ_self _

/-- The task that is running blocks or ends. -/
def Event.stops : Event → Bool
  | .blockCurrentTask => true
  | .finishTask _ => true
  | .invalidateCurrentTask => true
  | _ => false

/-- Only its own block makes the runner wait. -/
theorem runnerWaits_kernel {s : IoSystem} {e : Event} {k : Kernel} (h : IoInv s)
    (hother : e.stops = true → s.runner ≠ some s.caller) (hstep : step e s.kernel = some k)
    (hwaits : RunnerWaits { s with kernel := k }) : RunnerWaits s := by
  rcases h.kernel with ⟨v, hinv⟩
  rcases hwaits with ⟨t, ht, hwait⟩
  rcases (step_tasks hinv hstep).2.waiters t hwait with hold | ⟨rfl, rfl⟩ | ⟨_, _, hnew, _⟩
  · exact ⟨t, ht, hold⟩
  · exact absurd ht (hother rfl)
  · exact absurd (h.alive t ht).1 hnew

/-- A kernel event with which the runner neither blocks nor ends keeps the
    invariant. -/
theorem ioInv_kernel {s : IoSystem} {e : Event} {k : Kernel} (h : IoInv s)
    (hother : e.stops = true → s.runner ≠ some s.caller) (hstep : step e s.kernel = some k) :
    IoInv { s with kernel := k } := by
  rcases h.kernel with ⟨v, hinv⟩
  have hwaits : ¬ RunnerWaits s → ¬ RunnerWaits { s with kernel := k } :=
    fun hawake hc => hawake (runnerWaits_kernel h hother hstep hc)
  refine ⟨(step_tasks hinv hstep).1, fun t ht => ?_, fun hstage => ?_, ?_⟩
  · refine step_schedulable hinv hstep (h.alive t ht) fun hself => ?_
    rw [hself] at ht
    refine ⟨fun stale hc => ?_, fun hc => ?_⟩
    · exact hother (by rw [hc]; rfl) ht
    · exact hother (by rw [hc]; rfl) ht
  · exact ⟨(h.awake hstage).1, hwaits (h.awake hstage).2⟩
  · cases h.history with
    | served hacted hquiet => exact .served hacted hquiet
    | due served w hcompleted hacted hstate hword hlooking hrunner hawake =>
        exact .due served w hcompleted hacted hstate hword hlooking hrunner (hwaits hawake)

/-- What the history depends on. -/
structure SameHistory (s s' : IoSystem) : Prop where
  kernel : s'.kernel = s.kernel
  runner : s'.runner = s.runner
  stage : s'.stage = s.stage
  rxState : s'.rxState = s.rxState
  ioHandler : s'.ioHandler = s.ioHandler
  completed : s'.completed = s.completed
  acted : s'.acted = s.acted

/-- Bytes may reach the buffer while no command is outstanding. -/
theorem history_same {s s' : IoSystem} (h : History s) (hsame : SameHistory s s')
    (hword : s'.word = s.word ∨ ¬ s.Outstanding) : History s' := by
  cases h with
  | served hacted hquiet =>
      refine .served ?_ ?_
      · rw [hsame.acted, hsame.completed]
        exact hacted
      · rw [Quiet, hsame.stage, hsame.rxState, hsame.ioHandler]
        exact hquiet
  | due served w hcompleted hacted hstate hkept hlooking hrunner hawake =>
      have hout := outstanding_due hcompleted hacted
      refine .due served w (hsame.completed.trans hcompleted) (hsame.acted.trans hacted)
        (hsame.rxState.trans hstate) ?_ ?_ ?_ ?_
      -- Bytes have not changed here, as a command is outstanding.
      · exact (hword.resolve_right fun hnot => hnot hout).trans hkept
      · rw [hsame.stage, hsame.rxState]
        exact hlooking
      · rw [hsame.runner]
        exact hrunner
      · rw [RunnerWaits, hsame.runner, hsame.kernel]
        exact hawake

/-- What no part of the invariant reads may change. -/
theorem ioInv_same {s s' : IoSystem} (h : IoInv s) (hsame : SameHistory s s')
    (hword : s'.word = s.word ∨ ¬ s.Outstanding) : IoInv s' := by
  refine ⟨?_, fun t ht => ?_, fun hstage => ?_, history_same h.history hsame hword⟩
  · rw [hsame.kernel]
    exact h.kernel
  · rw [hsame.kernel]
    rw [hsame.runner] at ht
    exact h.alive t ht
  · rw [RunnerWaits, hsame.runner, hsame.kernel]
    rw [hsame.stage] at hstage
    exact h.awake hstage

/-- The invariant does not read `dma_interrupt_action`. -/
theorem ioInv_setAction {s : IoSystem} (h : IoInv s) (action : Nat) : IoInv (s.setAction action) :=
  ioInv_kernel (e := .dmaInterrupt action) h (fun hc => Bool.noConfusion hc) rfl

theorem ioInv_wakeupRunner {s : IoSystem} (h : IoInv s) : IoInv (wakeupRunner s) :=
  ioInv_kernel (e := .wakeupPid _) h (fun hc => Bool.noConfusion hc) rfl

/-! ### The runner -/

/-- A statement of the runner that leaves the kernel alone. -/
theorem ioInv_statement {s s' : IoSystem} (h : IoInv s)
    (hturn : Thread s.kernel ∧ s.runner = some s.caller) (hkernel : s'.kernel = s.kernel)
    (hrunner : s'.runner = s.runner) (hhistory : History s') : IoInv s' := by
  refine ⟨?_, fun t ht => ?_, fun _ => ?_, hhistory⟩
  · rw [hkernel]
    exact h.kernel
  · rw [hkernel]
    rw [hrunner] at ht
    exact h.alive t ht
  · -- The task that is running does not wait.
    rcases h.kernel with ⟨v, hinv⟩
    rw [RunnerWaits, hrunner, hkernel, hturn.2]
    refine ⟨rfl, ?_⟩
    rintro ⟨t, ht, hwait⟩
    rw [← Option.some.inj ht] at hwait
    exact (caller_not_waiting hinv hturn.1).2 hwait

/-- Acting on the command that is due. -/
theorem due_acted {s : IoSystem} {served : List Word} {w : Word}
    (hcompleted : s.completed = served ++ [w]) (hacted : s.acted = served.map request)
    (hstate : s.rxState = w &&& 0xFF#32) (hword : s.word = w)
    (hbranch : branchOf s.rxState = s.stage) :
    s.acted ++ [s.action] = s.completed.map request := by
  have haction : s.action = request w := by
    rw [IoSystem.action, request, ← hstate, hbranch, hword]
  rw [haction, hcompleted, hacted, List.map_append]
  rfl

/-- Acting where the state is known to be that of an outstanding command. -/
theorem history_acted {s s' : IoSystem} (h : History s) (hquiet : ¬ Quiet s)
    (hlooking : Looking s.stage s.rxState → branchOf s.rxState = s.stage)
    (hacted' : s'.acted = s.acted ++ [s.action]) (hcompleted' : s'.completed = s.completed)
    (hblock : Quiet s') : History s' := by
  cases h with
  | served _ hq => exact absurd hq hquiet
  | due served w hcompleted hacted hstate hword hlooks _ _ =>
      refine .served ?_ hblock
      rw [hacted', hcompleted']
      exact due_acted hcompleted hacted hstate hword (hlooking hlooks)

/-- Finding nothing to do, with or without an outstanding command. -/
theorem history_actedInPassing {s s' : IoSystem} (h : History s)
    (hlooking : Looking s.stage s.rxState → branchOf s.rxState = s.stage)
    (hacted' : s'.acted = s.actedInPassing) (hcompleted' : s'.completed = s.completed)
    (hblock : Quiet s') : History s' := by
  refine .served ?_ hblock
  rw [hacted', hcompleted', IoSystem.actedInPassing]
  cases h with
  | served hacted _ =>
      rw [if_neg (not_outstanding hacted)]
      exact hacted
  | due served w hcompleted hacted hstate hword hlooks _ _ =>
      rw [if_pos (outstanding_due hcompleted hacted)]
      exact due_acted hcompleted hacted hstate hword (hlooking hlooks)

/-- A statement that only moves on, and reads the state the way `branchOf`
    does. -/
theorem history_moved {s s' : IoSystem} (h : History s)
    (hsame : SameHistory s { s' with stage := s.stage }) (hword : s'.word = s.word)
    (hquiet : Quiet s → ¬ s.Outstanding → Quiet s')
    (hlooking : Looking s.stage s.rxState → Looking s'.stage s'.rxState) : History s' := by
  cases h with
  | served hacted hq =>
      refine .served ?_ (hquiet hq (not_outstanding hacted))
      exact hsame.acted.trans (hacted.trans (congrArg (List.map request) hsame.completed.symm))
  | due served w hcompleted hacted hstate hkept hlooks hrunner hawake =>
      refine .due served w (hsame.completed.trans hcompleted) (hsame.acted.trans hacted)
        (hsame.rxState.trans hstate) (hword.trans hkept) (hlooking hlooks) ?_ ?_
      · rw [show s'.runner = s.runner from hsame.runner]
        exact hrunner
      · rw [RunnerWaits, show s'.runner = s.runner from hsame.runner,
          show s'.kernel = s.kernel from hsame.kernel]
        exact hawake

theorem branchOf_small {state : Word} (hsmall : state.toNat < 10) : branchOf state ≠ .callback := by
  rw [branchOf, if_pos hsmall]
  split
  · exact fun hc => RunnerStage.noConfusion hc
  · split
    · exact fun hc => RunnerStage.noConfusion hc
    · exact fun hc => RunnerStage.noConfusion hc

/-- A statement that only decides what comes next. -/
theorem moved_inv {s : IoSystem} {stage : RunnerStage} (h : IoInv s)
    (hturn : Thread s.kernel ∧ s.runner = some s.caller)
    (hquiet : Quiet s → ¬ s.Outstanding → Quiet { s with stage := stage })
    (hlooking : Looking s.stage s.rxState → Looking stage s.rxState) :
    IoInv { s with stage := stage } :=
  ioInv_statement h hturn rfl rfl
    (history_moved h.history ⟨rfl, rfl, rfl, rfl, rfl, rfl, rfl⟩ rfl hquiet hlooking)

/-- `rx_state < 10` -/
theorem top_inv {s : IoSystem} (h : IoInv s) (hturn : Thread s.kernel ∧ s.runner = some s.caller)
    (hC : s.Outstanding ∨ AsksNothing s) :
    IoInv { s with stage := if s.rxState.toNat < 10 then .switch else .callback } := by
  by_cases hsmall : s.rxState.toNat < 10
  · rw [if_pos hsmall]
    refine moved_inv h hturn (fun _ hnone => ?_) fun _ => hsmall
    rcases hC.resolve_left hnone with hreset | ⟨hcallback, _⟩
    · exact hreset
    · exact absurd hcallback (branchOf_small hsmall)
  · rw [if_neg hsmall]
    have hbranch : branchOf s.rxState = .callback := if_neg hsmall
    refine moved_inv h hturn (fun _ hnone => ?_) fun _ => hbranch
    rcases hC.resolve_left hnone with hreset | ⟨_, hnull⟩
    · rw [hbranch] at hreset
      exact RunnerStage.noConfusion hreset
    · exact hnull

/-- `switch ((UartStates_t) rx_state)`, when there is something to do. -/
theorem switch_inv {s : IoSystem} {stage : RunnerStage} (h : IoInv s) (hstage : s.stage = .switch)
    (hturn : Thread s.kernel ∧ s.runner = some s.caller) (hbranch : branchOf s.rxState = stage)
    (hne : stage ≠ .reset) (hlooks : Looking stage s.rxState) :
    IoInv { s with stage := stage } := by
  refine moved_inv h hturn (fun hquiet _ => ?_) fun _ => hlooks
  -- Nothing to be done would mean that the branch is the last one.
  rw [Quiet, hstage] at hquiet
  exact absurd (hbranch.symm.trans hquiet) hne

/-- Past the point where it acts the runner owes nothing. -/
theorem history_past {s s' : IoSystem} (h : History s) (hpast : ¬ Looking s.stage s.rxState)
    (hacted : s'.acted = s.acted) (hcompleted : s'.completed = s.completed) (hquiet : Quiet s') :
    History s' := by
  cases h with
  | served hserved _ => exact .served (by rw [hacted, hcompleted]; exact hserved) hquiet
  | due _ _ _ _ _ _ hlooks _ _ => exact absurd hlooks hpast

/-- Every statement of the runner keeps the invariant. -/
theorem runnerStep_inv {s s' : IoSystem} {answer : Addr} (h : IoInv s)
    (hC : s.stage = .top → s.Outstanding ∨ AsksNothing s)
    (hstep : runnerStep answer s = some s') : IoInv s' := by
  rcases runnerStep_cases hstep with ⟨hturn, hstatement⟩
  -- Where the runner has acted it looks at no command, and where it is about to it is
  -- not quiet.
  have hpast : ∀ stage : RunnerStage, s.stage = stage → ¬ Looking stage s.rxState →
      ¬ Looking s.stage s.rxState := fun stage hstage hnot => by rwa [hstage]
  have hbranch : ∀ stage : RunnerStage, s.stage = stage →
      (Looking stage s.rxState → branchOf s.rxState = stage) →
      Looking s.stage s.rxState → branchOf s.rxState = s.stage := fun stage hstage hlooks => by
    rwa [hstage]
  cases hstatement with
  | small hstage hsmall =>
      have htop := top_inv h hturn (hC hstage)
      rwa [if_pos hsmall] at htop
  | large hstage hlarge =>
      have htop := top_inv h hturn (hC hstage)
      rwa [if_neg hlarge] at htop
  | isPrepare hstage hprepare =>
      have hbranch : branchOf s.rxState = .prepare := by rw [hprepare]; decide
      exact switch_inv h hstage hturn hbranch (fun hc => RunnerStage.noConfusion hc) hbranch
  | isStatistic hstage hstatistic =>
      have hbranch : branchOf s.rxState = .statistic := by rw [hstatistic]; decide
      exact switch_inv h hstage hturn hbranch (fun hc => RunnerStage.noConfusion hc) hbranch
  | isOther hstage hprepare hstatistic =>
      refine moved_inv h hturn (fun _ _ => trivial) fun hlooks => ?_
      rw [hstage] at hlooks
      change branchOf s.rxState = .reset
      rw [branchOf, if_pos (show s.rxState.toNat < 10 from hlooks), if_neg hprepare,
        if_neg hstatistic]
  | prepare hstage =>
      refine ioInv_statement h hturn rfl rfl
        (history_acted h.history ?_ (hbranch _ hstage id) rfl rfl trivial)
      rw [Quiet, hstage]
      exact id
  | noBuffer hstage _ =>
      -- Without a buffer the runner panics and goes on all the same.
      exact ioInv_statement h hturn rfl rfl
        (history_past h.history (hpast _ hstage id) rfl rfl trivial)
  | buffer kernel hstage hkernel =>
      have hmoved : IoInv { s with
          stage := .arm
          tInfo := { s.tInfo with startAdress := answer }
          printed := s.printed ++ [answer] } :=
        ioInv_statement h hturn rfl rfl
          (history_past h.history (hpast _ hstage id) rfl rfl trivial)
      exact ioInv_kernel hmoved (fun hc => Bool.noConfusion hc) hkernel
  | arm hstage =>
      exact ioInv_statement (ioInv_setAction h DmaWaitsForExternalTask) hturn rfl rfl
        (history_past h.history (hpast _ hstage id) rfl rfl trivial)
  | transfer hstage =>
      exact ioInv_statement h hturn rfl rfl
        (history_past h.history (hpast _ hstage id) rfl rfl trivial)
  | statistic hstage =>
      have hacted : IoInv { s with stage := .block, acted := s.acted ++ [s.action] } := by
        refine ioInv_statement h hturn rfl rfl
          (history_acted h.history ?_ (hbranch _ hstage id) rfl rfl trivial)
        rw [Quiet, hstage]
        exact id
      unfold scheduleKernelSubtask
      split
      · exact hacted
      · exact ioInv_kernel (e := .wakeupPid _) hacted (fun hc => Bool.noConfusion hc) rfl
  | reset hstage =>
      exact ioInv_statement h hturn rfl rfl
        (history_actedInPassing h.history (hbranch _ hstage id) rfl rfl trivial)
  | callback hstage hhandler =>
      refine ioInv_statement h hturn rfl rfl
        (history_acted h.history ?_ (hbranch _ hstage id) rfl rfl trivial)
      rw [Quiet, hstage]
      exact hhandler
  | noCallback hstage _ =>
      exact ioInv_statement h hturn rfl rfl
        (history_actedInPassing h.history (hbranch _ hstage id) rfl rfl trivial)
  | block kernel hstage hkernel =>
      rcases h.kernel with ⟨v, hinv⟩
      refine ⟨(step_tasks hinv hkernel).1, fun t ht => ?_, fun hc => absurd rfl hc,
        history_past h.history (hpast _ hstage id) rfl rfl trivial⟩
      exact step_schedulable hinv hkernel (h.alive t ht) fun _ =>
        ⟨fun _ hc => Event.noConfusion hc, fun hc => Event.noConfusion hc⟩

/-! ### The other contexts -/

/-- A wakeup that finds a task takes it out of the waiting queue. -/
theorem wakeupPid_first {s : Kernel} {v : View} (h : Consistent s v) {pid : Nat} {t : Addr}
    (hfirst : (s.tasksIn s.waitingTasks).find? (fun t => (s.tcb t).pid = pid) = some t) :
    t ∉ (wakeupPid pid s).2.tasksIn (wakeupPid pid s).2.waitingTasks := by
  rw [tasksIn_waiting h, List.find?_map] at hfirst
  rcases Option.map_eq_some_iff.mp hfirst with ⟨n, hn, rfl⟩
  rcases wakeupPid_cases h pid with ⟨hnone, _⟩ | ⟨q, hq, hfind, _, heq⟩
  · have hpid := List.find?_some (p := (fun t => decide ((s.tcb t).pid = pid)) ∘ s.dataOf) hn
    exact absurd (of_decide_eq_true hpid) (hnone n (List.mem_of_find?_eq_some hn))
  · have hnq : n = q := Option.some.inj (hn.symm.trans hfind)
    have hdata : (wakeNode q s).dataOf = s.dataOf := (wakeNode_frame q s).data
    rw [heq, tasksIn_waiting (wakeNode_consistent h hq), hdata, hnq]
    intro hc
    rcases List.mem_map.mp hc with ⟨m, hm, hsame⟩
    have hmq := consistent_data_inj h (List.mem_append_right _ (List.mem_of_mem_erase hm))
      (List.mem_append_right _ hq) hsame
    rw [hmq] at hm
    exact (List.nodup_append.mp (consistent_nodes_nodup h)).2.1.not_mem_erase hm

/-- The wakeup after a command reaches the runner before it looks. -/
theorem reached_wakeup {s : IoSystem} (h : IoInv s) (hreached : Reached s) :
    s.stage = .top ∧ ¬ RunnerWaits (wakeupRunner s) := by
  rcases h.kernel with ⟨v, hinv⟩
  rcases hreached with ⟨t, ht, hfirst | ⟨hawake, htop⟩⟩
  · refine ⟨?_, ?_⟩
    · -- Past the first statement the runner would be awake.
      by_contra hstage
      exact (h.awake hstage).2 ⟨t, ht, List.mem_of_find?_eq_some hfirst⟩
    · rintro ⟨u, hu, hwait⟩
      have hut : u = t := Option.some.inj (hu.symm.trans ht)
      rw [hut] at hwait
      exact wakeupPid_first hinv.consistent hfirst hwait
  · refine ⟨htop, fun hwaits => ?_⟩
    rcases runnerWaits_kernel (e := .wakeupPid _) h (fun hc => Bool.noConfusion hc) rfl hwaits with
      ⟨u, hu, hwait⟩
    have hut : u = t := Option.some.inj (hu.symm.trans ht)
    rw [hut] at hwait
    exact hawake hwait

/-- The fourth byte. -/
theorem complete_inv {s s' : IoSystem} (h : IoInv s) (hnone : ¬ s.Outstanding)
    (hreached : Reached s) (hkernel : s'.kernel = (wakeupRunner s).kernel)
    (hrunner : s'.runner = s.runner) (hstage : s'.stage = s.stage)
    (hstate : s'.rxState = s'.word &&& 0xFF#32)
    (hcompleted : s'.completed = s.completed ++ [s'.word]) (hacted : s'.acted = s.acted) :
    IoInv s' := by
  have hwake := ioInv_wakeupRunner h
  rcases reached_wakeup h hreached with ⟨htop, hawake⟩
  -- No command is outstanding, so all of those before have been acted on.
  have hserved : s.acted = s.completed.map request := by
    cases h.history with
    | served hserved _ => exact hserved
    | due _ _ hdue hold _ _ _ _ _ => exact absurd (outstanding_due hdue hold) hnone
  refine ⟨?_, fun t ht => ?_, fun hc => absurd (hstage.trans htop) hc,
    .due s.completed s'.word hcompleted (hacted.trans hserved) hstate rfl ?_ ?_ ?_⟩
  · rw [hkernel]
    exact hwake.kernel
  · rw [hkernel]
    rw [hrunner] at ht
    exact hwake.alive t ht
  · rw [hstage, htop]
    exact trivial
  · rcases hreached with ⟨t, ht, _⟩
    rw [hrunner, Option.mem_def.mp ht]
    rfl
  · rw [RunnerWaits, hrunner, hkernel]
    exact hawake

/-- The UART interrupt keeps the invariant. -/
theorem uartIsrHandler_inv {s s' : IoSystem} {ore rxne : Bool} {dr : Byte} (h : IoInv s)
    (hC : Attended s (.uart ore rxne dr)) (hstep : uartIsrHandler ore rxne dr s = some s') :
    IoInv s' := by
  unfold uartIsrHandler at hstep
  cases ore with
  | true =>
      rw [if_pos rfl, Option.some.injEq] at hstep
      -- The notification of the host changes nothing that matters here.
      have hnotify : IoInv (if s.hostIsNotified then s
          else { s with printed := s.printed ++ [4294967295], hostIsNotified := true }) := by
        split
        · exact h
        · exact ioInv_same h ⟨rfl, rfl, rfl, rfl, rfl, rfl, rfl⟩ (Or.inl rfl)
      subst hstep
      cases rxne with
      | true =>
          refine ioInv_same hnotify ⟨rfl, rfl, rfl, rfl, rfl, rfl, rfl⟩ (Or.inr ?_)
          split
          · exact hC.1 (Or.inr rfl)
          · exact hC.1 (Or.inr rfl)
      | false => exact ioInv_same hnotify ⟨rfl, rfl, rfl, rfl, rfl, rfl, rfl⟩ (Or.inl rfl)
  | false =>
      have hnone := hC.1 (Or.inl rfl)
      rw [if_neg Bool.false_ne_true] at hstep
      dsimp only at hstep
      by_cases hlast : s.bytesReceived + 1 = BUFFERSIZE
      · rw [if_neg (not_not_intro hlast)] at hstep
        split at hstep
        · exact absurd hstep (by simp only [reduceCtorEq, not_false_eq_true])
        · rw [Option.some.injEq] at hstep
          subst hstep
          exact complete_inv h hnone (hC.2 rfl hlast) rfl rfl rfl rfl rfl rfl
      · rw [if_pos hlast, Option.some.injEq] at hstep
        subst hstep
        exact ioInv_same h ⟨rfl, rfl, rfl, rfl, rfl, rfl, rfl⟩ (Or.inr hnone)

/-- The creation of the runner: nothing has been received yet that was not lost
    or acted on, and the new task is alive if there is one. -/
theorem createRunner_inv {s : IoSystem} {k : Kernel} {c : Chunks} {slot : Addr} {pid : Int}
    (h : IoInv s) (hen : Enabled (.createTask c slot 0) s.kernel)
    (hnone : s.runner = none) (hrun : createTask c slot 0 s.kernel = some (pid, k)) :
    IoInv { s with
      kernel := k
      externalIoRunner := toSignedChar pid
      runner := createdTask c k
      idleStage := .other
      ioHandler := NULL } := by
  rcases h.kernel with ⟨v, hinv⟩
  rcases createTask_inv hinv hen.2.1 hen.2.2 hrun with ⟨v', hinv', _⟩
  -- Without a runner none of its statements is under way.
  have htop : s.stage = .top := by
    by_contra hstage
    have hsome := (h.awake hstage).1
    rw [hnone] at hsome
    exact Bool.noConfusion hsome
  refine ⟨⟨v', hinv'⟩, fun t ht => ?_, fun hc => absurd htop hc, ?_⟩
  · rcases mem_createdTask ht with ⟨hlive, rfl⟩
    exact (created_schedulable hinv hen.2.1 hen.2.2 hrun hlive).1
  · cases h.history with
    | served hacted _ =>
        refine .served hacted ?_
        change Quiet { s with ioHandler := NULL }
        rw [Quiet, htop]
        exact trivial
    | due _ _ _ _ _ _ _ hrunner _ =>
        rw [hnone] at hrunner
        exact Bool.noConfusion hrunner

/-- The DMA interrupt. -/
theorem dmaIrHandler_inv {s : IoSystem} (h : IoInv s) (error : Bool) (filled : TaskInformation) :
    IoInv (dmaIrHandler error filled s) := by
  unfold dmaIrHandler
  cases error with
  | true =>
      exact ioInv_same (ioInv_setAction h DmaHadTransferError)
        ⟨rfl, rfl, rfl, rfl, rfl, rfl, rfl⟩ (Or.inl rfl)
  | false =>
      dsimp only
      rw [if_neg Bool.false_ne_true]
      by_cases hwaits : s.kernel.dmaInterruptAction = DmaWaitsForExternalTask
      · rw [if_pos hwaits]
        exact ioInv_same (ioInv_setAction h _) ⟨rfl, rfl, rfl, rfl, rfl, rfl, rfl⟩ (Or.inl rfl)
      · rw [if_neg hwaits]
        exact ioInv_same h ⟨rfl, rfl, rfl, rfl, rfl, rfl, rfl⟩ (Or.inl rfl)

/-- A handler is entered while the runner is not about to look for one. -/
theorem ioInv_handler {s : IoSystem} (h : IoInv s) (hstage : s.stage ≠ .callback) (handler : Addr) :
    IoInv { s with ioHandler := handler } := by
  refine ⟨h.kernel, h.alive, h.awake, ?_⟩
  cases h.history with
  | served hacted hquiet =>
      refine .served hacted ?_
      unfold Quiet at hquiet ⊢
      dsimp only
      cases hs : s.stage with
      | callback => exact absurd hs hstage
      | _ =>
          rw [hs] at hquiet
          exact hquiet
  | due served w hcompleted hacted hstate hword hlooking hrunner hawake =>
      exact .due served w hcompleted hacted hstate hword hlooking hrunner hawake

theorem stops_enabled {s : IoSystem} {e : Event} (h : IoEnabled s e) (hstops : e.stops = true) :
    s.runner ≠ some s.caller := by
  cases e with
  | blockCurrentTask => exact h.1
  | finishTask _ => exact h.1
  | invalidateCurrentTask => exact h.1
  | _ => exact Bool.noConfusion hstops

/-- Every attended step keeps the invariant. -/
theorem ioStep_inv {s s' : IoSystem} {e : IoEvent} (h : IoInv s) (hC : Attended s e)
    (hstep : ioStep e s = some s') : IoInv s' := by
  -- Every event is a step of the kernel, of one of the contexts, or none.
  cases ioStep_cases hstep with
  | kernel e kernel hen hkernel => exact ioInv_kernel h (stops_enabled hen) hkernel
  | createIdle c slot kernel _ hkernel =>
      exact ioInv_same (ioInv_kernel h (fun hc => Bool.noConfusion hc) hkernel)
        ⟨rfl, rfl, rfl, rfl, rfl, rfl, rfl⟩ (Or.inl rfl)
  | createRunner c slot pid kernel hen _ hnone _ hrun => exact createRunner_inv h hen hnone hrun
  | uart ore rxne dr s' _ hisr => exact uartIsrHandler_inv h hC hisr
  | runner answer s' hrunner => exact runnerStep_inv h hC hrunner
  | noImage => exact h
  | image => exact ioInv_same h ⟨rfl, rfl, rfl, rfl, rfl, rfl, rfl⟩ (Or.inl rfl)
  | createImage c slot kernel _ _ hkernel =>
      exact ioInv_same (ioInv_kernel h (fun hc => Bool.noConfusion hc) hkernel)
        ⟨rfl, rfl, rfl, rfl, rfl, rfl, rfl⟩ (Or.inl rfl)
  | resetAction =>
      exact ioInv_same (ioInv_setAction h DmaIsIdle) ⟨rfl, rfl, rfl, rfl, rfl, rfl, rfl⟩
        (Or.inl rfl)
  | dma error filled _ => exact dmaIrHandler_inv h error filled
  | wakeupIoHandler => exact ioInv_wakeupRunner h
  | setExtIoCallback handler => exact ioInv_handler h hC handler

/-! ### Runs -/

theorem ioInitialized_inv {s : IoSystem} (h : IoInitialized s) : IoInv s := by
  rcases h with ⟨hinit, hrunner, _, htop, _, _, hcompleted, hacted, _⟩
  refine ⟨⟨_, (initScheduler_inv hinit).1⟩, fun t ht => ?_,
    fun hc => absurd htop hc, .served ?_ ?_⟩
  · rw [hrunner] at ht
    exact absurd ht (Option.not_mem_none t)
  · rw [hcompleted, hacted]
    rfl
  · rw [Quiet, htop]
    exact trivial

theorem ioInv_served {s : IoSystem} (h : IoInv s) : CommandsServed s := by
  cases h.history with
  | served hacted _ => exact Or.inl hacted
  | due served w hcompleted hacted hstate hword hlooking hrunner hawake =>
      rcases h.kernel with ⟨v, hinv⟩
      rcases Option.isSome_iff_exists.mp hrunner with ⟨t, ht⟩
      have halive := h.alive t ht
      have hnot : t ∉ s.kernel.tasksIn s.kernel.waitingTasks := fun hc => hawake ⟨t, ht, hc⟩
      refine Or.inr ⟨w, ?_, ?_, hstate, hword, hlooking, t, ht, ?_, ?_⟩
      · rw [hcompleted, List.getLast?_concat]
        rfl
      · rw [hcompleted, List.dropLast_concat]
        exact hacted
      · have hmem := (tasksIn_perm hinv.consistent).mem_iff.mpr halive.1
        exact (List.mem_append.mp hmem).resolve_right hnot
      · exact halive.2.resolve_right fun hc =>
          hnot ((waiting_iff hinv.consistent halive.1).mpr hc)

/-- Every command is acted on once and as it was received, in every run whose
    steps are attended. -/
theorem commands_served (s₀ s : IoSystem) (es : List IoEvent) (hinit : IoInitialized s₀)
    (hattended : Meets ioStep Attended es s₀) (hrun : run ioStep es s₀ = some s) :
    CommandsServed s := by
  refine ioInv_served (run_invariant ioStep IoInv ?_ es s₀ s (ioInitialized_inv hinit)
    hattended hrun)
  exact fun s e s' hinv hC hstep => ioStep_inv hinv hC hstep

/-- A transfer of 256 bytes is prepared, and when it is over the statistic is
    requested. -/
def twoCommands : List IoEvent :=
  ioStartUp ++ receive 0x00010001#32 ++ runnerTurn 7 40 ++ [.dma false] ++ receive REQUEST_STATISTIC

theorem commands_served_twoCommands : Ends ioStep twoCommands freshIo fun s =>
    s.completed = [0x00010001#32, REQUEST_STATISTIC] ∧ s.acted = [request 0x00010001#32] ∧
      CommandsServed s := by
  have hends : Ends ioStep twoCommands freshIo fun s =>
      s.completed = [0x00010001#32, REQUEST_STATISTIC] ∧
        s.acted = [request 0x00010001#32] := by decide +kernel
  rcases hends with ⟨s, hs, hcompleted, hacted⟩
  exact ⟨s, hs, hcompleted, hacted, commands_served freshIo s _ freshIo_initialized
    (by decide +kernel) hs⟩

/-- How a state shows that a command is lost or acted on twice. -/
theorem not_served {s : IoSystem} {completed : List Word} {acted : List Action}
    (hcompleted : s.completed = completed) (hacted : s.acted = acted)
    (hall : acted ≠ completed.map request)
    (hlast : acted ≠ completed.dropLast.map request ∨
      ∀ t ∈ s.runner, (s.kernel.tcb t).state ≠ .READY) : ¬ CommandsServed s := by
  rintro (hserved | ⟨w, _, hserved, _, _, _, t, ht, _, hready⟩)
  · rw [hcompleted, hacted] at hserved
    exact hall hserved
  · rcases hlast with hne | hsleeps
    · rw [hcompleted, hacted] at hserved
      exact hne hserved
    · exact hsleeps t ht hready

/-- A second command arrives before the runner has looked, and the first is
    never acted on. A command arrives when the runner is about to block, and the
    runner waits with the command before it. The runner is woken for nothing, and
    acts on the last command again. -/
theorem commands_lost : IoInitialized freshIo ∧
    (Ends ioStep (ioStartUp ++ receive REQUEST_STATISTIC ++ receive 5#32 ++ runnerTurn 4 40) freshIo
      fun s => s.completed = [REQUEST_STATISTIC, 5#32] ∧ s.acted = [request 5#32] ∧
        ¬ CommandsServed s) ∧
    (Ends ioStep (ioStartUp ++ receive 5#32 ++
        [.kernel .blockCurrentTask, .kernel (.pendsv 8), .runner 40, .runner 40, .runner 40] ++
        receive REQUEST_STATISTIC ++ [.runner 40, .kernel (.pendsv 8)]) freshIo
      fun s => s.completed = [5#32, REQUEST_STATISTIC] ∧ s.acted = [request 5#32] ∧
        (∀ t ∈ s.runner, (s.kernel.tcb t).state ≠ .READY) ∧ ¬ CommandsServed s) ∧
    (Ends ioStep (ioStartUp ++ receive REQUEST_STATISTIC ++ runnerTurn 4 40 ++ [.wakeupIoHandler] ++
        runnerTurn 4 40) freshIo
      fun s => s.completed = [REQUEST_STATISTIC] ∧
        s.acted = [request REQUEST_STATISTIC, request REQUEST_STATISTIC] ∧
        ¬ CommandsServed s) := by
  -- The second command arrives before the runner has looked.
  have hoverwritten : Ends ioStep (ioStartUp ++ receive REQUEST_STATISTIC ++ receive 5#32 ++
      runnerTurn 4 40) freshIo fun s =>
        s.completed = [REQUEST_STATISTIC, 5#32] ∧ s.acted = [request 5#32] := by decide +kernel
  -- The second wakeup finds the runner on its way to block.
  have hmissed : Ends ioStep (ioStartUp ++ receive 5#32 ++
      [.kernel .blockCurrentTask, .kernel (.pendsv 8), .runner 40, .runner 40, .runner 40] ++
      receive REQUEST_STATISTIC ++ [.runner 40, .kernel (.pendsv 8)]) freshIo fun s =>
        s.completed = [5#32, REQUEST_STATISTIC] ∧ s.acted = [request 5#32] ∧
          ∀ t ∈ s.runner, (s.kernel.tcb t).state ≠ .READY := by decide +kernel
  -- A wakeup for nothing: `rx_state` is as the first command left it.
  have hrepeated : Ends ioStep (ioStartUp ++ receive REQUEST_STATISTIC ++ runnerTurn 4 40 ++
      [.wakeupIoHandler] ++ runnerTurn 4 40) freshIo fun s =>
        s.completed = [REQUEST_STATISTIC] ∧
          s.acted = [request REQUEST_STATISTIC, request REQUEST_STATISTIC] := by decide +kernel
  refine ⟨freshIo_initialized, ?_, ?_, ?_⟩
  · rcases hoverwritten with ⟨s, hs, hcompleted, hacted⟩
    exact ⟨s, hs, hcompleted, hacted,
      not_served hcompleted hacted (by decide) (Or.inl (by decide))⟩
  · rcases hmissed with ⟨s, hs, hcompleted, hacted, hsleeps⟩
    exact ⟨s, hs, hcompleted, hacted, hsleeps,
      not_served hcompleted hacted (by decide) (Or.inr hsleeps)⟩
  · rcases hrepeated with ⟨s, hs, hcompleted, hacted⟩
    exact ⟨s, hs, hcompleted, hacted,
      not_served hcompleted hacted (by decide) (Or.inl (by decide))⟩

end NextLevelRTOS
