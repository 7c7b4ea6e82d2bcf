import NextLevelRTOS.Process.Identifiers

/-!
# Sleeping

`task_sleep` stores the caller's identifier, sets up timer 3 and blocks, and
the compare interrupt of timer 3 wakes the identifier that is stored. There is
one timer and one stored identifier for all tasks. The timer is running before
the caller is in the waiting queue.

The machine here is the kernel with the timer next to it. `task_sleep` is
taken statement by statement, since interrupts arrive and tasks are switched
between any two of its statements; `stage` says how far each task has come.
None of its statements faults. `slept` is history: whether the last thing a
task blocked in was `task_sleep`.

A sleep is lost in two ways. A second sleeper overwrites the identifier of the
first, and an interrupt taken between the start of the timer and the block
finds nobody to wake and stops the timer. And the interrupt wakes the wrong
task if the identifier it looks for waits for something else, which takes a
timer that runs on after its sleeper was woken by somebody else, or an
identifier that is not unique. Where none of this happens there is at most one
task inside `task_sleep` or asleep, it is the one named, and the timer is
outstanding from the moment it is started until that task is woken.

## Main definitions

* `Timer`: The registers of timer 3 that a sleep uses.
* `SleepSystem`: The kernel, the timer and who is sleeping.
* `sleepStep`: The transition function.
* `Asleep`, `Outstanding`: A task sleeps; a wakeup is due.
* `NoLostSleep`, `WakesSleepersOnly`: What a sleeper relies on.
* `SleepsAlone`: The condition on a step.

## Theorems

* `step_tasks`: What a kernel event does to the tasks that wait.
* `sleepStep_inv`: Every step that meets the condition keeps the invariant.
* `sleepers_awaited`: No sleep is lost in runs that meet the condition.
-/

namespace NextLevelRTOS

open Machine

/-- The registers of timer 3: the enable bit of `cr1`, the flag of the first
    compare channel in `sr`, the counter and the compare value. -/
structure Timer where
  cen : Bool
  cc1if : Bool
  cnt : Nat
  ccr1 : Nat
  deriving DecidableEq, Repr

namespace Timer

variable (t : Timer)

/-- `set_ccr(TimerForTaskSleep, value, 1)` -/
def setCcr (value : Nat) : Timer := { t with ccr1 := value % 65536 }

/-- `timer_flush_counter` -/
def flushCounter : Timer := { t with cnt := 0 }

/-- `timer_start` -/
def start : Timer := { t with cen := true }

/-- `timer_stop` -/
def stop : Timer := { t with cen := false }

/-- `timer_set_sr(3, tim_sr & ~(1 << 1))` -/
def acknowledge : Timer := { t with cc1if := false }

/-- One count of a sixteen bit counter: the flag is set when the compare value
    is met. -/
def tick : Timer :=
  if t.cen then
    let cnt := (t.cnt + 1) % 65536
    { t with cnt := cnt, cc1if := t.cc1if || decide (cnt = t.ccr1) }
  else t

end Timer

/-- How far a task has come in `task_sleep`. -/
inductive SleepStage where
  | requested (ticks : Nat)
  | compared
  | flushed
  | started
  deriving DecidableEq, Repr

/-- The kernel, the timer and who is sleeping. -/
structure SleepSystem where
  kernel : Kernel
  timer : Timer
  /-- `task_sleep_request.pid_of_sleeping_task` -/
  request : Nat
  /-- How far each task has come in `task_sleep`. -/
  stage : Addr → Option SleepStage
  /-- Whether a task blocked last in `task_sleep`. -/
  slept : Addr → Bool

/-- The task that is running. -/
def SleepSystem.caller (s : SleepSystem) : Addr := s.kernel.dataOf s.kernel.currentlyRunning

/-- What can happen. -/
inductive SleepEvent where
  | kernel (e : Event)
  /-- `task_sleep` is called and stores the caller's identifier. -/
  | taskSleep (ticks : Nat)
  /-- The next statement of `task_sleep`. -/
  | advance
  | tick
  | tim3Isr
  deriving DecidableEq

/-- The task whose sleeping starts anew with an event: it blocks elsewhere, or
    it is new. -/
def Event.resets (e : Event) (s : Kernel) : Option Addr :=
  match e with
  | .blockCurrentTask => some (s.dataOf s.currentlyRunning)
  | .createTask c _ _ => some c.tcb
  | .createIdle c _ => some c.tcb
  | _ => none

/-- An event that is not a call of the task that is running. -/
def Event.asynchronous : Event → Bool
  | .wakeupPid _ => true
  | .yieldTask => true
  | .pendsv _ => true
  | .dmaInterrupt _ => true
  | _ => false

/-- A kernel event. A task inside `task_sleep` calls nothing else. -/
def kernelStep (e : Event) (s : SleepSystem) : Option SleepSystem :=
  if e.asynchronous = true ∨ s.stage s.caller = none then
    (step e s.kernel).map fun kernel =>
      match e.resets s.kernel with
      | none => { s with kernel := kernel }
      | some t => { s with
          kernel := kernel
          stage := Function.update s.stage t none
          slept := Function.update s.slept t false }
  else none

/-- `task_sleep`, its first statement. -/
def taskSleep (ticks : Nat) (s : SleepSystem) : Option SleepSystem :=
  if Thread s.kernel ∧ s.stage s.caller = none then
    some { s with
      request := (s.kernel.tcb s.caller).pid
      stage := Function.update s.stage s.caller (some (.requested ticks)) }
  else none

/-- `task_sleep`, the statement after the stage reached. -/
def advance (s : SleepSystem) : Option SleepSystem :=
  if Thread s.kernel then
    match s.stage s.caller with
    | none => none
    | some (.requested ticks) =>
      some { s with
        timer := s.timer.setCcr ticks
        stage := Function.update s.stage s.caller (some .compared) }
    | some .compared =>
      some { s with
        timer := s.timer.flushCounter
        stage := Function.update s.stage s.caller (some .flushed) }
    | some .flushed =>
      some { s with
        timer := s.timer.start
        stage := Function.update s.stage s.caller (some .started) }
    | some .started =>
      (step .blockCurrentTask s.kernel).map fun kernel =>
        { s with
          kernel := kernel
          stage := Function.update s.stage s.caller none
          slept := Function.update s.slept s.caller true }
  else none

/-- `tim3_isr_handler` -/
def tim3IsrHandler (s : SleepSystem) : SleepSystem :=
  if s.timer.cc1if then
    { s with
      timer := s.timer.stop.acknowledge
      kernel := (wakeupPid s.request s.kernel).2 }
  else s

/-- The transition function. The interrupt is taken when its flag is set. -/
def sleepStep (e : SleepEvent) (s : SleepSystem) : Option SleepSystem :=
  match e with
  | .kernel e => kernelStep e s
  | .taskSleep ticks => taskSleep ticks s
  | .advance => advance s
  | .tick => some { s with timer := s.timer.tick }
  | .tim3Isr => if s.timer.cc1if then some (tim3IsrHandler s) else none

/-- The tasks in the waiting queue. -/
def SleepSystem.waiters (s : SleepSystem) : List Addr := s.kernel.tasksIn s.kernel.waitingTasks

/-- The task is in the waiting queue because of `task_sleep`. -/
def Asleep (s : SleepSystem) (t : Addr) : Prop := t ∈ s.waiters ∧ s.slept t = true

/-- A wakeup is due: the timer is running or its interrupt is pending. -/
def Outstanding (s : SleepSystem) : Prop := s.timer.cen = true ∨ s.timer.cc1if = true

/-- No sleep is lost: for every task asleep a wakeup is due and names it. -/
def NoLostSleep (s : SleepSystem) : Prop :=
  ∀ t ∈ s.waiters, s.slept t = true → Outstanding s ∧ s.request = (s.kernel.tcb t).pid

/-- The interrupt takes nobody out of the waiting queue who waits for something
    else. -/
def WakesSleepersOnly (s : SleepSystem) : Prop :=
  ∀ t ∈ s.waiters, t ∉ (tim3IsrHandler s).waiters → s.slept t = true

instance (s : SleepSystem) (t : Addr) : Decidable (Asleep s t) :=
  inferInstanceAs (Decidable (_ ∧ _))

instance (s : SleepSystem) : Decidable (Outstanding s) := inferInstanceAs (Decidable (_ ∨ _))

instance (s : SleepSystem) : Decidable (NoLostSleep s) :=
  inferInstanceAs (Decidable (∀ t ∈ s.waiters, _))

instance (s : SleepSystem) : Decidable (WakesSleepersOnly s) :=
  inferInstanceAs (Decidable (∀ t ∈ s.waiters, _))

/-- The condition on a step: `task_sleep` is called while no task is inside it
    or asleep; the interrupt is not taken between the start of the timer and the
    block; a task that a due wakeup names does not block elsewhere; a new task's
    identifier is neither in use nor, if the task starts out waiting, the one a
    due wakeup names. -/
def SleepsAlone (s : SleepSystem) (e : SleepEvent) : Prop :=
  match e with
  | .taskSleep _ => ∀ t ∈ s.kernel.live, s.stage t = none ∧ ¬ Asleep s t
  | .tim3Isr => ∀ t ∈ s.kernel.live, s.stage t ≠ some .started
  | .kernel e => FreshPid s.kernel e ∧
      (e = .blockCurrentTask → Outstanding s → s.request ≠ (s.kernel.tcb s.caller).pid) ∧
      (e.creates.isSome = true → s.kernel.live.length % 256 = 0 → Outstanding s → s.request ≠ 0)
  | _ => True

instance decidableSleepsAlone : ∀ (s : SleepSystem) (e : SleepEvent), Decidable (SleepsAlone s e)
  | s, .taskSleep _ => inferInstanceAs (Decidable
      (∀ t ∈ s.kernel.live, s.stage t = none ∧ ¬ Asleep s t))
  | s, .tim3Isr => inferInstanceAs (Decidable (∀ t ∈ s.kernel.live, s.stage t ≠ some .started))
  | s, .kernel e => inferInstanceAs (Decidable (FreshPid s.kernel e ∧
      (e = .blockCurrentTask → Outstanding s → s.request ≠ (s.kernel.tcb s.caller).pid) ∧
      (e.creates.isSome = true → s.kernel.live.length % 256 = 0 → Outstanding s →
        s.request ≠ 0)))
  | _, .advance => isTrue trivial
  | _, .tick => isTrue trivial

section KernelEvents

/-- What a kernel event does to the tasks there are and to those that wait. -/
structure TaskChanges (e : Event) (s s' : Kernel) : Prop where
  live : ∀ t ∈ s'.live, (t ∈ s.live ∧ (s'.tcb t).pid = (s.tcb t).pid) ∨
    (e.resets s = some t ∧ e.creates.isSome = true ∧ t ∉ s.live ∧
      (s'.tcb t).pid = s.live.length % 256)
  waiters : ∀ t ∈ s'.tasksIn s'.waitingTasks, t ∈ s.tasksIn s.waitingTasks ∨
    (e = .blockCurrentTask ∧ t = s.dataOf s.currentlyRunning) ∨
    (e.resets s = some t ∧ e.creates.isSome = true ∧ t ∉ s.live ∧ s.live.length % 256 = 0)

theorem resets_of_creates {e : Event} {c : Chunks} {ramLocation : Addr}
    (h : e.creates = some (c, ramLocation)) (s : Kernel) : e.resets s = some c.tcb := by
  cases e with
  | createTask c' slot ramLocation' =>
      rw [Event.creates, Option.some.injEq, Prod.mk.injEq] at h
      rw [Event.resets, h.1]
  | createIdle c' slot =>
      rw [Event.creates, Option.some.injEq, Prod.mk.injEq] at h
      rw [Event.resets, h.1]
  | _ => simp only [Event.creates, reduceCtorEq] at h

theorem untouched_dataOf {s s' : Kernel} {v : View} {c : Chunks} (h : Consistent s v)
    (hkeep : Untouched c s s') {n : Addr} (hn : n ∈ v.nodes) : s'.dataOf n = s.dataOf n :=
  hkeep.data n (consistent_node_occupied h hn)

theorem created_taskChanges {e : Event} {s s' : Kernel} {v v' : View} {c : Chunks}
    {ramLocation : Addr} (h : Consistent s v) (he : e.creates = some (c, ramLocation))
    (hkeep : Untouched c s s') (hnew : Created c ramLocation s s' v v') :
    TaskChanges e s s' := by
  have hreset := resets_of_creates he s
  have hsome : e.creates.isSome = true := by rw [he]; rfl
  refine ⟨fun t ht => ?_, fun t ht => ?_⟩
  · rw [hnew.live] at ht
    rcases List.mem_append.mp ht with ht | ht
    · exact Or.inl ⟨ht, by rw [hkeep.tcb t ht]⟩
    · rw [List.mem_singleton.mp ht]
      refine Or.inr ⟨hreset, hsome, hnew.new, ?_⟩
      rw [hnew.tcb, newTcb_pid h]
  · rw [tasksIn_waiting hnew.consistent, List.mem_map] at ht
    rcases ht with ⟨n, hn, rfl⟩
    have hold : ∀ m ∈ v.waiting, s'.dataOf m ∈ s.tasksIn s.waitingTasks := by
      intro m hm
      rw [tasksIn_waiting h, untouched_dataOf h hkeep (List.mem_append_right _ hm)]
      exact List.mem_map_of_mem hm
    rw [hnew.view] at hn
    rcases newTcb_state c ramLocation s with hst | hst
    · rw [hst] at hn
      exact Or.inl (hold n hn)
    · rw [hst] at hn
      have hmem : n ∈ v.waiting ++ [c.queueNode] := hn
      rcases List.mem_append.mp hmem with hm | hm
      · exact Or.inl (hold n hm)
      · rw [List.mem_singleton.mp hm, hnew.node]
        refine Or.inr (Or.inr ⟨hreset, hsome, hnew.new, ?_⟩)
        -- A new task waits only if its identifier is zero.
        rw [← newTcb_pid h c ramLocation]
        by_contra hpid
        have hready : (newTcb c ramLocation s).state = .READY := if_neg hpid
        exact TaskState.noConfusion (hready.symm.trans hst)

/-- What any kernel event does to the tasks. -/
theorem step_tasks {e : Event} {s s' : Kernel} {v : View} (hinv : Inv s v)
    (hstep : step e s = some s') : (∃ v', Inv s' v') ∧ TaskChanges e s s' := by
  rcases step_outcome hinv hstep with ⟨v', hinv', hout⟩
  refine ⟨⟨v', hinv'⟩, ?_⟩
  have h := hinv.consistent
  cases hout with
  | moved hm _ hwait =>
      refine ⟨fun t ht => Or.inl ⟨?_, (hm.frame.tcb t).pid⟩, fun t ht => ?_⟩
      · rwa [hm.frame.live] at ht
      · rw [tasksIn_waiting hinv'.consistent, List.mem_map] at ht
        rcases ht with ⟨n, hn, rfl⟩
        -- Whoever waits afterwards did before, or has just blocked.
        have hdata : s'.dataOf n = s.dataOf n := congrFun hm.frame.data n
        rw [hdata]
        rcases hwait n hn with hw | ⟨he, hcur⟩
        · rw [tasksIn_waiting h]
          exact Or.inl (List.mem_map_of_mem hw)
        · exact Or.inr (Or.inl ⟨he, by rw [hcur]⟩)
  | image a _ hs' hv =>
      rw [hs', allocate_eq]
      exact ⟨fun t ht => Or.inl ⟨ht, rfl⟩, fun t ht => Or.inl ht⟩
  | notCreated c ramLocation _ hkeep hnot =>
      refine ⟨fun t ht => Or.inl ?_, fun t ht => Or.inl ?_⟩
      -- Nobody is added, so nobody waits who did not before.
      · rw [hnot.live] at ht
        exact ⟨ht, by rw [hkeep.tcb t ht]⟩
      · rw [tasksIn_waiting hinv'.consistent, List.mem_map] at ht
        rcases ht with ⟨n, hn, rfl⟩
        rw [hnot.waiting] at hn
        rw [tasksIn_waiting h, untouched_dataOf h hkeep (List.mem_append_right _ hn)]
        exact List.mem_map_of_mem hn
  | created c ramLocation he hkeep hnew => exact created_taskChanges h he hkeep hnew
  | reaped _ hr =>
      refine ⟨fun t ht => Or.inl ⟨hr.live.subset ht, by rw [hr.tcb]⟩, fun t ht => Or.inl ?_⟩
      rw [tasksIn_waiting hinv'.consistent, hr.waiting, List.mem_map] at ht
      rcases ht with ⟨n, hn, rfl⟩
      have hdata : s'.dataOf n = s.dataOf n := congrFun hr.data n
      rw [tasksIn_waiting h, hdata]
      exact List.mem_map_of_mem hn

/-- Waking an identifier takes at most a task that has it out of the waiting
    queue, and with distinct identifiers leaves nobody there who has it. -/
theorem wakeupPid_waiters {s : Kernel} {v : View} (h : Consistent s v) (pid : Nat) :
    (∀ t ∈ s.tasksIn s.waitingTasks, (s.tcb t).pid = pid ∨
      t ∈ (wakeupPid pid s).2.tasksIn (wakeupPid pid s).2.waitingTasks) ∧
    (DistinctPids s → ∀ t ∈ (wakeupPid pid s).2.tasksIn (wakeupPid pid s).2.waitingTasks,
      (s.tcb t).pid ≠ pid) := by
  rcases wakeupPid_cases h pid with ⟨hnone, heq⟩ | ⟨q, hq, _, hpid, heq⟩
  · rw [heq]
    refine ⟨fun t ht => Or.inr ht, fun _ t ht => ?_⟩
    rw [tasksIn_waiting h, List.mem_map] at ht
    rcases ht with ⟨n, hn, rfl⟩
    exact hnone n hn
  · have hdata : (wakeNode q s).dataOf = s.dataOf := (wakeNode_frame q s).data
    rw [heq]
    simp only [tasksIn_waiting h, tasksIn_waiting (wakeNode_consistent h hq), hdata]
    refine ⟨fun t ht => ?_, fun hdist t ht hc => ?_⟩
    · rcases List.mem_map.mp ht with ⟨n, hn, rfl⟩
      by_cases hnq : n = q
      · exact Or.inl (hnq ▸ hpid)
      · exact Or.inr (List.mem_map_of_mem ((List.mem_erase_of_ne hnq).mpr hn))
    · rcases List.mem_map.mp ht with ⟨n, hn, rfl⟩
      have hnw := List.mem_of_mem_erase hn
      -- With distinct identifiers a waiter with this one would be the task that was
      -- woken.
      have hlive : ∀ m ∈ v.waiting, s.dataOf m ∈ s.live := fun m hm =>
        (consistent_live_iff h _).mpr ⟨m, List.mem_append_right _ hm, rfl⟩
      have hsame := hdist _ (hlive n hnw) _ (hlive q hq) (hc.trans hpid.symm)
      have hnq := consistent_data_inj h (List.mem_append_right _ hnw)
        (List.mem_append_right _ hq) hsame
      rw [hnq] at hn
      exact (List.nodup_append.mp (consistent_nodes_nodup h)).2.1.not_mem_erase hn

/-- The task that is running does not wait. -/
theorem caller_not_waiting {s : Kernel} {v : View} (hinv : Inv s v) (hthread : Thread s) :
    s.dataOf s.currentlyRunning ∈ s.live ∧
      s.dataOf s.currentlyRunning ∉ s.tasksIn s.waitingTasks := by
  have h := hinv.consistent
  have hlive := (consistent_live_iff h (s.dataOf s.currentlyRunning)).mpr
    ⟨_, List.mem_append_left _ (inv_current_running hinv hthread), rfl⟩
  refine ⟨hlive, fun hc => ?_⟩
  have hwait := (waiting_iff h hlive).mp hc
  exact TaskState.noConfusion ((hinv.thread hthread).1.symm.trans hwait)

end KernelEvents

/-- The task is inside `task_sleep` or asleep. -/
def Sleeping (s : SleepSystem) (t : Addr) : Prop := s.stage t ≠ none ∨ Asleep s t

/-- One task at most sleeps. It is named from the first statement of
    `task_sleep` on, and from the start of the timer on a wakeup is due. A due
    wakeup names nobody who waits for something else. -/
structure SleepInv (s : SleepSystem) : Prop where
  kernel : ∃ v, Inv s.kernel v
  pids : DistinctPids s.kernel
  one : ∀ t ∈ s.kernel.live, ∀ u ∈ s.kernel.live, Sleeping s t → Sleeping s u → t = u
  named : ∀ t ∈ s.kernel.live, Sleeping s t → s.request = (s.kernel.tcb t).pid
  armed : ∀ t ∈ s.kernel.live, s.stage t = some .started ∨ Asleep s t → Outstanding s
  exact : Outstanding s → ∀ t ∈ s.waiters, (s.kernel.tcb t).pid = s.request → s.slept t = true

theorem waiters_live {s : SleepSystem} {v : View} (h : Inv s.kernel v) {t : Addr}
    (ht : t ∈ s.waiters) : t ∈ s.kernel.live :=
  (tasksIn_perm h.consistent).mem_iff.mp (List.mem_append_right _ ht)

/-- The invariant of a state whose sleeping tasks were sleeping before, with
    the same timer and the same name. -/
theorem sleepInv_of_fewer {s s' : SleepSystem} (h : SleepInv s) (hkernel : ∃ v, Inv s'.kernel v)
    (hpids : DistinctPids s'.kernel) (hrequest : s'.request = s.request)
    (hout : Outstanding s' ↔ Outstanding s)
    (hold : ∀ t ∈ s'.kernel.live, Sleeping s' t →
      t ∈ s.kernel.live ∧ Sleeping s t ∧ (s'.kernel.tcb t).pid = (s.kernel.tcb t).pid)
    (harmed : ∀ t ∈ s'.kernel.live, s'.stage t = some .started ∨ Asleep s' t →
      s.stage t = some .started ∨ Asleep s t)
    (hexact : Outstanding s → ∀ t ∈ s'.waiters, (s'.kernel.tcb t).pid = s.request →
      s'.slept t = true) : SleepInv s' := by
  refine ⟨hkernel, hpids, fun t ht u hu hst hsu => ?_, fun t ht hst => ?_, fun t ht hst => ?_,
    fun ho t ht hpid => ?_⟩
  -- Two sleepers now were two sleepers before.
  · rcases hold t ht hst with ⟨ht', hst', _⟩
    rcases hold u hu hsu with ⟨hu', hsu', _⟩
    exact h.one t ht' u hu' hst' hsu'
  · rcases hold t ht hst with ⟨ht', hst', hpid⟩
    rw [hrequest, hpid]
    exact h.named t ht' hst'
  · rw [hout]
    have hst' : Sleeping s' t := hst.imp (fun hc => by rw [hc]; exact Option.some_ne_none _) id
    exact h.armed t (hold t ht hst').1 (harmed t ht hst)
  · rw [hrequest] at hpid
    exact hexact (hout.mp ho) t ht hpid

/-- A kernel event in the sleep system: the timer and the name stay, and the
    sleeping of one task at most starts anew. -/
structure KernelStep (e : Event) (s s' : SleepSystem) : Prop where
  step : step e s.kernel = some s'.kernel
  timer : s'.timer = s.timer
  request : s'.request = s.request
  stage : ∀ t, s'.stage t = if e.resets s.kernel = some t then none else s.stage t
  slept : ∀ t, s'.slept t = if e.resets s.kernel = some t then false else s.slept t

theorem kernelStep_some {e : Event} {s s' : SleepSystem} (h : kernelStep e s = some s') :
    KernelStep e s s' := by
  unfold kernelStep at h
  by_cases hg : e.asynchronous = true ∨ s.stage s.caller = none
  · rw [if_pos hg] at h
    rcases Option.map_eq_some_iff.mp h with ⟨k, hk, rfl⟩
    cases hr : e.resets s.kernel with
    | none =>
        refine ⟨hk, rfl, rfl, fun t => ?_, fun t => ?_⟩
        all_goals rw [hr, if_neg (by simp only [reduceCtorEq, not_false_eq_true])]
    | some r =>
        refine ⟨hk, rfl, rfl, fun t => ?_, fun t => ?_⟩
        all_goals
          rw [hr]
          by_cases hrt : r = t
          · rw [if_pos (congrArg some hrt), hrt]
            exact Function.update_self ..
          · rw [if_neg (fun hc => hrt (Option.some.inj hc))]
            exact Function.update_of_ne (fun hc => hrt hc.symm) ..
  · rw [if_neg hg] at h
    exact absurd h (by simp only [reduceCtorEq, not_false_eq_true])

/-- Whoever starts anew is not in the waiting queue yet. -/
theorem resets_not_waiting {e : Event} {s s' : Kernel} {v : View} (hinv : Inv s v)
    (hstep : step e s = some s') {t : Addr} (ht : e.resets s = some t) :
    t ∉ s.tasksIn s.waitingTasks := by
  -- The block of a new task is a free chunk, and those of the waiting tasks are in use.
  have hfresh : ∀ {c : Chunks}, c.Free s → c.tcb ∉ s.tasksIn s.waitingTasks := by
    intro c hfree hc
    have hlive := (tasksIn_perm hinv.consistent).mem_iff.mp (List.mem_append_right _ hc)
    have hocc := consistent_live_occupied hinv.consistent hlive
    have hne : c.tcb ≠ NULL := fun hn => hinv.consistent.nonnull (by rwa [← hn])
    exact hfree.2 c.tcb (mem_granted.mpr ⟨Or.inr (Or.inl rfl), hne⟩) hocc
  have hen := (step_enabled hstep).1
  cases e with
  | blockCurrentTask =>
      rw [Event.resets, Option.some.injEq] at ht
      rw [← ht]
      exact (caller_not_waiting hinv hen).2
  | createTask c slot ramLocation =>
      rw [Event.resets, Option.some.injEq] at ht
      rw [← ht]
      exact hfresh hen.2.1
  | createIdle c slot =>
      rw [Event.resets, Option.some.injEq] at ht
      rw [← ht]
      exact hfresh hen.2
  | _ => simp only [Event.resets, reduceCtorEq] at ht

theorem kernelStep_inv {e : Event} {s s' : SleepSystem} (h : SleepInv s)
    (hC : SleepsAlone s (.kernel e)) (hstep : kernelStep e s = some s') : SleepInv s' := by
  have hks := kernelStep_some hstep
  rcases h.kernel with ⟨v, hinv⟩
  rcases step_tasks hinv hks.step with ⟨⟨v', hinv'⟩, hchg⟩
  rcases step_distinctPids hinv h.pids hC.1 hks.step with ⟨_, _, hpids⟩
  have hout : Outstanding s' ↔ Outstanding s := by rw [Outstanding, Outstanding, hks.timer]
  -- A task that still sleeps has not started anew, so it was there before.
  have hkeep : ∀ t, s'.stage t ≠ none ∨ s'.slept t = true → e.resets s.kernel ≠ some t := by
    intro t ht hr
    rcases ht with ht | ht
    · rw [hks.stage, if_pos hr] at ht
      exact ht rfl
    · rw [hks.slept, if_pos hr] at ht
      exact Bool.noConfusion ht
  have hasleep : ∀ t, Asleep s' t → Asleep s t := by
    rintro t ⟨hw, hs⟩
    have hr := hkeep t (Or.inr hs)
    rw [hks.slept, if_neg hr] at hs
    rcases hchg.waiters t hw with hw | ⟨he, ht⟩ | ⟨hr', _⟩
    · exact ⟨hw, hs⟩
    · rw [he, ht] at hr
      exact absurd rfl hr
    · exact absurd hr' hr
  have hstage : ∀ t, s'.stage t ≠ none → s'.stage t = s.stage t := by
    intro t ht
    rw [hks.stage, if_neg (hkeep t (Or.inl ht))]
  refine sleepInv_of_fewer h ⟨v', hinv'⟩ hpids hks.request hout (fun t ht hst => ?_)
    (fun t ht hst => ?_) (fun ho t ht hpid => ?_)
  · have hr : e.resets s.kernel ≠ some t := hkeep t (hst.imp id And.right)
    rcases hchg.live t ht with ⟨hlive, hpid⟩ | ⟨hr', _⟩
    · refine ⟨hlive, ?_, hpid⟩
      rcases hst with hst | hst
      · exact Or.inl (hstage t hst ▸ hst)
      · exact Or.inr (hasleep t hst)
    · exact absurd hr' hr
  · rcases hst with hst | hst
    · left
      rw [← hstage t (by rw [hst]; exact Option.some_ne_none _)]
      exact hst
    · exact Or.inr (hasleep t hst)
  · rcases hchg.waiters t ht with hw | ⟨he, hcur⟩ | ⟨_, hcreate, hnew, hzero⟩
    · have hlive := waiters_live hinv hw
      have hr : e.resets s.kernel ≠ some t := fun hr => resets_not_waiting hinv hks.step hr hw
      rcases hchg.live t (waiters_live hinv' ht) with ⟨_, hsame⟩ | ⟨_, _, hnot, _⟩
      · rw [hks.slept, if_neg hr]
        exact h.exact ho t hw (hsame.symm.trans hpid)
      · exact absurd hlive hnot
    · rcases hchg.live t (waiters_live hinv' ht) with ⟨_, hsame⟩ | ⟨_, hcreate, _⟩
      · rw [hsame, hcur] at hpid
        exact absurd hpid.symm (hC.2.1 he ho)
      · rw [he] at hcreate
        exact Bool.noConfusion hcreate
    · rcases hchg.live t (waiters_live hinv' ht) with ⟨hlive, _⟩ | ⟨_, _, _, hsame⟩
      · exact absurd hlive hnew
      · rw [hsame, hzero] at hpid
        exact absurd hpid.symm (hC.2.2 hcreate hzero ho)

theorem stage_update (s : SleepSystem) (stage : Option SleepStage) {t : Addr}
    (ht : t ≠ s.caller) : Function.update s.stage s.caller stage t = s.stage t :=
  Function.update_of_ne ht ..

/-- Calling `task_sleep` while nobody else sleeps. -/
theorem taskSleep_inv {ticks : Nat} {s s' : SleepSystem} (h : SleepInv s)
    (hC : SleepsAlone s (.taskSleep ticks)) (hstep : taskSleep ticks s = some s') :
    SleepInv s' := by
  unfold taskSleep at hstep
  by_cases hg : Thread s.kernel ∧ s.stage s.caller = none
  · rw [if_pos hg, Option.some.injEq] at hstep
    rcases h.kernel with ⟨v, hinv⟩
    rcases caller_not_waiting hinv hg.1 with ⟨hlive, hnot⟩
    -- The condition: nobody but the caller sleeps or is about to.
    have honly : ∀ t ∈ s.kernel.live, Sleeping s' t → t = s.caller := by
      intro t ht hst
      by_contra hne
      rw [← hstep] at hst
      rcases hst with hst | hst
      · exact hst ((stage_update s _ hne).trans (hC t ht).1)
      · exact (hC t ht).2 hst
    rw [← hstep] at honly ⊢
    refine ⟨h.kernel, h.pids, fun t ht u hu hst hsu => ?_, fun t ht hst => ?_,
      fun t ht hst => ?_, fun ho t ht hpid => ?_⟩
    · exact (honly t ht hst).trans (honly u hu hsu).symm
    · rw [honly t ht hst]
    · have hself := honly t ht (hst.imp (fun hc => by rw [hc]; exact Option.some_ne_none _) id)
      rcases hst with hst | hst
      · rw [hself] at hst
        have hreq : some (SleepStage.requested ticks) = some .started :=
          (Function.update_self s.caller _ s.stage).symm.trans hst
        exact SleepStage.noConfusion (Option.some.inj hreq)
      · exact absurd hst (hC t ht).2
    · -- The caller is the one named, and it does not wait.
      have hself := h.pids t (waiters_live hinv ht) s.caller hlive hpid
      rw [hself] at ht
      exact absurd ht hnot
  · rw [if_neg hg] at hstep
    exact absurd hstep (by simp only [reduceCtorEq, not_false_eq_true])

/-- A statement of `task_sleep` that moves the caller from one stage to the
    next and writes a timer register. -/
theorem advance_stage_inv {s : SleepSystem} (h : SleepInv s) {timer : Timer}
    {stage : SleepStage} (hcaller : s.stage s.caller ≠ none)
    (hflag : timer.cc1if = s.timer.cc1if)
    (hcen : timer.cen = s.timer.cen ∧ stage ≠ .started ∨
      timer.cen = true ∧ Thread s.kernel) :
    SleepInv { s with
      timer := timer
      stage := Function.update s.stage s.caller (some stage) } := by
  rcases h.kernel with ⟨v, hinv⟩
  set s' : SleepSystem := { s with
    timer := timer
    stage := Function.update s.stage s.caller (some stage) } with hs'
  -- Going on makes nobody a sleeper, and a wakeup that is due stays due.
  have hsleeping : ∀ t, Sleeping s' t → Sleeping s t := by
    intro t hst
    by_cases hne : t = s.caller
    · rw [hne]
      exact Or.inl hcaller
    · rcases hst with hst | hst
      · exact Or.inl (stage_update s _ hne ▸ hst)
      · exact Or.inr hst
  have harm : Outstanding s → Outstanding s' := by
    rintro (ho | ho)
    · rcases hcen with ⟨hsame, _⟩ | ⟨htrue, _⟩
      · exact Or.inl (hsame.trans ho)
      · exact Or.inl htrue
    · exact Or.inr (hflag.trans ho)
  refine ⟨h.kernel, h.pids, fun t ht u hu hst hsu => ?_, fun t ht hst => ?_, fun t ht hst => ?_,
    fun ho t ht hpid => ?_⟩
  · exact h.one t ht u hu (hsleeping t hst) (hsleeping u hsu)
  · exact h.named t ht (hsleeping t hst)
  · rcases hcen with ⟨_, hstage⟩ | ⟨htrue, _⟩
    · refine harm (h.armed t ht (hst.imp (fun hc => ?_) id))
      by_cases hne : t = s.caller
      · rw [hne] at hc
        have hself := (Function.update_self s.caller (some stage) s.stage).symm.trans hc
        exact absurd (Option.some.inj hself) hstage
      · exact (stage_update s _ hne).symm.trans hc
    · exact Or.inl htrue
  · rcases hcen with ⟨hsame, _⟩ | ⟨_, hthread⟩
    · refine h.exact ?_ t ht hpid
      rcases ho with ho | ho
      · exact Or.inl (hsame.symm.trans ho)
      · exact Or.inr (hflag.symm.trans ho)
    · -- Starting the timer makes a wakeup due that names the caller.
      rcases caller_not_waiting hinv hthread with ⟨hlive, hnot⟩
      have hname := h.named s.caller hlive (Or.inl hcaller)
      have hself := h.pids t (waiters_live hinv ht) s.caller hlive (hpid.trans hname)
      have hw : t ∈ s.waiters := ht
      rw [hself] at hw
      exact absurd hw hnot

/-- The block at the end of `task_sleep`. -/
theorem advance_block_inv {s : SleepSystem} {k : Kernel} (h : SleepInv s)
    (hstage : s.stage s.caller = some .started)
    (hstep : step .blockCurrentTask s.kernel = some k) :
    SleepInv { s with
      kernel := k
      stage := Function.update s.stage s.caller none
      slept := Function.update s.slept s.caller true } := by
  rcases h.kernel with ⟨v, hinv⟩
  rcases step_tasks hinv hstep with ⟨⟨v', hinv'⟩, hchg⟩
  have hfresh : FreshPid s.kernel .blockCurrentTask := fun hc => Bool.noConfusion hc
  rcases step_distinctPids hinv h.pids hfresh hstep with ⟨_, _, hpids⟩
  set s' : SleepSystem := { s with
    kernel := k
    stage := Function.update s.stage s.caller none
    slept := Function.update s.slept s.caller true } with hs'
  -- A block creates no task and adds one to those that wait.
  have hlive : ∀ t ∈ k.live, t ∈ s.kernel.live ∧ (k.tcb t).pid = (s.kernel.tcb t).pid := by
    intro t ht
    rcases hchg.live t ht with hold | ⟨_, hcreate, _⟩
    · exact hold
    · exact Bool.noConfusion hcreate
  have hwaiters : ∀ t ∈ s'.waiters, t ∈ s.waiters ∨ t = s.caller := by
    intro t ht
    rcases hchg.waiters t ht with hw | ⟨_, hcur⟩ | ⟨_, hcreate, _⟩
    · exact Or.inl hw
    · exact Or.inr hcur
    · exact Bool.noConfusion hcreate
  have hself : Sleeping s s.caller := Or.inl (by rw [hstage]; exact Option.some_ne_none _)
  -- The others sleep if they did before; the caller was inside `task_sleep`.
  have hasleep : ∀ t, t ≠ s.caller → Asleep s' t → Asleep s t := by
    rintro t hne ⟨hw, hs⟩
    refine ⟨(hwaiters t hw).resolve_right hne, ?_⟩
    rw [← hs]
    exact (Function.update_of_ne hne ..).symm
  refine sleepInv_of_fewer h ⟨v', hinv'⟩ hpids rfl Iff.rfl (fun t ht hst => ?_)
    (fun t ht hst => ?_) (fun ho t ht hpid => ?_)
  · rcases hlive t ht with ⟨ht', hpid⟩
    refine ⟨ht', ?_, hpid⟩
    by_cases hne : t = s.caller
    · rw [hne]
      exact hself
    · rcases hst with hst | hst
      · exact Or.inl (stage_update s _ hne ▸ hst)
      · exact Or.inr (hasleep t hne hst)
  · by_cases hne : t = s.caller
    · rw [hne]
      exact Or.inl hstage
    · rcases hst with hst | hst
      · exact Or.inl ((stage_update s _ hne).symm.trans hst)
      · exact Or.inr (hasleep t hne hst)
  · by_cases hne : t = s.caller
    · rw [hne]
      exact Function.update_self ..
    -- Another task that waits under the stored identifier did so before.
    · have hw := (hwaiters t ht).resolve_right hne
      rw [(hlive t (waiters_live hinv' ht)).2] at hpid
      exact (Function.update_of_ne hne ..).trans (h.exact ho t hw hpid)

theorem advance_inv {s s' : SleepSystem} (h : SleepInv s) (hstep : advance s = some s') :
    SleepInv s' := by
  unfold advance at hstep
  by_cases hg : Thread s.kernel
  · rw [if_pos hg] at hstep
    cases hstage : s.stage s.caller with
    | none => simp only [hstage, reduceCtorEq] at hstep
    | some stage =>
        have hsome : s.stage s.caller ≠ none := by
          rw [hstage]
          exact Option.some_ne_none _
        -- Three statements that set up the timer, and the block.
        cases stage with
        | requested ticks =>
            simp only [hstage, Option.some.injEq] at hstep
            rw [← hstep]
            exact advance_stage_inv h hsome rfl
              (Or.inl ⟨rfl, fun hc => SleepStage.noConfusion hc⟩)
        | compared =>
            simp only [hstage, Option.some.injEq] at hstep
            rw [← hstep]
            exact advance_stage_inv h hsome rfl
              (Or.inl ⟨rfl, fun hc => SleepStage.noConfusion hc⟩)
        | flushed =>
            simp only [hstage, Option.some.injEq] at hstep
            rw [← hstep]
            exact advance_stage_inv h hsome rfl (Or.inr ⟨rfl, hg⟩)
        | started =>
            simp only [hstage] at hstep
            rcases Option.map_eq_some_iff.mp hstep with ⟨k, hk, rfl⟩
            exact advance_block_inv h hstage hk
  · rw [if_neg hg] at hstep
    exact absurd hstep (by simp only [reduceCtorEq, not_false_eq_true])

theorem tick_outstanding (t : Timer) :
    (t.tick.cen = true ∨ t.tick.cc1if = true) ↔ (t.cen = true ∨ t.cc1if = true) := by
  unfold Timer.tick
  by_cases hcen : t.cen = true
  · simp only [hcen, if_true, true_or]
  · simp only [hcen, Bool.false_eq_true, if_false]

/-- A count of the timer makes no wakeup due that was not. -/
theorem tick_inv {s : SleepSystem} (h : SleepInv s) :
    SleepInv { s with timer := s.timer.tick } :=
  sleepInv_of_fewer h h.kernel h.pids rfl (tick_outstanding s.timer)
    (fun _ ht hst => ⟨ht, hst, rfl⟩) (fun _ _ hst => hst) h.exact

/-- The interrupt wakes the one sleeper there is, unless it comes before the
    block. -/
theorem tim3Isr_inv {s : SleepSystem} (h : SleepInv s) (hC : SleepsAlone s .tim3Isr)
    (hflag : s.timer.cc1if = true) : SleepInv (tim3IsrHandler s) := by
  rcases h.kernel with ⟨v, hinv⟩
  have hstep : step (.wakeupPid s.request) s.kernel = some (wakeupPid s.request s.kernel).2 := rfl
  rcases step_tasks hinv hstep with ⟨⟨v', hinv'⟩, hchg⟩
  have hfresh : FreshPid s.kernel (.wakeupPid s.request) := fun hc => Bool.noConfusion hc
  rcases step_distinctPids hinv h.pids hfresh hstep with ⟨_, _, hpids⟩
  -- The wakeup leaves nobody waiting who has the stored identifier.
  have hclear := (wakeupPid_waiters hinv.consistent s.request).2 h.pids
  have heq : tim3IsrHandler s = { s with
      timer := s.timer.stop.acknowledge
      kernel := (wakeupPid s.request s.kernel).2 } := if_pos hflag
  rw [heq]
  set s' : SleepSystem := { s with
    timer := s.timer.stop.acknowledge
    kernel := (wakeupPid s.request s.kernel).2 } with hs'
  -- It creates nobody, and puts nobody to sleep.
  have hlive : ∀ t ∈ s'.kernel.live, t ∈ s.kernel.live ∧
      (s'.kernel.tcb t).pid = (s.kernel.tcb t).pid := by
    intro t ht
    rcases hchg.live t ht with hold | ⟨hr, _⟩
    · exact hold
    · exact absurd hr (Option.some_ne_none _).symm
  have hasleep : ∀ t, Asleep s' t → Asleep s t := by
    rintro t ⟨hw, hs⟩
    rcases hchg.waiters t hw with hw | ⟨hc, _⟩ | ⟨hr, _⟩
    · exact ⟨hw, hs⟩
    · exact Event.noConfusion hc
    · exact absurd hr (Option.some_ne_none _).symm
  have hsleeping : ∀ t, Sleeping s' t → Sleeping s t := fun t hst => hst.imp id (hasleep t)
  refine ⟨⟨v', hinv'⟩, hpids, fun t ht u hu hst hsu => ?_, fun t ht hst => ?_,
    fun t ht hst => ?_, fun ho => ?_⟩
  · exact h.one t (hlive t ht).1 u (hlive u hu).1 (hsleeping t hst) (hsleeping u hsu)
  · rw [(hlive t ht).2]
    exact h.named t (hlive t ht).1 (hsleeping t hst)
  · rcases hst with hst | hst
    · exact absurd hst (hC t (hlive t ht).1)
    · -- Nobody named is left in the waiting queue.
      have hname := h.named t (hlive t ht).1 (Or.inr (hasleep t hst))
      exact absurd hname.symm (hclear t hst.1)
  · rcases ho with ho | ho
    · exact Bool.noConfusion ho
    · exact Bool.noConfusion ho

/-- Every step that meets the condition keeps the invariant. -/
theorem sleepStep_inv {e : SleepEvent} {s s' : SleepSystem} (h : SleepInv s)
    (hC : SleepsAlone s e) (hstep : sleepStep e s = some s') : SleepInv s' := by
  cases e with
  | kernel e => exact kernelStep_inv h hC hstep
  | taskSleep ticks => exact taskSleep_inv h hC hstep
  | advance => exact advance_inv h hstep
  | tick =>
      rw [← Option.some.inj hstep]
      exact tick_inv h
  | tim3Isr =>
      unfold sleepStep at hstep
      by_cases hflag : s.timer.cc1if = true
      · simp only [if_pos hflag, Option.some.injEq] at hstep
        rw [← hstep]
        exact tim3Isr_inv h hC hflag
      · simp only [if_neg hflag, reduceCtorEq] at hstep

/-- The kernel after `init_scheduler`, the timer stopped, nobody sleeping. -/
def SleepInitialized (s : SleepSystem) : Prop :=
  Initialized s.kernel ∧ s.timer.cen = false ∧ s.timer.cc1if = false ∧
    (∀ t, s.stage t = none) ∧ ∀ t, s.slept t = false

theorem sleepInitialized_inv {s : SleepSystem} (h : SleepInitialized s) : SleepInv s := by
  rcases h with ⟨hinit, hcen, hflag, _, _⟩
  rcases initScheduler_inv hinit with ⟨hinv, hlive, _⟩
  have hnone : ∀ t, t ∉ s.kernel.live := by
    intro t ht
    rw [hlive] at ht
    exact absurd ht List.not_mem_nil
  refine ⟨⟨_, hinv⟩, fun t ht => absurd ht (hnone t), fun t ht => absurd ht (hnone t),
    fun t ht => absurd ht (hnone t), fun t ht => absurd ht (hnone t), fun ho => ?_⟩
  rcases ho with ho | ho
  · exact Bool.noConfusion (hcen.symm.trans ho)
  · exact Bool.noConfusion (hflag.symm.trans ho)

theorem sleepInv_noLostSleep {s : SleepSystem} (h : SleepInv s) :
    NoLostSleep s ∧ WakesSleepersOnly s := by
  rcases h.kernel with ⟨v, hinv⟩
  refine ⟨fun t ht hs => ?_, fun t ht hgone => ?_⟩
  · have hlive := waiters_live hinv ht
    exact ⟨h.armed t hlive (Or.inr ⟨ht, hs⟩), h.named t hlive (Or.inr ⟨ht, hs⟩)⟩
  · by_cases hflag : s.timer.cc1if = true
    · have heq : (tim3IsrHandler s).kernel = (wakeupPid s.request s.kernel).2 := by
        rw [tim3IsrHandler, if_pos hflag]
      rcases (wakeupPid_waiters hinv.consistent s.request).1 t ht with hpid | hstays
      · exact h.exact (Or.inr hflag) t ht hpid
      · rw [SleepSystem.waiters, heq] at hgone
        exact absurd hstays hgone
    · rw [tim3IsrHandler, if_neg hflag] at hgone
      exact absurd ht hgone

/-- In every run whose steps all meet the condition, in every state reached, no
    sleep is lost and the interrupt wakes nobody who waits for something
    else. -/
theorem sleepers_awaited (s₀ s : SleepSystem) (es : List SleepEvent)
    (hinit : SleepInitialized s₀) (halone : Meets sleepStep SleepsAlone es s₀)
    (hrun : run sleepStep es s₀ = some s) : NoLostSleep s ∧ WakesSleepersOnly s := by
  refine sleepInv_noLostSleep (run_invariant sleepStep SleepInv ?_ es s₀ s
    (sleepInitialized_inv hinit) halone hrun)
  exact fun _ _ _ h hC hstep => sleepStep_inv h hC hstep

/-- Nobody sleeps in the fresh kernel. -/
def freshSystem : SleepSystem :=
  { kernel := freshKernel
    timer := { cen := false, cc1if := false, cnt := 0, ccr1 := 0 }
    request := 0
    stage := fun _ => none
    slept := fun _ => false }

/-- Start-up, two tasks besides the idle task, and a switch to the first. -/
def twoTasks : List SleepEvent :=
  (startUp ++ [Event.createTask (chunksFrom 20) 3 0, Event.createTask (chunksFrom 30) 3 0,
    Event.yieldTask, Event.pendsv 8]).map SleepEvent.kernel

/-- A whole `task_sleep`. -/
def wholeSleep (ticks : Nat) : List SleepEvent :=
  [.taskSleep ticks, .advance, .advance, .advance, .advance, .kernel (.pendsv 8)]

theorem sleepers_awaited_inTurn :
    Ends sleepStep (twoTasks ++ wholeSleep 1 ++ [.tick]) freshSystem fun s =>
      Asleep s (chunksFrom 20).tcb ∧ NoLostSleep s ∧ WakesSleepersOnly s := by
  have hends : Ends sleepStep (twoTasks ++ wholeSleep 1 ++ [.tick]) freshSystem fun s =>
      Asleep s (chunksFrom 20).tcb := by decide +kernel
  rcases hends with ⟨s, hs, hasleep⟩
  exact ⟨s, hs, hasleep, sleepers_awaited freshSystem s _
    ⟨freshKernel_initialized, rfl, rfl, fun _ => rfl, fun _ => rfl⟩ (by decide +kernel) hs⟩

/-- Two sleeps overlap, and the first sleeper is named by nobody; or the
    interrupt comes between the start of the timer and the block, and no wakeup
    is due for the sleeper. -/
theorem sleep_lost :
    (Ends sleepStep (twoTasks ++ wholeSleep 5 ++ wholeSleep 5) freshSystem fun s =>
      Asleep s (chunksFrom 20).tcb ∧ ¬ NoLostSleep s) ∧
    (Ends sleepStep (twoTasks ++ [.taskSleep 1, .advance, .advance, .advance, .tick, .tim3Isr,
      .advance]) freshSystem fun s =>
      Asleep s (chunksFrom 20).tcb ∧ ¬ Outstanding s ∧ ¬ NoLostSleep s) := by
  decide +kernel

end NextLevelRTOS
