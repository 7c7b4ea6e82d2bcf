import NextLevelRTOS.Process.Creation
import NextLevelRTOS.Process.Reaping
import NextLevelRTOS.Process.Switch

/-!
# Reachable States

The control fields on top of consistent queues. `Inv` says where the pointers
to the current task point, that thread code only runs for a ready task whose
registers will be saved, and that nothing has been switched before start-up is
complete.

Every event has one of four outcomes for the tasks: nodes move, a chunk is
taken for an image, a task is created or its creation fails, or dead tasks are
reaped. `Outcome` names them, and `step_outcome` is the one case split over
the events; whatever else is shown of runs is a case split over outcomes.

## Main definitions

* `Inv`: The invariant between any two events.
* `Event.creates`: The chunks and the image of an event that creates.
* `Steered`: What a move does to the control fields.
* `Outcome`: What an event does to the tasks.
* `Initialized`: The states runs start from.

## Theorems

* `step_outcome`: Every event keeps the invariant and has an outcome.
* `initScheduler_cases`: What `init_scheduler` does.
* `initScheduler_inv`: The invariant holds after `init_scheduler`.
* `run_inv`: The invariant holds along every run.
-/

namespace NextLevelRTOS

open Machine

/-- The invariant between any two events. -/
structure Inv (s : Kernel) (v : View) : Prop where
  consistent : Consistent s v
  boot : s.booted = false →
    s.pendsv = false ∧ s.currentlyRunning = NULL ∧ ∀ n ∈ v.running, s.stateOf n = .READY
  current : s.currentlyRunning ≠ NULL → s.currentlyRunning ∈ v.running
  preserve : s.taskToPreserve ≠ NULL → s.taskToPreserve ∈ v.nodes
  thread : Thread s →
    s.stateOf s.currentlyRunning = .READY ∧ s.taskToPreserve = s.currentlyRunning
  pending : s.pendsv = true → s.taskToPreserve ≠ NULL

/-- The chunks and the image of an event that creates a task. -/
def Event.creates : Event → Option (Chunks × Addr)
  | .createTask c _ ramLocation => some (c, ramLocation)
  | .createIdle c _ => some (c, 0)
  | _ => none

/-- What an event that creates and reaps nothing does to the control fields of
    a running system: it requests a switch, it leaves them alone, or it is the
    switch. -/
structure Steered (s s' : Kernel) (v' : View) : Prop where
  booted : s'.booted = true
  control : s'.pendsv = true ∨
    (s'.currentlyRunning = s.currentlyRunning ∧ s'.pendsv = s.pendsv) ∨
    Chosen s' v' ∨ Stuck s' v'

/-- What an event does to the tasks. -/
inductive Outcome (e : Event) (s s' : Kernel) (v v' : View) : Prop where
  | moved (h : Moved s s' v v') (hsteer : s.booted = true → Steered s s' v')
      (hwait : ∀ n ∈ v'.waiting, n ∈ v.waiting ∨
        (e = .blockCurrentTask ∧ n = s.currentlyRunning))
  | image (a : Addr) (h : FreeChunk a s)
      (hs' : s' = { s.allocate a with images := a :: s.images }) (hv : v' = v)
  | notCreated (c : Chunks) (ramLocation : Addr) (he : e.creates = some (c, ramLocation))
      (hkeep : Untouched c s s') (h : NotCreated s s' v v')
  | created (c : Chunks) (ramLocation : Addr) (he : e.creates = some (c, ramLocation))
      (hkeep : Untouched c s s') (h : Created c ramLocation s s' v v')
  | reaped (he : e = .searchInvalidateTasks) (h : Reaped s s' v v')

section Events

variable {s : Kernel} {v : View}

theorem inv_current_running (h : Inv s v) (hthread : Thread s) : s.currentlyRunning ∈ v.running :=
  h.current hthread.2.2

theorem inv_preserve_current (h : Inv s v) (hthread : Thread s) :
    s.taskToPreserve ≠ NULL ∧ s.taskToPreserve ∈ v.nodes := by
  rw [(h.thread hthread).2]
  exact ⟨hthread.2.2, List.mem_append_left _ (inv_current_running h hthread)⟩

/-- A move that ends with a switch pending. -/
theorem inv_pend {s' : Kernel} {v' : View} (h : Moved s s' v v') (hbooted : s'.booted = true)
    (hpendsv : s'.pendsv = true)
    (hcur : s'.currentlyRunning ≠ NULL → s'.currentlyRunning ∈ v'.running)
    (hpreserve : s'.taskToPreserve ≠ NULL ∧ s'.taskToPreserve ∈ v.nodes) : Inv s' v' := by
  refine ⟨h.consistent, fun hc => ?_, hcur, fun _ => (moved_mem h _).mpr hpreserve.2,
    fun hc => ?_, fun _ => hpreserve.1⟩
  · exact Bool.noConfusion (hbooted.symm.trans hc)
  · exact Bool.noConfusion (hpendsv.symm.trans hc.2.1)

/-- Blocking leaves the predecessor current, or nobody. -/
theorem blockCurrentTask_current (h : Consistent s v) (hcur : s.currentlyRunning ∈ v.running) :
    (blockCurrentTask s).currentlyRunning ≠ NULL →
      (blockCurrentTask s).currentlyRunning ∈ (v.block s.currentlyRunning).running := by
  have hsize : (isolateNode s.node s.runningTasks s.currentlyRunning).2.size =
      (v.running.erase s.currentlyRunning).length :=
    (isolateNode_represents h.running hcur).size
  rw [blockCurrentTask_eq]
  dsimp only
  by_cases hlen : 0 < (isolateNode s.node s.runningTasks s.currentlyRunning).2.size
  · rw [if_pos hlen]
    intro _
    rw [hsize, List.length_erase_of_mem hcur] at hlen
    exact (represents_neighbours_mem_erase h.running hcur (by omega)).2
  · rw [if_neg hlen]
    exact fun hc => absurd rfl hc

theorem blockCurrentTask_inv (h : Inv s v) (hthread : Thread s) :
    Moved s (blockCurrentTask s) v (v.block s.currentlyRunning) ∧
      Inv (blockCurrentTask s) (v.block s.currentlyRunning) := by
  have hcur := inv_current_running h hthread
  have hmoved : Moved s (blockCurrentTask s) v (v.block s.currentlyRunning) :=
    ⟨blockCurrentTask_frame s, blockCurrentTask_consistent h.consistent hcur,
      block_nodes_perm hcur, rfl⟩
  refine ⟨hmoved, inv_pend hmoved hthread.1 rfl
    (blockCurrentTask_current h.consistent hcur) ⟨hthread.2.2, ?_⟩⟩
  exact List.mem_append_left _ hcur

theorem wakeupPid_inv (h : Inv s v) (pid : Nat) :
    ∃ v', Moved s (wakeupPid pid s).2 v v' ∧ v'.waiting ⊆ v.waiting ∧
      Inv (wakeupPid pid s).2 v' := by
  rcases wakeupPid_moved h.consistent pid with ⟨v', hw⟩
  have hc := wakeupPid_control pid s
  refine ⟨v', hw.moved, hw.waiting, hw.moved.consistent, fun hb => ?_, fun hn => ?_,
    fun hn => ?_, fun ht => ?_, fun hp => ?_⟩
  -- Before the scheduler runs all tasks in the running queue are ready.
  · rw [hc.booted] at hb
    rcases h.boot hb with ⟨hpend, hcur, hready⟩
    refine ⟨hc.pendsv.trans hpend, hc.current.trans hcur, fun n hn => ?_⟩
    have hmem := (moved_mem hw.moved n).mp (List.mem_append_left _ hn)
    rcases hw.states n hmem with hs | ⟨_, _, hs⟩
    · rcases List.mem_append.mp hmem with hr | hwait
      · rw [hs]
        exact hready n hr
      · have hne := hw.moved.consistent.runningState n hn
        rw [hs] at hne
        exact absurd (h.consistent.waitingState n hwait) hne
    · exact hs
  · rw [hc.current] at hn ⊢
    exact hw.running _ (h.current hn)
  · rw [hc.preserve] at hn ⊢
    exact (moved_mem hw.moved _).mpr (h.preserve hn)
  -- The current task keeps its state, or has been made ready.
  · have ht' : Thread s := ⟨hc.booted.symm.trans ht.1, hc.pendsv.symm.trans ht.2.1, by
      rw [← hc.current]; exact ht.2.2⟩
    rcases h.thread ht' with ⟨hready, hpres⟩
    rw [hc.current, hc.preserve]
    refine ⟨?_, hpres⟩
    rcases hw.states _ (List.mem_append_left _ (h.current ht'.2.2)) with hs | ⟨_, _, hs⟩
    · rw [hs]
      exact hready
    · exact hs
  · rw [hc.pendsv] at hp
    rw [hc.preserve]
    exact h.pending hp

/-- The current task may be given a state in which it is not waiting, and
    nobody else's state changes. -/
theorem setState_current_moved (h : Inv s v) (hthread : Thread s) {state : TaskState}
    (hstate : state ≠ .WAITING) :
    Moved s (s.setState (s.dataOf s.currentlyRunning) state) v v :=
  ⟨frame_setState s _ state,
    consistent_setState h.consistent (inv_current_running h hthread) hstate,
    List.Perm.refl _, rfl⟩

theorem invalidateCurrentTask_inv (h : Inv s v) (hthread : Thread s) :
    Moved s (invalidateCurrentTask s) v v ∧ Inv (invalidateCurrentTask s) v := by
  have hset := setState_current_moved h hthread
    (show TaskState.INVALID ≠ .WAITING from fun hc => TaskState.noConfusion hc)
  have hmoved : Moved s (invalidateCurrentTask s) v v := moved_control hset ..
  have hcur := inv_current_running h hthread
  have hpres := inv_preserve_current h hthread
  exact ⟨hmoved, inv_pend hmoved hthread.1 rfl (fun _ => hcur) hpres⟩

theorem finishTask_inv (h : Inv s v) (hthread : Thread s) (stale : Tcb) :
    ∃ v', Moved s (finishTask stale s) v v' ∧ v'.waiting ⊆ v.waiting ∧
      Inv (finishTask stale s) v' ∧ (finishTask stale s).booted = s.booted := by
  have hset := setState_current_moved h hthread
    (show TaskState.FINISHED ≠ .WAITING from fun hc => TaskState.noConfusion hc)
  have hcur := inv_current_running h hthread
  set s₁ := s.setState (s.dataOf s.currentlyRunning) .FINISHED with hs₁
  -- A parent that waits is moved over, and the current task stays where it is.
  have hwake : ∃ v', Moved s₁ (wakeJoiningParent stale (s.dataOf s.currentlyRunning) s₁) v v' ∧
      (∀ n ∈ v.running, n ∈ v'.running) ∧ v'.waiting ⊆ v.waiting ∧
      SameControl s₁ (wakeJoiningParent stale (s.dataOf s.currentlyRunning) s₁) := by
    unfold wakeJoiningParent
    dsimp only
    split
    · rcases wakeupPid_moved hset.consistent
        (readTcb stale (s₁.tcb (s.dataOf s.currentlyRunning)).parentTask s₁).pid with ⟨v', hw⟩
      exact ⟨v', hw.moved, hw.running, hw.waiting, wakeupPid_control _ s₁⟩
    · exact ⟨v, moved_refl hset.consistent, fun n hn => hn, List.Subset.refl _, sameControl_refl s₁⟩
  rcases hwake with ⟨v', hmoved, hrunning, hwait, hcontrol⟩
  have hall : Moved s (finishTask stale s) v v' := moved_control (moved_trans hset hmoved) ..
  refine ⟨v', hall, hwait, inv_pend hall (hcontrol.booted.trans hthread.1) rfl (fun _ => ?_) ?_,
    hcontrol.booted⟩
  · change (wakeJoiningParent stale (s.dataOf s.currentlyRunning) s₁).currentlyRunning ∈ v'.running
    rw [hcontrol.current]
    exact hrunning _ hcur
  · have hpreserve : (finishTask stale s).taskToPreserve = s.taskToPreserve := hcontrol.preserve
    rw [hpreserve]
    exact inv_preserve_current h hthread

theorem svcallYieldTask_inv (h : Inv s v) (hthread : Thread s) :
    Moved s (svcallYieldTask s) v v ∧ Inv (svcallYieldTask s) v := by
  have hmoved : Moved s (svcallYieldTask s) v v := moved_control (moved_refl h.consistent) ..
  have hcur := inv_current_running h hthread
  have hpres := inv_preserve_current h hthread
  exact ⟨hmoved, inv_pend hmoved hthread.1 rfl (fun _ => hcur) hpres⟩

/-- After a switch the chosen task runs, or nobody does and no thread code
    will. -/
theorem pendsvIsr_moved (h : Inv s v) (psp : Addr) :
    ∃ v', Moved s (pendsvIsr psp s) v v' ∧ v'.waiting ⊆ v.waiting ∧
      (Chosen (pendsvIsr psp s) v' ∨ Stuck (pendsvIsr psp s) v') ∧
      (pendsvIsr psp s).pendsv = false ∧ (pendsvIsr psp s).booted = s.booted := by
  set s₀ : Kernel := { s with pendsv := false } with hs₀
  have hclear : Moved s s₀ v v := moved_control (moved_refl h.consistent) ..
  set t := s₀.dataOf s₀.taskToPreserve with ht
  have hsave := (moved_setTcb hclear.consistent
    (show SameTask (s₀.tcb t) { s₀.tcb t with sp := psp } from
      ⟨rfl, rfl, rfl, rfl, rfl, rfl⟩) rfl).1
  rcases switchTask_moved hsave.consistent h.current with ⟨v', hswitch, hwait, hout⟩
  have hflags := switchTask_flags (s₀.setTcb t { s₀.tcb t with sp := psp })
  exact ⟨v', moved_trans hclear (moved_trans hsave hswitch), hwait, hout, hflags.1, hflags.2⟩

theorem pendsvIsr_inv (h : Inv s v) (psp : Addr) (hpend : s.pendsv = true) :
    ∃ v', Moved s (pendsvIsr psp s) v v' ∧ v'.waiting ⊆ v.waiting ∧ Inv (pendsvIsr psp s) v' ∧
      (s.booted = true → Steered s (pendsvIsr psp s) v') := by
  rcases pendsvIsr_moved h psp with ⟨v', hmoved, hwait, hout, hclear, hbooted⟩
  have hboot : (pendsvIsr psp s).booted ≠ false := by
    rw [hbooted]
    exact fun hc => Bool.noConfusion (hpend.symm.trans (h.boot hc).1)
  refine ⟨v', hmoved, hwait, ⟨hmoved.consistent, fun hc => absurd hc hboot, ?_, ?_, ?_, ?_⟩,
    fun hb => ⟨hbooted.trans hb, Or.inr (Or.inr hout)⟩⟩
  -- The switch has chosen a ready task, or has found none and left both pointers null.
  · rcases hout with hch | hst
    · exact fun _ => hch.member
    · exact fun hc => absurd hst.current hc
  · rcases hout with hch | hst
    · rw [hch.preserve]
      exact fun _ => List.mem_append_left _ hch.member
    · exact fun hc => absurd hst.preserve hc
  · rcases hout with hch | hst
    · exact fun _ => ⟨hch.ready, hch.preserve⟩
    · exact fun hc => absurd hst.current hc.2.2
  · exact fun hc => Bool.noConfusion (hclear.symm.trans hc)

/-- No task waits and is ready, so a task that joins finds no child. -/
theorem checkTasksAvailability_none (h : Consistent s v) (pid : Nat) :
    checkTasksAvailability pid s = false := by
  unfold checkTasksAvailability
  by_cases hhead : s.waitingTasks.head = NULL
  · rw [if_pos hhead]
  · rw [if_neg hhead, findNode_eq _ h.waiting, Option.isSome_eq_false_iff,
      Option.isNone_iff_eq_none, List.find?_eq_none]
    intro n hn hc
    have hready := (of_decide_eq_true hc).2
    exact TaskState.noConfusion ((h.waitingState n hn).symm.trans hready)

/-- Joining does nothing. -/
theorem joinTask_id (h : Consistent s v) (pid : Nat) : joinTask pid s = s := by
  unfold joinTask
  rw [checkTasksAvailability_none h pid]
  rfl

theorem ensureRunning_moved (h : Inv s v) {s' : Kernel} (hs' : ensureRunning s = some s') :
    ∃ v', Moved s s' v v' ∧ v'.waiting ⊆ v.waiting ∧ Inv s' v' ∧ SameControl s s' := by
  unfold ensureRunning at hs'
  split at hs'
  · split at hs'
    · exact absurd hs' (by simp only [reduceCtorEq, not_false_eq_true])
    · rw [← Option.some.inj hs']
      rcases wakeupPid_inv h (toUnsigned s.idleTask) with ⟨v', hmoved, hwait, hinv⟩
      exact ⟨v', hmoved, hwait, hinv, wakeupPid_control _ s⟩
  · rw [← Option.some.inj hs']
    exact ⟨v, moved_refl h.consistent, List.Subset.refl _, h, sameControl_refl s⟩

/-- Start-up ends with a ready task current, or fails. -/
theorem runScheduler_inv (h : Inv s v) (hboot : s.booted = false) :
    ∃ v', Moved s (runScheduler s).2 v v' ∧ v'.waiting ⊆ v.waiting ∧ Inv (runScheduler s).2 v' ∧
      ((runScheduler s).1 = 0 → Chosen (runScheduler s).2 v' ∧
        (runScheduler s).2.booted = true ∧ (runScheduler s).2.pendsv = false) := by
  unfold runScheduler
  cases hens : ensureRunning s with
  | none =>
      exact ⟨v, moved_refl h.consistent, List.Subset.refl _, h,
        fun hc => by simp only at hc; omega⟩
  | some s₁ =>
      rcases ensureRunning_moved h hens with ⟨v', hmoved, hwait, hinv, hcontrol⟩
      rcases hinv.boot (hcontrol.booted.trans hboot) with ⟨hpend, hcur, hready⟩
      dsimp only
      -- With an empty queue the scheduler reports an error.
      by_cases hhead : s₁.runningTasks.head = NULL
      · rw [if_pos hhead]
        have hsame : { s₁ with currentlyRunning := s₁.runningTasks.head } = s₁ := by
          rw [hhead, ← hcur]
        rw [hsame]
        exact ⟨v', hmoved, hwait, hinv, fun hc => by simp only at hc; omega⟩
      · rw [if_neg hhead]
        have hmem : s₁.runningTasks.head ∈ v'.running := by
          rw [hmoved.consistent.running.head] at hhead ⊢
          cases hl : v'.running with
          | nil => rw [hl] at hhead; exact absurd rfl hhead
          | cons n l => exact List.mem_cons_self
        have hall := moved_control hmoved s₁.runningTasks.head s₁.runningTasks.head s₁.pendsv true
          s₁.cleanUpRequests s₁.dmaInterruptAction
        have hst := hready _ hmem
        refine ⟨v', hall, hwait, ⟨hall.consistent, fun hc => Bool.noConfusion hc, fun _ => hmem,
          fun _ => List.mem_append_left _ hmem, fun _ => ⟨hst, rfl⟩,
          fun hc => Bool.noConfusion (hpend.symm.trans hc)⟩,
          fun _ => ⟨⟨hhead, hmem, hst, rfl⟩, rfl, hpend⟩⟩

theorem untouched_stateOf (h : Inv s v) {c : Chunks} {s' : Kernel} (hkeep : Untouched c s s')
    {n : Addr} (hn : n ∈ v.nodes) : s'.stateOf n = s.stateOf n := by
  have hlive := (consistent_live_iff h.consistent _).mpr ⟨n, hn, rfl⟩
  rw [Kernel.stateOf, hkeep.data n (consistent_node_occupied h.consistent hn), hkeep.tcb _ hlive]
  rfl

/-- A creation leaves the current task and the tasks there were alone. -/
theorem untouched_inv (h : Inv s v) {c : Chunks} {s' : Kernel} {v' : View}
    (hcons : Consistent s' v') (hkeep : Untouched c s s')
    (hrun : ∀ n ∈ v.running, n ∈ v'.running) (hnodes : ∀ n ∈ v.nodes, n ∈ v'.nodes)
    (hready : s.booted = false → ∀ n ∈ v'.running, s'.stateOf n = .READY) : Inv s' v' := by
  refine ⟨hcons, fun hb => ?_, fun hn => ?_, fun hn => ?_, fun ht => ?_, fun hp => ?_⟩
  · rw [hkeep.booted] at hb
    rw [hkeep.pendsv, hkeep.current]
    exact ⟨(h.boot hb).1, (h.boot hb).2.1, hready hb⟩
  · rw [hkeep.current] at hn ⊢
    exact hrun _ (h.current hn)
  · rw [hkeep.preserve] at hn ⊢
    exact hnodes _ (h.preserve hn)
  -- The creation ends in the thread in which it began.
  · have ht' : Thread s := ⟨hkeep.booted.symm.trans ht.1, hkeep.pendsv.symm.trans ht.2.1, by
      rw [← hkeep.current]; exact ht.2.2⟩
    rw [hkeep.current, hkeep.preserve,
      untouched_stateOf h hkeep (List.mem_append_left _ (inv_current_running h ht'))]
    exact h.thread ht'
  · rw [hkeep.pendsv] at hp
    rw [hkeep.preserve]
    exact h.pending hp

theorem createTask_inv (h : Inv s v) {c : Chunks} {slot ramLocation : Addr} {result : Int}
    {s' : Kernel} (hfree : c.Free s) (himage : ramLocation = 0 ∨ ramLocation ∈ s.images)
    (hrun : createTask c slot ramLocation s = some (result, s')) :
    ∃ v', Inv s' v' ∧ Untouched c s s' ∧
      ((result = -1 ∧ NotCreated s s' v v') ∨
        (result = ((newTcb c ramLocation s).pid : Int) ∧ Created c ramLocation s s' v v')) := by
  rcases createTask_consistent h.consistent hfree himage hrun with
    ⟨hkeep, v', ⟨hres, hnot⟩ | ⟨hres, hnew⟩⟩
  -- A creation that fails leaves the queues as they are.
  · refine ⟨v', untouched_inv h hnot.consistent hkeep ?_ ?_ ?_, hkeep, Or.inl ⟨hres, hnot⟩⟩
    · rw [hnot.running]
      exact fun n hn => hn
    · rw [View.nodes, View.nodes, hnot.running, hnot.waiting]
      exact fun n hn => hn
    · rw [hnot.running]
      intro hb n hn
      rw [untouched_stateOf h hkeep (List.mem_append_left _ hn)]
      exact (h.boot hb).2.2 n hn
  -- One that succeeds adds a node to one of them.
  · have hmem : ∀ n ∈ v.nodes, n ∈ v'.nodes := by
      intro n hn
      rw [hnew.view]
      exact (insert_nodes_perm ..).mem_iff.mpr (List.mem_cons_of_mem _ hn)
    have hself : s'.stateOf c.queueNode = (newTcb c ramLocation s).state := by
      rw [Kernel.stateOf, hnew.node, hnew.tcb]
    have hrunning : v'.running = v.running ∨
        (v'.running = v.running ++ [c.queueNode] ∧ s'.stateOf c.queueNode = .READY) := by
      rw [hnew.view, View.insert, hself]
      rcases newTcb_state c ramLocation s with hst | hst
      · rw [hst]
        exact Or.inr ⟨rfl, rfl⟩
      · rw [hst]
        exact Or.inl rfl
    refine ⟨v', untouched_inv h hnew.consistent hkeep (fun n hn => ?_) hmem
      (fun hb n hn => ?_), hkeep, Or.inr ⟨hres, hnew⟩⟩
    · rcases hrunning with hr | ⟨hr, _⟩
      · rwa [hr]
      · rw [hr]
        exact List.mem_append_left _ hn
    · have hold : ∀ m ∈ v.running, s'.stateOf m = .READY := by
        intro m hm
        rw [untouched_stateOf h hkeep (List.mem_append_left _ hm)]
        exact (h.boot hb).2.2 m hm
      rcases hrunning with hr | ⟨hr, hready⟩
      · exact hold n (by rwa [← hr])
      · rw [hr] at hn
        rcases List.mem_append.mp hn with hn | hn
        · exact hold n hn
        · rw [List.mem_singleton.mp hn]
          exact hready

/-- The pid of the idle task is read by waking it only. -/
theorem inv_idleTask {s' : Kernel} {v' : View} (h : Inv s' v') (idle : Int) :
    Inv { s' with idleTask := idle } v' := by
  have hc : Consistent { s' with idleTask := idle } v' :=
    have k := h.consistent
    ⟨k.running, k.waiting, k.tasks, k.heap, k.chunks, k.nonnull, k.waitingState, k.runningState⟩
  exact ⟨hc, h.boot, h.current, h.preserve, h.thread, h.pending⟩

theorem searchInvalidateTasks_inv (h : Inv s v) (hthread : Thread s) :
    ∃ v', Reaped s (searchInvalidateTasks s) v v' ∧ Inv (searchInvalidateTasks s) v' := by
  have hcur := inv_current_running h hthread
  rcases h.thread hthread with ⟨hready, hpres⟩
  rcases searchInvalidateTasks_reaped h.consistent hcur hready with ⟨v', hr, hmem⟩
  refine ⟨v', hr, hr.consistent, fun hb => ?_, fun _ => ?_, fun _ => ?_, fun _ => ?_,
    fun hp => ?_⟩
  · exact Bool.noConfusion (hthread.1.symm.trans (hr.booted.symm.trans hb))
  · rwa [hr.current]
  · rw [hr.preserve, hpres]
    exact List.mem_append_left _ hmem
  · rw [hr.current, hr.preserve, reaped_stateOf hr]
    exact ⟨hready, hpres⟩
  · rw [hr.preserve, hpres]
    exact hthread.2.2

theorem allocateImage_inv (h : Inv s v) {image : Addr} (hfree : FreeChunk image s) :
    Inv { s.allocate image with images := image :: s.images } v := by
  have hc := consistent_allocateImage h.consistent hfree
  rw [allocate_eq] at hc ⊢
  exact ⟨hc, h.boot, h.current, h.preserve, h.thread, h.pending⟩

theorem createIdle_some {c : Chunks} {slot : Addr} {s' : Kernel}
    (h : createIdle c slot s = some s') : ∃ result s₁, createTask c slot 0 s = some (result, s₁) ∧
      s' = { s₁ with idleTask := toSignedChar result } := by
  unfold createIdle at h
  cases hrun : createTask c slot 0 s with
  | none =>
      simp only [hrun, reduceCtorEq] at h
  | some r =>
      simp only [hrun] at h
      exact ⟨r.1, r.2, rfl, (Option.some.inj h).symm⟩

/-- Before start-up is complete the idle task may still be set. -/
theorem untouched_idle {c : Chunks} {s' : Kernel} {idle : Int} (h : Untouched c s s')
    (hboot : s.booted = false) : Untouched c s { s' with idleTask := idle } :=
  ⟨h.tcb, h.data, h.lists, h.current, h.preserve,
    fun hc => Bool.noConfusion (hboot.symm.trans hc), h.pendsv, h.booted⟩

/-- When a task can be created. -/
theorem creation_enabled {e : Event} {c : Chunks} {ramLocation : Addr}
    (he : e.creates = some (c, ramLocation)) (hen : Enabled e s) :
    (s.booted = false ∨ Thread s) ∧ c.Free s := by
  cases e with
  | createTask c' slot ramLocation' =>
      rcases Prod.mk.inj (Option.some.inj he) with ⟨rfl, rfl⟩
      exact ⟨hen.1, hen.2.1⟩
  | createIdle c' slot =>
      rcases Prod.mk.inj (Option.some.inj he) with ⟨rfl, rfl⟩
      exact ⟨Or.inl hen.1, hen.2⟩
  | _ => exact absurd he (by simp only [Event.creates, reduceCtorEq, not_false_eq_true])

/-- An event that creates a task succeeds, or fails and leaks. -/
theorem creation_outcome {e : Event} {c : Chunks} {ramLocation : Addr} {s' : Kernel}
    (h : Inv s v) (he : e.creates = some (c, ramLocation)) (hstep : step e s = some s') :
    ∃ v', Inv s' v' ∧ Untouched c s s' ∧
      (NotCreated s s' v v' ∨ Created c ramLocation s s' v v') := by
  rcases step_enabled hstep with ⟨hen, heff⟩
  cases e with
  | createTask c' slot ramLocation' =>
      rcases Prod.mk.inj (Option.some.inj he) with ⟨rfl, rfl⟩
      rcases Option.map_eq_some_iff.mp heff with ⟨⟨result, s₁⟩, hrun, rfl⟩
      rcases createTask_inv h hen.2.1 hen.2.2 hrun with ⟨v', hinv, hkeep, hout⟩
      exact ⟨v', hinv, hkeep, hout.imp And.right And.right⟩
  | createIdle c' slot =>
      rcases Prod.mk.inj (Option.some.inj he) with ⟨rfl, rfl⟩
      rcases createIdle_some heff with ⟨result, s₁, hrun, rfl⟩
      rcases createTask_inv h hen.2 (Or.inl rfl) hrun with ⟨v', hinv, hkeep, hout⟩
      have hcons := (inv_idleTask hinv (toSignedChar result)).consistent
      refine ⟨v', inv_idleTask hinv _, untouched_idle hkeep hen.1, ?_⟩
      rcases hout with ⟨_, hnot⟩ | ⟨_, hnew⟩
      · exact Or.inl ⟨hcons, hnot.running, hnot.waiting, hnot.leaked, hnot.live, hnot.images⟩
      · exact Or.inr ⟨hcons, hnew.granted, hnew.view, hnew.new, hnew.live, hnew.tcb, hnew.node,
          hnew.list⟩
  | _ => exact absurd he (by simp only [Event.creates, reduceCtorEq, not_false_eq_true])

/-- An event that creates a task takes the chunks of the stack and the control block. -/
theorem creates_takes {e : Event} {c : Chunks} {ramLocation : Addr} {s' : Kernel}
    (he : e.creates = some (c, ramLocation)) (hstep : step e s = some s')
    (hstack : c.stack ≠ NULL) (htcb : c.tcb ≠ NULL) :
    c.stack ∈ s'.occupied ∧ c.tcb ∈ s'.occupied := by
  have heff := (step_enabled hstep).2
  cases e with
  | createTask c' slot ram =>
      rcases Prod.mk.inj (Option.some.inj he) with ⟨rfl, rfl⟩
      rcases Option.map_eq_some_iff.mp heff with ⟨r, hcreate, rfl⟩
      exact createTask_takes hcreate hstack htcb
  | createIdle c' slot =>
      rcases Prod.mk.inj (Option.some.inj he) with ⟨rfl, rfl⟩
      rcases createIdle_some heff with ⟨result, s₁, hcreate, rfl⟩
      have htakes := createTask_takes hcreate hstack htcb
      exact htakes
  | _ => exact absurd he (by simp only [Event.creates, reduceCtorEq, not_false_eq_true])

end Events

/-- Every event keeps the invariant and has one of the outcomes. -/
theorem step_outcome {e : Event} {s s' : Kernel} {v : View} (h : Inv s v)
    (hstep : step e s = some s') : ∃ v', Inv s' v' ∧ Outcome e s s' v v' := by
  have hcreates : ∀ c ramLocation, e.creates = some (c, ramLocation) →
      ∃ v', Inv s' v' ∧ Outcome e s s' v v' := by
    intro c ramLocation he
    rcases creation_outcome h he hstep with ⟨v', hinv, hkeep, hnot | hnew⟩
    · exact ⟨v', hinv, .notCreated c ramLocation he hkeep hnot⟩
    · exact ⟨v', hinv, .created c ramLocation he hkeep hnew⟩
  rcases step_enabled hstep with ⟨hen, heff⟩
  -- Each event by the lemma about its function.
  cases e with
  | createTask c slot ramLocation => exact hcreates c ramLocation rfl
  | createIdle c slot => exact hcreates c 0 rfl
  | runScheduler =>
      rcases runScheduler_inv h hen with ⟨v', hmoved, hwait, hinv, _⟩
      rw [← Option.some.inj heff]
      exact ⟨v', hinv, .moved hmoved (fun hb => Bool.noConfusion (hb.symm.trans hen))
        fun n hn => Or.inl (hwait hn)⟩
  | allocateImage image =>
      rw [← Option.some.inj heff]
      exact ⟨v, allocateImage_inv h hen.2, .image image hen.2 rfl rfl⟩
  | blockCurrentTask =>
      rw [← Option.some.inj heff]
      rcases blockCurrentTask_inv h hen with ⟨hmoved, hinv⟩
      refine ⟨_, hinv, .moved hmoved (fun hb => ⟨hb, Or.inl rfl⟩) fun n hn => ?_⟩
      rcases List.mem_append.mp hn with hn | hn
      · exact Or.inl hn
      · exact Or.inr ⟨rfl, List.mem_singleton.mp hn⟩
  | wakeupPid pid =>
      rw [← Option.some.inj heff]
      rcases wakeupPid_inv h pid with ⟨v', hmoved, hwait, hinv⟩
      have hc := wakeupPid_control pid s
      exact ⟨v', hinv, .moved hmoved
        (fun hb => ⟨hc.booted.trans hb, Or.inr (Or.inl ⟨hc.current, hc.pendsv⟩)⟩)
        fun n hn => Or.inl (hwait hn)⟩
  | yieldTask =>
      rw [← Option.some.inj heff]
      rcases svcallYieldTask_inv h hen with ⟨hmoved, hinv⟩
      exact ⟨v, hinv, .moved hmoved (fun hb => ⟨hb, Or.inl rfl⟩) fun n hn => Or.inl hn⟩
  | pendsv psp =>
      rw [← Option.some.inj heff]
      rcases pendsvIsr_inv h psp hen with ⟨v', hmoved, hwait, hinv, hsteer⟩
      exact ⟨v', hinv, .moved hmoved hsteer fun n hn => Or.inl (hwait hn)⟩
  | finishTask stale =>
      rw [← Option.some.inj heff]
      rcases finishTask_inv h hen stale with ⟨v', hmoved, hwait, hinv, hbooted⟩
      exact ⟨v', hinv, .moved hmoved (fun hb => ⟨hbooted.trans hb, Or.inl rfl⟩)
        fun n hn => Or.inl (hwait hn)⟩
  | invalidateCurrentTask =>
      rw [← Option.some.inj heff]
      rcases invalidateCurrentTask_inv h hen with ⟨hmoved, hinv⟩
      exact ⟨v, hinv, .moved hmoved (fun hb => ⟨hb, Or.inl rfl⟩) fun n hn => Or.inl hn⟩
  | searchInvalidateTasks =>
      rw [← Option.some.inj heff]
      rcases searchInvalidateTasks_inv h hen.1 with ⟨v', hr, hinv⟩
      exact ⟨v', hinv, .reaped rfl hr⟩
  | joinTask pid =>
      rw [← Option.some.inj heff, joinTask_id h.consistent]
      exact ⟨v, h, .moved (moved_refl h.consistent)
        (fun hb => ⟨hb, Or.inr (Or.inl ⟨rfl, rfl⟩)⟩) fun n hn => Or.inl hn⟩
  | dmaInterrupt action =>
      rw [← Option.some.inj heff]
      have hmoved := moved_control (moved_refl h.consistent) s.currentlyRunning s.taskToPreserve
        s.pendsv s.booted s.cleanUpRequests action
      exact ⟨v, ⟨hmoved.consistent, h.boot, h.current, h.preserve, h.thread, h.pending⟩,
        .moved hmoved (fun hb => ⟨hb, Or.inr (Or.inl ⟨rfl, rfl⟩)⟩) fun n hn => Or.inl hn⟩

theorem step_inv {e : Event} {s s' : Kernel} (h : ∃ v, Inv s v) (hstep : step e s = some s') :
    ∃ v', Inv s' v' := by
  rcases h with ⟨v, hv⟩
  rcases step_outcome hv hstep with ⟨v', hinv, _⟩
  exact ⟨v', hinv⟩

/-- The invariant holds along every run. -/
theorem run_inv {es : List Event} {s s' : Kernel} (h : ∃ v, Inv s v)
    (hrun : run step es s = some s') : ∃ v', Inv s' v' :=
  run_preserves step (fun s => ∃ v, Inv s v) (fun _ _ _ hinv hstep => step_inv hinv hstep) es s s' h
    hrun

/-- `init_scheduler` fails without memory for both queues. -/
theorem initScheduler_cases (runningQueue waitingQueue : Addr) (s : Kernel) :
    (initScheduler runningQueue waitingQueue s).1 = -1 ∨
      runningQueue ≠ NULL ∧ waitingQueue ≠ NULL ∧
        initScheduler runningQueue waitingQueue s =
          (0, { s with
            currentlyRunning := NULL
            occupied := waitingQueue :: runningQueue :: s.occupied
            runningTasks := { size := 0, head := NULL, tail := NULL }
            waitingTasks := { size := 0, head := NULL, tail := NULL }
            cleanUpRequests := 0
            idleTask := -1 }) := by
  unfold initScheduler
  by_cases hrq : runningQueue = NULL
  · exact Or.inl (by simp only [hrq, if_true])
  · by_cases hwq : waitingQueue = NULL
    · exact Or.inl (by simp only [hrq, hwq, if_true, if_false])
    · exact Or.inr ⟨hrq, hwq, by simp only [hrq, hwq, if_false, allocate_eq]⟩

/-- `s` is what `init_scheduler` makes of empty memory when it succeeds. The
    two queue headers are different chunks, as the contract of `allocate`
    demands. -/
def Initialized (s : Kernel) : Prop :=
  ∃ node tcb list snode runningQueue waitingQueue, runningQueue ≠ waitingQueue ∧
    initScheduler runningQueue waitingQueue (Kernel.reset node tcb list snode) = (0, s)

/-- No task, and the two queue headers in use. -/
theorem initScheduler_inv {s : Kernel} (h : Initialized s) :
    Inv s { running := [], waiting := [], leaked := s.occupied } ∧ s.live = [] ∧ s.images = [] ∧
      s.booted = false := by
  rcases h with ⟨node, tcb, list, snode, rq, wq, hne, heq⟩
  rcases initScheduler_cases rq wq (Kernel.reset node tcb list snode) with
    hfail | ⟨hrq, hwq, hinit⟩
  · rw [heq] at hfail
    exact absurd (show (0 : Int) = -1 from hfail) (by decide)
  · rw [heq, Prod.mk.injEq] at hinit
    obtain rfl := hinit.2
    have hnd : [wq, rq].Nodup := List.nodup_cons.mpr
      ⟨fun hc => hne (List.mem_singleton.mp hc).symm, List.nodup_singleton rq⟩
    have hnull : NULL ∉ [wq, rq] := by
      intro hc
      rcases List.mem_cons.mp hc with hc | hc
      · exact hwq hc.symm
      · exact hrq (List.mem_singleton.mp hc).symm
    refine ⟨⟨⟨represents_empty node, represents_empty node, List.Perm.refl _, List.Perm.refl _,
        hnd, hnull, fun _ hn => absurd hn List.not_mem_nil,
        fun _ hn => absurd hn List.not_mem_nil⟩,
      fun _ => ⟨rfl, rfl, fun _ hn => absurd hn List.not_mem_nil⟩,
      fun hc => absurd rfl hc, fun hc => absurd rfl hc, fun hc => Bool.noConfusion hc.1,
      fun hc => Bool.noConfusion hc⟩, rfl, rfl, rfl⟩

/-- The invariant of every state reachable from `init_scheduler`. -/
theorem reachable_inv {es : List Event} {s s' : Kernel} (h : Initialized s)
    (hrun : run step es s = some s') : ∃ v, Inv s' v :=
  run_inv ⟨_, (initScheduler_inv h).1⟩ hrun

/-- A control block full of zeros. -/
def blankTcb : Tcb :=
  { pid := 0
    state := .READY
    isExternal := false
    stackSize := 0
    sp := 0
    stacksectionLowerBound := 0
    codeSection := 0
    joinPid := 0
    parentTask := NULL
    childTasks := NULL }

/-- Memory full of zeros, after `init_scheduler` got the chunks 1 and 2. -/
def freshKernel : Kernel :=
  (initScheduler 1 2 (Kernel.reset (fun _ => { next := 0, prev := 0, data := 0 })
    (fun _ => blankTcb) (fun _ => { size := 0, head := NULL })
    (fun _ => { next := NULL, data := NULL }))).2

theorem freshKernel_initialized : Initialized freshKernel :=
  ⟨_, _, _, _, 1, 2, by decide, rfl⟩

/-- Five chunks in a row. -/
def chunksFrom (a : Addr) : Chunks :=
  { stack := a, tcb := a + 1, childNode := a + 2, childList := a + 3, queueNode := a + 4 }

/-- The start-up of `setup_kernel_runtime`: the idle task is created and
    becomes the current task. -/
def startUp : List Event := [.createIdle (chunksFrom 10) 3, .runScheduler]

end NextLevelRTOS
