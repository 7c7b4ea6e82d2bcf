import NextLevelRTOS.Process.Consistent

/-!
# Choosing the Next Task

Waking, blocking and switching as moves: the queues stay consistent, the nodes
are the same up to order, and nothing outside the frame changes. `Moved`
bundles the three, and composes.

`switch_task` has three ways out, and each ends with a ready member of the
running queue or with no task at all. The null outcome needs both that nobody
with the idle task's identifier waits and that nobody with the identifier zero
runs, which is what `switchTask_moved` records. That it never happens is a
matter of where the idle task is, and is shown elsewhere.

## Main definitions

* `Moved`: Nodes have moved between the queues, nothing else.
* `Chosen`: The current task is a ready member of the running queue.
* `Stuck`: There is no task to choose.

## Theorems

* `wakeupPid_moved`: Waking moves at most one node and makes it ready.
* `forcePid0IntoRunning_moved`: The workaround makes one node ready at most and moves
  none.
* `switchTask_moved`: A switch chooses a ready task or finds none at all.
-/

namespace NextLevelRTOS

/-- Nodes have moved between the queues, and nothing else has happened. -/
structure Moved (s s' : Kernel) (v v' : View) : Prop where
  frame : Frame s s'
  consistent : Consistent s' v'
  nodes : v'.nodes.Perm v.nodes
  leaked : v'.leaked = v.leaked

theorem moved_refl {s : Kernel} {v : View} (h : Consistent s v) : Moved s s v v :=
  ⟨frame_refl s, h, List.Perm.refl _, rfl⟩

theorem moved_trans {s s' s'' : Kernel} {v v' v'' : View} (h : Moved s s' v v')
    (h' : Moved s' s'' v' v'') : Moved s s'' v v'' :=
  ⟨frame_trans h.frame h'.frame, h'.consistent, h'.nodes.trans h.nodes,
    h'.leaked.trans h.leaked⟩

/-- The control fields are nobody's. -/
theorem moved_control {s s' : Kernel} {v v' : View} (h : Moved s s' v v') (cur preserve : Addr)
    (pendsv booted : Bool) (requests dma : Nat) :
    Moved s { s' with
      currentlyRunning := cur
      taskToPreserve := preserve
      pendsv := pendsv
      booted := booted
      cleanUpRequests := requests
      dmaInterruptAction := dma } v v' :=
  ⟨frame_control h.frame .., consistent_control h.consistent .., h.nodes, h.leaked⟩

theorem moved_mem {s s' : Kernel} {v v' : View} (h : Moved s s' v v') (n : Addr) :
    n ∈ v'.nodes ↔ n ∈ v.nodes :=
  h.nodes.mem_iff

theorem moved_pidOf {s s' : Kernel} (h : Frame s s') (n : Addr) : s'.pidOf n = s.pidOf n := by
  have hd : s'.dataOf n = s.dataOf n := congrFun h.data n
  rw [Kernel.pidOf, hd]
  exact (h.tcb _).pid

/-- A control block may be rewritten when its state and its place in the queue
    stay what they are. -/
theorem moved_setTcb {s : Kernel} {v : View} (h : Consistent s v) {t : Addr} {tcb : Tcb}
    (hsame : SameTask (s.tcb t) tcb) (hstate : tcb.state = (s.tcb t).state) :
    Moved s (s.setTcb t tcb) v v ∧ ∀ n, (s.setTcb t tcb).stateOf n = s.stateOf n := by
  have hst : ∀ n, (s.setTcb t tcb).stateOf n = s.stateOf n := by
    intro n
    by_cases hn : s.dataOf n = t
    · change ((Function.update s.tcb t tcb) (s.dataOf n)).state = (s.tcb (s.dataOf n)).state
      rw [hn, Function.update_self, hstate]
    · change ((Function.update s.tcb t tcb) (s.dataOf n)).state = (s.tcb (s.dataOf n)).state
      rw [Function.update_of_ne hn]
  refine ⟨⟨frame_setTcb hsame, ?_, List.Perm.refl _, rfl⟩, hst⟩
  refine consistent_move h (frame_setTcb hsame) (List.Perm.refl _) rfl h.running h.waiting
    (fun n hn => ?_) (fun n hn => ?_)
  · rw [hst]
    exact h.waitingState n hn
  · rw [hst]
    exact h.runningState n hn

/-- The pointers to the current task and the two flags are the same. -/
structure SameControl (s s' : Kernel) : Prop where
  current : s'.currentlyRunning = s.currentlyRunning
  preserve : s'.taskToPreserve = s.taskToPreserve
  pendsv : s'.pendsv = s.pendsv
  booted : s'.booted = s.booted

theorem sameControl_refl (s : Kernel) : SameControl s s := ⟨rfl, rfl, rfl, rfl⟩

theorem wakeNode_control (q : Addr) (s : Kernel) : SameControl s (wakeNode q s) := by
  rw [wakeNode_eq]
  exact ⟨rfl, rfl, rfl, rfl⟩

theorem wakeupPid_control (pid : Nat) (s : Kernel) : SameControl s (wakeupPid pid s).2 :=
  wakeupPid_keeps sameControl_refl wakeNode_control pid s

/-- What waking does, whether it found a task or not. -/
structure Woken (pid : Nat) (s : Kernel) (v v' : View) : Prop where
  moved : Moved s (wakeupPid pid s).2 v v'
  running : ∀ n ∈ v.running, n ∈ v'.running
  waiting : v'.waiting ⊆ v.waiting
  states : ∀ n ∈ v.nodes, (wakeupPid pid s).2.stateOf n = s.stateOf n ∨
    (n ∈ v.waiting ∧ s.pidOf n = pid ∧ (wakeupPid pid s).2.stateOf n = .READY)
  found : (wakeupPid pid s).1 ≠ NULL → (wakeupPid pid s).1 ∈ v'.running ∧
    (wakeupPid pid s).2.stateOf (wakeupPid pid s).1 = .READY
  absent : (wakeupPid pid s).1 = NULL → (∀ n ∈ v'.waiting, s.pidOf n ≠ pid)

theorem stateOf_wakeNode_ne {s : Kernel} {v : View} (h : Consistent s v) {q n : Addr}
    (hq : q ∈ v.nodes) (hn : n ∈ v.nodes) (hne : n ≠ q) :
    (wakeNode q s).stateOf n = s.stateOf n := by
  rw [stateOf_wakeNode, if_neg (fun hc => hne (consistent_data_inj h hn hq hc))]

theorem stateOf_wakeNode_self (s : Kernel) (q : Addr) : (wakeNode q s).stateOf q = .READY := by
  rw [stateOf_wakeNode, if_pos rfl]

/-- Waking moves at most one node and makes it ready. -/
theorem wakeupPid_moved {s : Kernel} {v : View} (h : Consistent s v) (pid : Nat) :
    ∃ v', Woken pid s v v' := by
  rcases wakeupPid_cases h pid with ⟨hnone, heq⟩ | ⟨q, hq, _, hpid, heq⟩
  · refine ⟨v, ?_, fun n hn => hn, List.Subset.refl _, fun n _ => Or.inl ?_, fun hc => ?_,
      fun _ => hnone⟩
    · rw [heq]
      exact moved_refl h
    · rw [heq]
    · rw [heq] at hc
      exact absurd rfl hc
  · have hqn : q ∈ v.nodes := List.mem_append_right _ hq
    refine ⟨v.wake q, ?_, fun n hn => List.mem_append_left _ hn,
      fun n hn => List.mem_of_mem_erase hn, fun n hn => ?_, fun _ => ?_, fun hc => ?_⟩
    · rw [heq]
      exact ⟨wakeNode_frame q s, wakeNode_consistent h hq, wake_nodes_perm hq, rfl⟩
    · rw [heq]
      -- The node found is ready and was waiting; the others keep their states.
      by_cases hnq : n = q
      · rw [hnq]
        exact Or.inr ⟨hq, hpid, stateOf_wakeNode_self s q⟩
      · exact Or.inl (stateOf_wakeNode_ne h hqn hn hnq)
    · rw [heq]
      exact ⟨List.mem_append_right _ List.mem_cons_self, stateOf_wakeNode_self s q⟩
    · rw [heq] at hc
      exact absurd hc (consistent_node_ne_null h hqn)

/-- The current task is a ready member of the running queue, and it is the one
    whose registers will be saved. -/
structure Chosen (s : Kernel) (v : View) : Prop where
  nonnull : s.currentlyRunning ≠ NULL
  member : s.currentlyRunning ∈ v.running
  ready : s.stateOf s.currentlyRunning = .READY
  preserve : s.taskToPreserve = s.currentlyRunning

/-- There is no task to choose: nobody with the idle task's identifier waits,
    and nobody with the identifier zero runs. -/
structure Stuck (s : Kernel) (v : View) : Prop where
  current : s.currentlyRunning = NULL
  preserve : s.taskToPreserve = NULL
  waiting : ∀ n ∈ v.waiting, s.pidOf n ≠ toUnsigned s.idleTask
  running : ∀ n ∈ v.running, s.pidOf n ≠ 0

/-- The workaround makes the first task with identifier zero ready where it
    is, or finds none. -/
theorem forcePid0IntoRunning_moved {s : Kernel} {v : View} (h : Consistent s v) :
    Moved s (forcePid0IntoRunning s) v v ∧
      ((forcePid0IntoRunning s = s ∧ ∀ n ∈ v.running, s.pidOf n ≠ 0) ∨
        Chosen (forcePid0IntoRunning s) v) := by
  unfold forcePid0IntoRunning
  rw [findNode_eq _ h.running]
  cases hfind : v.running.find? (fun q => s.pidOf q = 0) with
  | none =>
      refine ⟨moved_refl h, Or.inl ⟨rfl, fun n hn hc => ?_⟩⟩
      exact List.find?_eq_none.mp hfind n hn (decide_eq_true hc)
  | some q =>
      have hq := List.mem_of_find?_eq_some hfind
      have hne : (TaskState.READY : TaskState) ≠ .WAITING := fun hc => TaskState.noConfusion hc
      -- The task is made ready where it stands, in the running queue.
      have hcons := consistent_setState h hq hne
      have hmoved : Moved s (s.setState (s.dataOf q) .READY) v v :=
        ⟨frame_setState s _ .READY, hcons, List.Perm.refl _, rfl⟩
      refine ⟨moved_control hmoved .., Or.inr ⟨?_, hq, ?_, rfl⟩⟩
      · exact consistent_node_ne_null h (List.mem_append_left _ hq)
      · have hself := stateOf_setState s (s.dataOf q) q .READY
        rw [if_pos rfl] at hself
        exact hself

/-- Saving the registers of the task the workaround chooses, or of the one it
    leaves. -/
theorem forcePid0IntoRunning_preserve (s : Kernel) :
    forcePid0IntoRunning { s with taskToPreserve := s.currentlyRunning } =
      { forcePid0IntoRunning s with
        taskToPreserve := (forcePid0IntoRunning s).currentlyRunning } := by
  have hpid : (fun q => decide (Kernel.pidOf { s with taskToPreserve := s.currentlyRunning } q = 0))
      = fun q => decide (s.pidOf q = 0) := rfl
  unfold forcePid0IntoRunning
  dsimp only
  rw [hpid]
  cases findNode s.node (fun q => s.pidOf q = 0) s.runningTasks.size s.runningTasks.head with
  | none => rfl
  | some q => rfl

/-- The workaround after a failed wakeup of the idle task. -/
theorem wakeIdle_outcome {s s' : Kernel} {v v' : View} {q : Addr} (h : Moved s s' v v')
    (hfound : q ≠ NULL → q ∈ v'.running ∧ s'.stateOf q = .READY)
    (habsent : q = NULL → ∀ n ∈ v'.waiting, s.pidOf n ≠ toUnsigned s.idleTask) {s₁ : Kernel}
    (hs₁ : s₁ = { s' with currentlyRunning := q, taskToPreserve := q }) :
    let s₂ := if q = NULL then forcePid0IntoRunning s₁ else s₁
    Moved s s₂ v v' ∧ (Chosen s₂ v' ∨ Stuck s₂ v') := by
  have hmoved : Moved s s₁ v v' := by
    rw [hs₁]
    exact moved_control h ..
  by_cases hq : q = NULL
  · simp only [if_pos hq]
    rcases forcePid0IntoRunning_moved hmoved.consistent with ⟨hforce, ⟨heq, hnone⟩ | hchosen⟩
    · refine ⟨moved_trans hmoved hforce, Or.inr ?_⟩
      rw [heq]
      refine ⟨by rw [hs₁, hq], by rw [hs₁, hq], fun n hn => ?_, hnone⟩
      rw [moved_pidOf hmoved.frame, hmoved.frame.idleTask]
      exact habsent hq n hn
    · exact ⟨moved_trans hmoved hforce, Or.inl hchosen⟩
  · simp only [if_neg hq]
    rcases hfound hq with ⟨hmem, hready⟩
    rw [hs₁] at hmoved ⊢
    exact ⟨hmoved, Or.inl ⟨hq, hmem, hready, rfl⟩⟩

/-- A transferred image wakes the idle task, which keeps the current task where
    it is. -/
theorem serveDma_moved {s : Kernel} {v : View} (h : Consistent s v) :
    ∃ v', Moved s (serveDma s) v v' ∧ (∀ n ∈ v.running, n ∈ v'.running) ∧
      v'.waiting ⊆ v.waiting ∧ (serveDma s).currentlyRunning = s.currentlyRunning := by
  rcases serveDma_eq s with heq | heq
  · rw [heq]
    exact ⟨v, moved_refl h, fun n hn => hn, List.Subset.refl _, rfl⟩
  · rw [heq]
    rcases wakeupPid_moved h (toUnsigned s.idleTask) with ⟨v', hw⟩
    exact ⟨v', hw.moved, hw.running, hw.waiting, (wakeupPid_control _ s).current⟩

/-- A switch chooses a ready task or finds none at all. -/
theorem switchTask_moved {s : Kernel} {v : View} (h : Consistent s v)
    (hcur : s.currentlyRunning ≠ NULL → s.currentlyRunning ∈ v.running) :
    ∃ v', Moved s (switchTask s) v v' ∧ v'.waiting ⊆ v.waiting ∧
      (Chosen (switchTask s) v' ∨ Stuck (switchTask s) v') := by
  by_cases hnull : s.currentlyRunning = NULL
  · rw [switchTask_null hnull]
    rcases wakeupPid_moved h (toUnsigned s.idleTask) with ⟨v', hw⟩
    have hout := wakeIdle_outcome hw.moved hw.found hw.absent rfl
    refine ⟨v', ?_⟩
    -- Woken or not, the outcome is that of the idle task's turn.
    by_cases hq : (wakeupPid (toUnsigned s.idleTask) s).1 = NULL
    · simp only [if_pos hq] at hout ⊢
      rw [← forcePid0IntoRunning_preserve]
      exact ⟨hout.1, hw.waiting, hout.2⟩
    · simp only [if_neg hq] at hout ⊢
      exact ⟨hout.1, hw.waiting, hout.2⟩
  · rcases serveDma_moved h with ⟨v₁, hdma, hrunning, hwait, hkeep⟩
    have hmem : (serveDma s).currentlyRunning ∈ v₁.running := by
      rw [hkeep]
      exact hrunning _ (hcur hnull)
    rcases nextReady_cases hdma.consistent.running hmem with ⟨q, hq, hready, hfound⟩ | ⟨_, hnone⟩
    · rw [switchTask_found hnull hfound]
      refine ⟨v₁, moved_control hdma .., hwait, Or.inl ⟨?_, hq, hready, rfl⟩⟩
      exact consistent_node_ne_null hdma.consistent (List.mem_append_left _ hq)
    · rw [switchTask_idle hnull hnone]
      rcases wakeupPid_moved hdma.consistent (toUnsigned (serveDma s).idleTask) with ⟨v', hw⟩
      rcases wakeIdle_outcome hw.moved hw.found hw.absent rfl with ⟨hmoved, hout⟩
      exact ⟨v', moved_trans hdma hmoved, fun n hn => hwait (hw.waiting hn), hout⟩

theorem serveDma_control (s : Kernel) : SameControl s (serveDma s) :=
  serveDma_keeps sameControl_refl wakeNode_control s

/-- A switch does not touch the two flags. -/
def SameFlags (s s' : Kernel) : Prop := s'.pendsv = s.pendsv ∧ s'.booted = s.booted

theorem switchTask_flags (s : Kernel) : SameFlags s (switchTask s) := by
  refine KeptBySwitch.switchTask ⟨fun _ => ⟨rfl, rfl⟩, fun h h' => ?_, fun q s => ?_,
    fun _ _ => ⟨rfl, rfl⟩, fun _ _ _ => ⟨rfl, rfl⟩⟩ s
  · exact ⟨h'.1.trans h.1, h'.2.trans h.2⟩
  · have hcontrol := wakeNode_control q s
    exact ⟨hcontrol.pendsv, hcontrol.booted⟩

end NextLevelRTOS
