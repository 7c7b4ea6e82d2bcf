import NextLevelRTOS.Process.Requests
import NextLevelRTOS.Lib.RoundRobin

/-!
# Bounded Waiting

`switch_task` goes round the ring of running tasks, so a task that is ready is
reached before the round is over. How much of a round is left for it depends
on where the pointer is, and tasks do not keep their places: a task that blocks
leaves the ring, and when it is woken it joins at the tail, which may be
anywhere in what is left of the round. A task that blocks and is woken can get
ahead of one that has been waiting all the time, and again and again so.

The waiting task is passed over in no other way. As long as no other joins the
tail while the waiting task is out of the stretch from the pointer's successor
to the tail, nobody is chosen twice before it is chosen once.

A task is named by its queue node.

## Main definitions

* `Kernel.runningNodes`, `Kernel.waitingNodes`: The nodes of the two queues.
* `Kernel.toTail`: From the successor of the current task to the tail.
* `selections`: The tasks chosen along a run.
* `Shift`, `Switched`: What an event does to the ring and its pointer.
* `Overtakes`: A task joins the tail ahead of another.
* `Behind`: A task will not be chosen before another.

## Theorems

* `shift_of_step`: Every event but the switch shifts the ring.
* `pendsv_switched`: The switch chooses the first ready task.
* `step_behind`: Who is behind stays behind until the other is chosen.
* `bounded_waiting`: Between two choices of a task every other is chosen.
* `unbounded_waiting`: Unless the task was woken in between.
-/

namespace NextLevelRTOS

open Machine CircularList RoundRobin

/-- The nodes in `running_tasks`, from the head on. -/
def Kernel.runningNodes (s : Kernel) : List Addr := s.runningTasks.members s.node

/-- The nodes in `waiting_tasks`, from the head on. -/
def Kernel.waitingNodes (s : Kernel) : List Addr := s.waitingTasks.members s.node

/-- The nodes from the successor of the current one to the tail. -/
def Kernel.toTail (s : Kernel) : List Addr :=
  (s.runningNodes.dropWhile (· ≠ s.currentlyRunning)).tail

/-- The tasks that `switch_task` chooses along a run, in order. -/
def selections : List Event → Kernel → List Addr
  | [], _ => []
  | e :: es, s =>
    match step e s with
    | none => []
    | some s' =>
      match e with
      | .pendsv _ => s'.currentlyRunning :: selections es s'
      | _ => selections es s'

theorem runningNodes_eq {s : Kernel} {v : View} (h : Consistent s v) :
    s.runningNodes = v.running :=
  represents_members h.running

theorem waitingNodes_eq {s : Kernel} {v : View} (h : Consistent s v) :
    s.waitingNodes = v.waiting :=
  represents_members h.waiting

theorem runningNodes_nodup {s : Kernel} {v : View} (h : Consistent s v) :
    s.runningNodes.Nodup := by
  rw [runningNodes_eq h]
  exact (List.nodup_append.mp (consistent_nodes_nodup h)).1

/-- What an event other than the switch does to the ring and its pointer. -/
inductive Shift (s s' : Kernel) : Prop where
  | kept (hcur : s'.currentlyRunning = s.currentlyRunning)
      (hrun : s'.runningNodes = s.runningNodes)
  | joined (n : Addr) (hcur : s'.currentlyRunning = s.currentlyRunning)
      (hn : n ∉ s.runningNodes) (hrun : s'.runningNodes = s.runningNodes ++ [n])
  | blocked (x y : List Addr) (hrun : s.runningNodes = x ++ s.currentlyRunning :: y)
      (hrun' : s'.runningNodes = x ++ y)
      (hcur : ∀ r q, y ++ x = r ++ [q] → s'.currentlyRunning = q)
  | thinned (hcur : s'.currentlyRunning = s.currentlyRunning)
      (hrun : List.Sublist s'.runningNodes s.runningNodes)

/-- What the switch does: the idle task may join, and the first ready task is
    chosen, which is any ready task or somebody ahead of it. -/
structure Switched (s s' : Kernel) : Prop where
  run : s'.runningNodes = s.runningNodes ∨
    ∃ n, n ∉ s.runningNodes ∧ s'.runningNodes = s.runningNodes ++ [n]
  choice : ∀ b ∈ s.runningNodes, s.stateOf b = .READY → s'.currentlyRunning = b ∨
    s'.currentlyRunning ∈ ahead b (turns s.currentlyRunning s'.runningNodes)

section Steps

variable {s : Kernel} {v : View}

/-- A wakeup moves nobody or lets one node join. -/
theorem wakeupPid_runningNodes (h : Consistent s v) (pid : Nat) :
    (wakeupPid pid s).2.runningNodes = s.runningNodes ∨
      ∃ n, n ∉ s.runningNodes ∧ (wakeupPid pid s).2.runningNodes = s.runningNodes ++ [n] := by
  rcases wakeupPid_cases h pid with ⟨_, heq⟩ | ⟨q, hq, _, _, heq⟩
  · rw [heq]
    exact Or.inl rfl
  · rw [heq, runningNodes_eq h, runningNodes_eq (wakeNode_consistent h hq)]
    exact Or.inr ⟨q, fun hc => consistent_disjoint h hc hq, rfl⟩

theorem blockCurrentTask_shift (h : Inv s v) (hthread : Thread s) :
    Shift s (blockCurrentTask s) := by
  have hcur := inv_current_running h hthread
  have hnd := runningNodes_nodup h.consistent
  rw [runningNodes_eq h.consistent] at hnd
  have hblock := blockCurrentTask_consistent h.consistent hcur
  rcases List.append_of_mem hcur with ⟨x, y, hl⟩
  have hx : s.currentlyRunning ∉ x := by
    rw [hl] at hnd
    exact fun hc => (List.nodup_append.mp hnd).2.2 _ hc _ List.mem_cons_self rfl
  have herase : v.running.erase s.currentlyRunning = x ++ y := by
    rw [hl, List.erase_append_right _ hx, List.erase_cons_head]
  refine .blocked x y ((runningNodes_eq h.consistent).trans hl)
    ((runningNodes_eq hblock).trans herase) fun r q hlast => ?_
  -- The ring has another member, so the pointer steps back to the last one.
  have hsize : (isolateNode s.node s.runningTasks s.currentlyRunning).2.size =
      (v.running.erase s.currentlyRunning).length :=
    (isolateNode_represents h.consistent.running hcur).size
  have hpos : 0 < (isolateNode s.node s.runningTasks s.currentlyRunning).2.size := by
    have hlen := congrArg List.length hlast
    simp only [List.length_append, List.length_singleton] at hlen
    rw [hsize, herase, List.length_append]
    omega
  have hring : Ring s.node.next s.node.prev (s.currentlyRunning :: (y ++ x)) := by
    have hr := h.consistent.running.ring
    rw [hl] at hr
    exact (ring_append_comm x (s.currentlyRunning :: y)).mp hr
  rw [blockCurrentTask_eq]
  dsimp only
  rw [if_pos hpos, (ring_neighbours hring).2, hlast, List.getLastD_concat]

theorem createTask_shift (h : Inv s v) {c : Chunks} {slot ramLocation : Addr} {result : Int}
    {s' : Kernel} (hfree : c.Free s) (himage : ramLocation = 0 ∨ ramLocation ∈ s.images)
    (hrun : createTask c slot ramLocation s = some (result, s')) : Shift s s' := by
  rcases createTask_inv h hfree himage hrun with ⟨v', _, hkeep, ⟨_, hnot⟩ | ⟨_, hnew⟩⟩
  · refine .kept hkeep.current ?_
    rw [runningNodes_eq h.consistent, runningNodes_eq hnot.consistent, hnot.running]
  · have hnodes := runningNodes_eq hnew.consistent
    have hnd := runningNodes_nodup hnew.consistent
    rw [hnew.view] at hnodes
    unfold View.insert at hnodes
    by_cases hwait : (newTcb c ramLocation s).state = .WAITING
    · rw [if_pos hwait] at hnodes
      exact .kept hkeep.current (hnodes.trans (runningNodes_eq h.consistent).symm)
    · rw [if_neg hwait, ← runningNodes_eq h.consistent] at hnodes
      rw [hnodes] at hnd
      refine .joined c.queueNode hkeep.current (fun hc => ?_) hnodes
      exact (List.nodup_append.mp hnd).2.2 _ hc _ (List.mem_singleton_self _) rfl

/-- Every event but the switch shifts the ring, as long as a task is
    current. -/
theorem shift_of_step {e : Event} {s' : Kernel} (h : Inv s v) (hcur : s.currentlyRunning ≠ NULL)
    (he : ∀ psp, e ≠ .pendsv psp) (hstep : step e s = some s') : Shift s s' := by
  rcases step_enabled hstep with ⟨hen, heff⟩
  -- Two events wake a task: it joins the ring at its end, or nothing happens.
  have hwake : ∀ (pid : Nat) (s₁ : Kernel), Consistent s₁ v →
      s₁.currentlyRunning = s.currentlyRunning → s₁.runningNodes = s.runningNodes →
      Shift s (wakeupPid pid s₁).2 := by
    intro pid s₁ h₁ hsame hnodes
    have hcontrol := (wakeupPid_control pid s₁).current.trans hsame
    rcases wakeupPid_runningNodes h₁ pid with hrun | ⟨n, hn, hrun⟩
    · exact .kept hcontrol (hrun.trans hnodes)
    · rw [hnodes] at hn hrun
      exact .joined n hcontrol hn hrun
  cases e with
  | createTask c slot ramLocation =>
      rcases Option.map_eq_some_iff.mp heff with ⟨⟨result, s₁⟩, hrun, rfl⟩
      exact createTask_shift h hen.2.1 hen.2.2 hrun
  | createIdle c slot => exact absurd (h.boot hen.1).2.1 hcur
  | runScheduler => exact absurd (h.boot hen).2.1 hcur
  | allocateImage image =>
      rw [← Option.some.inj heff, allocate_eq]
      exact .kept rfl rfl
  | blockCurrentTask =>
      rw [← Option.some.inj heff]
      exact blockCurrentTask_shift h hen
  | wakeupPid pid =>
      rw [← Option.some.inj heff]
      exact hwake pid s h.consistent rfl rfl
  | yieldTask =>
      rw [← Option.some.inj heff]
      exact .kept rfl rfl
  | pendsv psp => exact absurd rfl (he psp)
  | finishTask stale =>
      have hset := (setState_current_moved h hen
        (show TaskState.FINISHED ≠ .WAITING from fun hc => TaskState.noConfusion hc)).consistent
      have hparent : Shift s (wakeJoiningParent stale (s.dataOf s.currentlyRunning)
          (s.setState (s.dataOf s.currentlyRunning) .FINISHED)) := by
        unfold wakeJoiningParent
        dsimp only
        split
        · exact hwake _ _ hset rfl rfl
        · exact .kept rfl rfl
      rw [← Option.some.inj heff]
      -- Raising the counter and asking for a switch leave the ring alone.
      rcases hparent with ⟨hc, hr⟩ | ⟨n, hc, hn, hr⟩ | ⟨x, y, hr, hr', hc⟩ | ⟨hc, hr⟩
      · exact .kept hc hr
      · exact .joined n hc hn hr
      · exact .blocked x y hr hr' hc
      · exact .thinned hc hr
  | invalidateCurrentTask =>
      rw [← Option.some.inj heff]
      exact .kept rfl rfl
  | searchInvalidateTasks =>
      rw [← Option.some.inj heff]
      -- Reaping takes members out and leaves the rest in order.
      rcases searchInvalidateTasks_inv h hen.1 with ⟨v', hr, _⟩
      refine .thinned hr.current ?_
      rw [runningNodes_eq h.consistent, runningNodes_eq hr.consistent]
      exact hr.running
  | joinTask pid =>
      rw [← Option.some.inj heff, joinTask_id h.consistent]
      exact .kept rfl rfl
  | dmaInterrupt action =>
      rw [← Option.some.inj heff]
      exact .kept rfl rfl

/-- The ring search takes the members in turn. -/
theorem nextReady_turns (h : Consistent s v) (hcur : s.currentlyRunning ∈ v.running) :
    nextReady s s.runningTasks.size s.currentlyRunning =
      (turns s.currentlyRunning s.runningNodes).find? fun m => s.stateOf m = .READY := by
  have hnd := runningNodes_nodup h
  rw [runningNodes_eq h] at hnd ⊢
  rcases List.append_of_mem hcur with ⟨x, y, hl⟩
  have hx : s.currentlyRunning ∉ x := by
    rw [hl] at hnd
    exact fun hc => (List.nodup_append.mp hnd).2.2 _ hc _ List.mem_cons_self rfl
  have hrep := h.running
  rw [hl] at hrep ⊢
  rw [nextReady_eq hrep, turns_cut hx]

theorem serveDma_runningNodes (h : Consistent s v) :
    (serveDma s).runningNodes = s.runningNodes ∨
      ∃ n, n ∉ s.runningNodes ∧ (serveDma s).runningNodes = s.runningNodes ++ [n] := by
  rcases serveDma_eq s with heq | heq
  · rw [heq]
    exact Or.inl rfl
  · rw [heq]
    exact wakeupPid_runningNodes h _

/-- A transferred image leaves the running tasks in their states. -/
theorem serveDma_stateOf (h : Consistent s v) {n : Addr} (hn : n ∈ v.running) :
    (serveDma s).stateOf n = s.stateOf n := by
  rcases serveDma_cases h with heq | ⟨q, hq, _, heq⟩
  · rw [heq]
  · have hne : n ≠ q := fun hc => consistent_disjoint h (hc ▸ hn) hq
    rw [heq, stateOf_wakeNode_ne h (List.mem_append_right _ hq) (List.mem_append_left _ hn) hne]

/-- The switch chooses the first ready task, if there is one. -/
theorem switchTask_switched (h : Consistent s v) (hcur : s.currentlyRunning ∈ v.running)
    (hready : ∃ n ∈ v.running, s.stateOf n = .READY) : Switched s (switchTask s) := by
  have hnull := consistent_node_ne_null h (List.mem_append_left _ hcur)
  have hsame := (serveDma_control s).current
  rcases serveDma_moved h with ⟨v₁, hmoved, hkept, _, _⟩
  have hcur₁ : (serveDma s).currentlyRunning ∈ v₁.running := by
    rw [hsame]
    exact hkept _ hcur
  have hsearch := nextReady_turns hmoved.consistent hcur₁
  -- The search goes once around the running queue.
  have hmem : ∀ n, n ∈ turns (serveDma s).currentlyRunning (serveDma s).runningNodes ↔
      n ∈ v₁.running := by
    intro n
    rw [runningNodes_eq hmoved.consistent]
    refine mem_turns hcur₁ ?_
    rw [← runningNodes_eq hmoved.consistent]
    exact runningNodes_nodup hmoved.consistent
  -- Serving the DMA neither removes a ready task nor changes its state.
  have hfirst : ∀ b ∈ v.running, s.stateOf b = .READY →
      (serveDma s).stateOf b = .READY ∧
        b ∈ turns (serveDma s).currentlyRunning (serveDma s).runningNodes := by
    intro b hb hst
    rw [serveDma_stateOf h hb, hmem]
    exact ⟨hst, hkept b hb⟩
  cases hfind : (turns (serveDma s).currentlyRunning (serveDma s).runningNodes).find?
      fun m => (serveDma s).stateOf m = .READY with
  | none =>
      rcases hready with ⟨n, hn, hst⟩
      rcases hfirst n hn hst with ⟨hst₁, hturn⟩
      exact absurd (decide_eq_true hst₁) (List.find?_eq_none.mp hfind n hturn)
  | some n =>
      rw [hfind] at hsearch
      rw [switchTask_found hnull hsearch]
      refine ⟨serveDma_runningNodes h, fun b hb hst => ?_⟩
      rw [runningNodes_eq h] at hb
      rcases hfirst b hb hst with ⟨hst₁, hturn⟩
      by_cases hnb : n = b
      · exact Or.inl hnb
      · refine Or.inr ?_
        rw [← hsame]
        exact find?_ahead hfind hturn (decide_eq_true hst₁) hnb

theorem pendsvIsr_switched (h : Inv s v) (hcur : s.currentlyRunning ≠ NULL) (psp : Addr)
    (hready : ∃ n ∈ s.runningNodes, s.stateOf n = .READY) : Switched s (pendsvIsr psp s) := by
  set s₀ : Kernel := { s with pendsv := false } with hs₀
  set t := s₀.dataOf s₀.taskToPreserve with ht
  have hclear : Consistent s₀ v := consistent_control h.consistent ..
  have hsave := moved_setTcb hclear
    (show SameTask (s₀.tcb t) { s₀.tcb t with sp := psp } from
      ⟨rfl, rfl, rfl, rfl, rfl, rfl⟩) rfl
  have hready' : ∃ n ∈ v.running,
      (s₀.setTcb t { s₀.tcb t with sp := psp }).stateOf n = .READY := by
    rcases hready with ⟨n, hn, hst⟩
    rw [runningNodes_eq h.consistent] at hn
    refine ⟨n, hn, ?_⟩
    rw [hsave.2]
    exact hst
  have hswitch := switchTask_switched hsave.1.consistent (h.current hcur) hready'
  refine ⟨hswitch.run, fun b hb hst => hswitch.choice b hb ?_⟩
  rw [hsave.2]
  exact hst

end Steps

section Waiting

variable (a b : Addr)

/-- The step puts `a` at the tail of the running tasks while `b` is not on the
    stretch from the current task's successor to the tail. -/
def Overtakes (s : Kernel) (e : Event) : Prop :=
  ∃ s' ∈ step e s, a ∈ s.waitingNodes ∧ a ∈ s'.runningNodes ∧ b ∉ s.toTail

instance (s : Kernel) (e : Event) : Decidable (Overtakes a b s e) :=
  inferInstanceAs (Decidable (∃ s' ∈ step e s, _))

/-- In the running queue and ready. -/
def IsReady (s : Kernel) : Prop := b ∈ s.runningNodes ∧ s.stateOf b = .READY

instance (s : Kernel) : Decidable (IsReady b s) := inferInstanceAs (Decidable (_ ∧ _))

/-- Before the step `a` is in one of the queues and `b` is ready, and the step
    does not put `a` ahead of `b`. -/
def Keeps (s : Kernel) (e : Event) : Prop :=
  a ∈ s.runningNodes ++ s.waitingNodes ∧ IsReady b s ∧ ¬ Overtakes a b s e

instance (s : Kernel) (e : Event) : Decidable (Keeps a b s e) :=
  inferInstanceAs (Decidable (_ ∧ _ ∧ _))

/-- Going round from the current task, `b` comes before `a`. -/
structure Behind (s : Kernel) : Prop where
  nonnull : s.currentlyRunning ≠ NULL
  order : a ∉ ahead b (turns s.currentlyRunning s.runningNodes)

variable {a b}

/-- Whoever joins the ring, `a` does not get ahead of `b`. -/
theorem behind_join {s s' : Kernel} {v : View} {e : Event} (h : Inv s v) (hb : Behind a b s)
    (hkeeps : Keeps a b s e) (hstep : step e s = some s')
    (hrun : s'.runningNodes = s.runningNodes ∨
      ∃ n, n ∉ s.runningNodes ∧ s'.runningNodes = s.runningNodes ++ [n]) :
    a ∉ ahead b (turns s.currentlyRunning s'.runningNodes) := by
  rcases hrun with hrun | ⟨n, hn, hrun⟩
  · rw [hrun]
    exact hb.order
  · have hcur : s.currentlyRunning ∈ s.runningNodes := by
      rw [runningNodes_eq h.consistent]
      exact h.current hb.nonnull
    intro ha
    rw [hrun] at ha
    -- Who has got ahead was there before, or has just been woken, which is ruled out.
    rcases ahead_join hcur (runningNodes_nodup h.consistent) hkeeps.2.1.1 ha with
      ha | ⟨rfl, hout⟩
    · exact hb.order ha
    · have hwait := (List.mem_append.mp hkeeps.1).resolve_left hn
      refine hkeeps.2.2 ⟨s', hstep, hwait, ?_, hout⟩
      rw [hrun]
      exact List.mem_append_right _ (List.mem_singleton_self _)

/-- Who is behind stays behind, whatever happens but a switch. -/
theorem step_behind {s s' : Kernel} {v : View} {e : Event} (h : Inv s v) (hb : Behind a b s)
    (hkeeps : Keeps a b s e) (he : ∀ psp, e ≠ .pendsv psp) (hstep : step e s = some s')
    (hb' : b ∈ s'.runningNodes) : Behind a b s' := by
  have hnd := runningNodes_nodup h.consistent
  rcases step_inv ⟨v, h⟩ hstep with ⟨v', h'⟩
  have hnd' := runningNodes_nodup h'.consistent
  have hcur' : s'.currentlyRunning ≠ NULL → s'.currentlyRunning ∈ s'.runningNodes := by
    rw [runningNodes_eq h'.consistent]
    exact h'.current
  rcases shift_of_step h hb.nonnull he hstep with ⟨hcur, hrun⟩ | ⟨n, hcur, hn, hrun⟩ |
    ⟨x, y, hrun, hrun', hback⟩ | ⟨hcur, hsub⟩
  · refine ⟨hcur ▸ hb.nonnull, ?_⟩
    rw [hcur]
    exact behind_join h hb hkeeps hstep (Or.inl hrun)
  · refine ⟨hcur ▸ hb.nonnull, ?_⟩
    rw [hcur]
    exact behind_join h hb hkeeps hstep (Or.inr ⟨n, hn, hrun⟩)
  -- The blocked task was the last in the order.
  · rw [hrun'] at hb' hcur' hnd'
    rcases List.eq_nil_or_concat (y ++ x) with hnil | ⟨r, q, hlast⟩
    · have hmem := List.mem_append.mpr (List.mem_append.mp hb').symm
      rw [hnil] at hmem
      exact absurd hmem List.not_mem_nil
    · rw [List.concat_eq_append] at hlast
      have hq := hback r q hlast
      have hqmem : q ∈ x ++ y := by
        have hin : q ∈ y ++ x := hlast ▸ List.mem_append_right _ (List.mem_singleton_self q)
        exact List.mem_append.mpr (List.mem_append.mp hin).symm
      refine ⟨?_, ?_⟩
      · rw [hq]
        refine consistent_node_ne_null h'.consistent (List.mem_append_left _ ?_)
        rwa [← runningNodes_eq h'.consistent, hrun']
      · have horder := hb.order
        rw [hrun] at horder hnd
        rw [turns_erase hnd hlast, ahead_append ((mem_turns hqmem hnd').mpr hb')] at horder
        rwa [hrun', hq]
  · have hnull : s'.currentlyRunning ≠ NULL := hcur ▸ hb.nonnull
    have hmem := hcur' hnull
    refine ⟨hnull, fun ha => hb.order ?_⟩
    rw [← hcur]
    have hturns := turns_sublist hsub hmem hnd
    have hin := hsub.subset hmem
    exact ahead_sublist hturns (turns_nodup hin hnd) ((mem_turns hmem hnd').mpr hb') ha

/-- A switch does not choose a task that is behind, and leaves it behind unless
    it chooses the other. -/
theorem pendsv_behind {s s' : Kernel} {v : View} {psp : Addr} (hab : a ≠ b) (h : Inv s v)
    (hb : Behind a b s) (hkeeps : Keeps a b s (.pendsv psp))
    (hstep : step (.pendsv psp) s = some s') :
    s'.currentlyRunning ≠ a ∧ (s'.currentlyRunning = b ∨ Behind a b s') := by
  rcases step_inv ⟨v, h⟩ hstep with ⟨v', h'⟩
  have hnd' := runningNodes_nodup h'.consistent
  rcases step_enabled hstep with ⟨_, heff⟩
  have hswitch : Switched s s' := by
    rw [← Option.some.inj heff]
    exact pendsvIsr_switched h hb.nonnull psp ⟨b, hkeeps.2.1⟩
  -- A switch only appends to the ring, so the places of its nodes remain.
  have hmem : ∀ n ∈ s.runningNodes, n ∈ s'.runningNodes := by
    intro n hn
    rcases hswitch.run with hrun | ⟨m, _, hrun⟩
    · rwa [hrun]
    · rw [hrun]
      exact List.mem_append_left _ hn
  have hcur : s.currentlyRunning ∈ s'.runningNodes := by
    refine hmem _ ?_
    rw [runningNodes_eq h.consistent]
    exact h.current hb.nonnull
  have horder := behind_join h hb hkeeps hstep hswitch.run
  rcases hswitch.choice b hkeeps.2.1.1 hkeeps.2.1.2 with hchoice | hchoice
  · exact ⟨fun hc => hab (hc.symm.trans hchoice), Or.inl hchoice⟩
  · refine ⟨fun hc => horder (hc ▸ hchoice), Or.inr ⟨?_, fun ha => horder ?_⟩⟩
    · have hin := (mem_turns hcur hnd').mp ((List.takeWhile_sublist _).subset hchoice)
      rw [runningNodes_eq h'.consistent] at hin
      exact consistent_node_ne_null h'.consistent (List.mem_append_left _ hin)
    · exact ahead_choose hcur hnd' (hmem b hkeeps.2.1.1) hchoice ha

/-- Along a run of such steps, `a` is not chosen at the end unless `b` has been
    chosen on the way. -/
theorem run_behind {psp : Addr} (hab : a ≠ b) (fs : List Event) : ∀ {s s' : Kernel} {v : View},
    Inv s v → Behind a b s → Meets step (Keeps a b) (fs ++ [.pendsv psp]) s →
    run step (fs ++ [.pendsv psp]) s = some s' → b ∈ selections fs s ∨ s'.currentlyRunning ≠ a := by
  induction fs with
  | nil =>
      intro s s' v h hb hmeets hrun
      rcases run_cons step hrun with ⟨s₁, hstep, hnil⟩
      simp only [run, Option.some.injEq] at hnil
      rw [← hnil]
      exact Or.inr (pendsv_behind hab h hb hmeets.1 hstep).1
  | cons e fs ih =>
      intro s s' v h hb hmeets hrun
      rcases run_cons step hrun with ⟨s₁, hstep, hrest⟩
      rcases hmeets with ⟨hkeeps, htail⟩
      rw [hstep] at htail
      rcases step_inv ⟨v, h⟩ hstep with ⟨v₁, h₁⟩
      -- The next step is one at which `b` is ready.
      have hready : IsReady b s₁ := by
        cases fs with
        | nil => exact htail.1.2.1
        | cons f fs => exact htail.1.2.1
      by_cases he : ∃ psp, e = .pendsv psp
      · rcases he with ⟨psp', rfl⟩
        have hsel : selections (.pendsv psp' :: fs) s =
            s₁.currentlyRunning :: selections fs s₁ := by
          simp only [selections, hstep]
        rw [hsel]
        rcases (pendsv_behind hab h hb hkeeps hstep).2 with hchosen | hbehind
        · rw [hchosen]
          exact Or.inl List.mem_cons_self
        · exact (ih h₁ hbehind htail hrest).imp_left (List.mem_cons_of_mem _)
      · have hne : ∀ psp, e ≠ .pendsv psp := fun psp hc => he ⟨psp, hc⟩
        have hsel : selections (e :: fs) s = selections fs s₁ := by
          simp only [selections, hstep]
        rw [hsel]
        exact ih h₁ (step_behind h hb hkeeps hne hstep hready.1) htail hrest

end Waiting

/-- From any reachable state on, between two choices of the same task every
    other task that is ready in the running queue throughout is chosen, unless
    the first task was put at the tail while the other was not between the
    current task and the tail. -/
theorem bounded_waiting (s₀ s s₁ s₂ : Kernel) (es fs : List Event) (psp psp' a b : Addr)
    (hab : a ≠ b) (hinit : Initialized s₀) (hrun : run step es s₀ = some s)
    (hfirst : step (.pendsv psp) s = some s₁) (ha : s₁.currentlyRunning = a)
    (hkeeps : Meets step (Keeps a b) (fs ++ [.pendsv psp']) s₁)
    (hrun' : run step (fs ++ [.pendsv psp']) s₁ = some s₂) (ha' : s₂.currentlyRunning = a) :
    b ∈ selections fs s₁ := by
  rcases step_inv (reachable_inv hinit hrun) hfirst with ⟨v, h⟩
  have hnd := runningNodes_nodup h.consistent
  have hnow : ∃ e, Keeps a b s₁ e := by
    cases fs with
    | nil => exact ⟨_, hkeeps.1⟩
    | cons f fs => exact ⟨_, hkeeps.1⟩
  rcases hnow with ⟨_, hmem, ⟨hb, _⟩, _⟩
  have hnull : s₁.currentlyRunning ≠ NULL := by
    rw [runningNodes_eq h.consistent, waitingNodes_eq h.consistent] at hmem
    rw [ha]
    exact consistent_node_ne_null h.consistent hmem
  have hcur : s₁.currentlyRunning ∈ s₁.runningNodes := by
    rw [runningNodes_eq h.consistent]
    exact h.current hnull
  -- The task just chosen is the pointer, and so comes last.
  have hbehind : Behind a b s₁ := by
    refine ⟨hnull, ?_⟩
    rcases List.append_of_mem hcur with ⟨x, y, hl⟩
    rw [hl] at hb hnd ⊢
    have hx : s₁.currentlyRunning ∉ x := fun hc =>
      (List.nodup_append.mp hnd).2.2 _ hc _ List.mem_cons_self rfl
    have hy := (List.nodup_cons.mp (List.nodup_append.mp hnd).2.1).1
    have hbyx : b ∈ y ++ x := by
      rcases List.mem_append.mp hb with hbx | hby
      · exact List.mem_append_right _ hbx
      · rcases List.mem_cons.mp hby with hc | hby
        · exact absurd (ha.symm.trans hc.symm) hab
        · exact List.mem_append_left _ hby
    rw [turns_cut hx, ahead_append hbyx]
    intro hc
    rw [← ha] at hc
    rcases List.mem_append.mp ((List.takeWhile_sublist _).subset hc) with hc | hc
    · exact hy hc
    · exact hx hc
  exact (run_behind hab fs h hbehind hkeeps hrun').resolve_right fun hc => hc ha'

/-- The idle task and three others, with the nodes 14, 24, 34 and 44 in this
    order; the second has been chosen and yields. -/
def fourTasks : List Event :=
  startUp ++ [.createTask (chunksFrom 20) 3 0, .createTask (chunksFrom 30) 3 0,
    .createTask (chunksFrom 40) 3 0, .yieldTask, .pendsv 8, .yieldTask]

/-- The task of node 34 is chosen, blocks and is woken before the switch. It
    joins behind 44, which lies between the pointer and the tail and is chosen
    first. -/
theorem bounded_waiting_fourTasks : Ends step fourTasks freshKernel fun s =>
    Ends step [.pendsv 8] s fun s₁ =>
      Ends step ([.blockCurrentTask, .wakeupPid 2, .pendsv 8, .yieldTask] ++ [.pendsv 8]) s₁
        fun s₂ => s₁.currentlyRunning = 34 ∧ s₂.currentlyRunning = 34 ∧
          44 ∈ selections [.blockCurrentTask, .wakeupPid 2, .pendsv 8, .yieldTask] s₁ := by
  have hends : Ends step fourTasks freshKernel fun s => Ends step [.pendsv 8] s fun s₁ =>
      s₁.currentlyRunning = 34 ∧
        Meets step (Keeps 34 44) ([.blockCurrentTask, .wakeupPid 2, .pendsv 8, .yieldTask] ++
          [.pendsv 8]) s₁ ∧
        Ends step ([.blockCurrentTask, .wakeupPid 2, .pendsv 8, .yieldTask] ++ [.pendsv 8]) s₁
          fun s₂ => s₂.currentlyRunning = 34 := by
    decide +kernel
  rcases hends with ⟨s, hs, s₁, hs₁, ha, hkeeps, s₂, hs₂, ha'⟩
  have hstep : step (.pendsv 8) s = some s₁ := by
    rcases run_cons step hs₁ with ⟨t, hstep, hnil⟩
    simp only [run, Option.some.injEq] at hnil
    rw [hstep, hnil]
  exact ⟨s, hs, s₁, hs₁, s₂, hs₂, ha, ha', bounded_waiting freshKernel s s₁ s₂ fourTasks _ 8 8 34 44
    (by decide) freshKernel_initialized hs hstep ha hkeeps hs₂ ha'⟩

/-- Between two choices of a task another is ready in the running queue
    throughout and is not chosen. The task of node 44, which is not the idle
    task, blocks and is woken before the switch, joins at the tail right behind
    the pointer, and is chosen again at once. That of node 34 blocks, and is
    woken when the pointer has moved on to 44; 24 waits in front of it. -/
theorem unbounded_waiting :
    (Ends step (fourTasks ++ [.pendsv 8, .yieldTask, .pendsv 8]) freshKernel fun s₁ =>
      s₁.currentlyRunning = 44 ∧ s₁.pidOf 44 ≠ toUnsigned s₁.idleTask ∧
        Meets step (fun s _ => IsReady 24 s) [.blockCurrentTask, .wakeupPid 3, .pendsv 8] s₁ ∧
        Ends step [.blockCurrentTask, .wakeupPid 3, .pendsv 8] s₁ (IsReady 24) ∧
        selections [.blockCurrentTask, .wakeupPid 3, .pendsv 8] s₁ = [44]) ∧
    Ends step (fourTasks ++ [.pendsv 8]) freshKernel fun s₁ =>
      s₁.currentlyRunning = 34 ∧ s₁.pidOf 34 ≠ toUnsigned s₁.idleTask ∧
        Meets step (fun s _ => IsReady 24 s) [.blockCurrentTask, .pendsv 8, .wakeupPid 2,
          .yieldTask, .pendsv 8] s₁ ∧
        Ends step [.blockCurrentTask, .pendsv 8, .wakeupPid 2, .yieldTask, .pendsv 8] s₁
          (IsReady 24) ∧
        selections [.blockCurrentTask, .pendsv 8, .wakeupPid 2, .yieldTask, .pendsv 8] s₁ =
          [44, 34] := by
  decide +kernel

end NextLevelRTOS
