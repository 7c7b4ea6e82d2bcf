import NextLevelRTOS.Process.Placement

/-!
# Clean-Up Requests

`process_stats.clean_up_requests` tells the idle task whether there are dead
tasks to reap. It is meant to count them: finishing and faulting raise it, and
`search_invalidate_tasks` lowers it for each task it reaps. It is four bits
wide, so sixteen dead tasks look like none.

Two kinds of function change whether a task is dead and leave the counter
alone. `force_pid0_into_running` sets the first task with the identifier zero
to `READY`, dead or not. `kill_child_task` and `kill_all_child_tasks` mark
tasks `INVALID`. What they mark they find by following child lists, and what
those hold are addresses of local variables: apart from the first list the
walk reads memory that is not the kernel's any more, or, for the list at
`!parent`, never was. Such memory may hold anything, and what is read there
comes in with the call as a `Stray`.

## Main definitions

* `Stray`: What memory holds where the kernel has no object.
* `killChildTask`, `killAllChildTasks`: The two functions.
* `RequestEvent`, `requestStep`: The kernel's events together with the two.
* `deadCount`: The dead tasks that have not been reaped.
* `Counted`: A step after which the counter still counts.

## Theorems

* `countP_flip`: Changing one element changes the count by one.
* `searchLoop_count`: The search keeps the counter in step.
* `cleanUpRequests_count`: Every run of counted steps keeps the counter in step.
-/

namespace NextLevelRTOS

open Machine

section Killing

/-- What memory holds where the kernel has no object of the kind. -/
structure Stray where
  tcb : Addr → Tcb
  list : Addr → SingleList
  snode : Addr → SingleLinkedNode

variable (stray : Stray) (s : Kernel)

/-- What a control block pointer reads. -/
def tcbAt (t : Addr) : Tcb := readTcb (stray.tcb t) t s

/-- What a list pointer reads: the list as long as its chunk is in use. -/
def listAt (a : Addr) : SingleList := if a ∈ s.occupied then s.list a else stray.list a

/-- What a pointer to a list node reads. -/
def snodeAt (a : Addr) : SingleLinkedNode := if a ∈ s.occupied then s.snode a else stray.snode a

/-- The list that `kill_child_task` searches:
    `child_tasks ? (List_t*) !parent : parent->child_tasks`. -/
def searchedList (parent : Addr) : Addr :=
  if (s.tcb (s.dataOf s.currentlyRunning)).childTasks ≠ NULL then
    (if parent = NULL then 1 else 0)
  else (tcbAt stray s parent).childTasks

/-- The loop of `kill_child_task`: the first entry with this identifier. The
    outer `none` is a loop that has not ended after `fuel` rounds. -/
def searchChild (pidOfChild : Nat) : Nat → Addr → Option (Option Addr)
  | 0, _ => none
  | fuel + 1, q =>
    if q = NULL then some none
    else if (tcbAt stray s (snodeAt stray s q).data).pid = pidOfChild then
      some (some (snodeAt stray s q).data)
    else searchChild pidOfChild fuel (snodeAt stray s q).next

/-- The control blocks that `kill_child_task` marks, one at most. -/
def childToKill (pidOfChild : Nat) (parent : Addr) (fuel : Nat) : Option (List Addr) :=
  let childTasks := listAt stray s (searchedList stray s parent)
  if childTasks.size = 0 then some []
  else (searchChild stray s pidOfChild fuel childTasks.head).map Option.toList

mutual

/-- The control blocks that `kill_all_child_tasksR` marks, in order: the
    descendants of `parent`, each after its own. -/
def childrenR : Nat → Addr → Option (List Addr)
  | 0, _ => none
  | fuel + 1, parent =>
    let childTasks := listAt stray s (tcbAt stray s parent).childTasks
    if childTasks.size = 0 then some [] else childrenLoop fuel childTasks.head

/-- `while (q)` of `kill_all_child_tasksR` -/
def childrenLoop : Nat → Addr → Option (List Addr)
  | 0, _ => none
  | fuel + 1, q =>
    if q = NULL then some []
    else
      match childrenR fuel (snodeAt stray s q).data,
        childrenLoop fuel (snodeAt stray s q).next with
      | some below, some rest => some (below ++ (snodeAt stray s q).data :: rest)
      | _, _ => none

end

/-- The control blocks that `kill_all_child_tasks` marks: those below the first
    entry of the current task's child list, and not the entry itself. -/
def childrenToKill (fuel : Nat) : Option (List Addr) :=
  let childTasks := listAt stray s (s.tcb (s.dataOf s.currentlyRunning)).childTasks
  childrenR stray s fuel (snodeAt stray s childTasks.head).data

/-- `state = INVALID` for control blocks, in order. The walk reads no state, so
    it may be taken as a whole before the first of them is marked. -/
def markInvalid (targets : List Addr) (s : Kernel) : Kernel :=
  targets.foldl (fun s d => s.setState d .INVALID) s

/-- `kill_child_task` -/
def killChildTask (pidOfChild : Nat) (parent : Addr) (fuel : Nat) : Option Kernel :=
  (childToKill stray s pidOfChild parent fuel).map fun targets => markInvalid targets s

/-- `kill_all_child_tasks` -/
def killAllChildTasks (fuel : Nat) : Option Kernel :=
  (childrenToKill stray s fuel).map fun targets => markInvalid targets s

end Killing

/-- The kernel's events and the two functions a task may call to kill. -/
inductive RequestEvent where
  | kernel (e : Event)
  | killChildTask (pidOfChild : Nat) (parent : Addr) (fuel : Nat) (stray : Stray)
  | killAllChildTasks (fuel : Nat) (stray : Stray)

/-- The transition function with killing. -/
def requestStep : RequestEvent → Kernel → Option Kernel
  | .kernel e, s => step e s
  | .killChildTask pidOfChild parent fuel stray, s =>
    if Thread s then killChildTask stray s pidOfChild parent fuel else none
  | .killAllChildTasks fuel stray, s =>
    if Thread s then killAllChildTasks stray s fuel else none

/-- `state == FINISHED || state == INVALID` -/
def TaskState.isDead (state : TaskState) : Bool := state = .FINISHED ∨ state = .INVALID

/-- The tasks that are dead and have not been reaped. -/
def deadCount (s : Kernel) : Nat := s.live.countP fun t => (s.tcb t).state.isDead

/-- A switch will set a dead task to `READY`: the ring search finds nobody, or
    is not made, the idle task does not wait, and the first running task with
    the identifier zero is dead. -/
def Revives (s : Kernel) : Prop :=
  (s.currentlyRunning = NULL ∨ ∀ n ∈ s.runningTasks.members s.node, s.stateOf n ≠ .READY) ∧
  (∀ n ∈ s.waitingTasks.members s.node, s.pidOf n ≠ toUnsigned s.idleTask) ∧
  ∃ n ∈ (s.runningTasks.members s.node).find? (fun n => s.pidOf n = 0), (s.stateOf n).isDead

instance (s : Kernel) : Decidable (Revives s) := inferInstanceAs (Decidable (_ ∧ _ ∧ _))

/-- Of the control blocks about to be marked none is that of a live task that
    is not dead already. -/
def KillsNobody (targets : Option (List Addr)) (s : Kernel) : Prop :=
  ∀ l ∈ targets, ∀ d ∈ l, d ∈ s.live → (s.tcb d).state.isDead

instance (targets : Option (List Addr)) (s : Kernel) : Decidable (KillsNobody targets s) :=
  inferInstanceAs (Decidable (∀ l ∈ targets, _))

/-- A step after which the counter still counts: a task dies with room in the
    counter, no dead task is revived and none is killed. -/
def Counted (s : Kernel) : RequestEvent → Prop
  | .kernel (.finishTask _) => s.cleanUpRequests < 15
  | .kernel .invalidateCurrentTask => s.cleanUpRequests < 15
  | .kernel (.pendsv _) => ¬ Revives s
  | .kernel _ => True
  | .killChildTask pidOfChild parent fuel stray =>
    KillsNobody (childToKill stray s pidOfChild parent fuel) s
  | .killAllChildTasks fuel stray => KillsNobody (childrenToKill stray s fuel) s

instance decidableCounted (s : Kernel) : ∀ e : RequestEvent, Decidable (Counted s e)
  | .kernel (.createTask ..) => isTrue trivial
  | .kernel (.createIdle ..) => isTrue trivial
  | .kernel .runScheduler => isTrue trivial
  | .kernel (.allocateImage _) => isTrue trivial
  | .kernel .blockCurrentTask => isTrue trivial
  | .kernel (.wakeupPid _) => isTrue trivial
  | .kernel .yieldTask => isTrue trivial
  | .kernel (.pendsv _) => inferInstanceAs (Decidable (¬ Revives s))
  | .kernel (.finishTask _) => inferInstanceAs (Decidable (s.cleanUpRequests < 15))
  | .kernel .invalidateCurrentTask => inferInstanceAs (Decidable (s.cleanUpRequests < 15))
  | .kernel .searchInvalidateTasks => isTrue trivial
  | .kernel (.joinTask _) => isTrue trivial
  | .kernel (.dmaInterrupt _) => isTrue trivial
  | .killChildTask pidOfChild parent fuel stray =>
    inferInstanceAs (Decidable (KillsNobody (childToKill stray s pidOfChild parent fuel) s))
  | .killAllChildTasks fuel stray =>
    inferInstanceAs (Decidable (KillsNobody (childrenToKill stray s fuel) s))

section Counting

/-- Changing one element of a list without duplicates changes the count by
    one. -/
theorem countP_flip {α : Type} {p q : α → Bool} {l : List α} {a : α} (hnodup : l.Nodup)
    (ha : a ∈ l) (hp : p a = false) (hq : q a = true) (hother : ∀ b ∈ l, b ≠ a → q b = p b) :
    l.countP q = l.countP p + 1 := by
  induction l with
  | nil => exact absurd ha List.not_mem_nil
  | cons b l ih =>
      rcases List.nodup_cons.mp hnodup with ⟨hb, hl⟩
      rw [List.countP_cons, List.countP_cons]
      by_cases hab : a = b
      · have hrest : l.countP q = l.countP p := by
          refine List.countP_congr fun c hc => ?_
          rw [hother c (List.mem_cons_of_mem _ hc) fun hca => hb (hab ▸ hca ▸ hc)]
        rw [← hab, hp, hq, hrest, if_pos rfl, if_neg Bool.false_ne_true]
      · have hmem : a ∈ l := (List.mem_cons.mp ha).resolve_left hab
        rw [ih hl hmem fun c hc => hother c (List.mem_cons_of_mem _ hc),
          hother b List.mem_cons_self fun hc => hab hc.symm]
        omega

/-- Nobody's death, nobody's revival. -/
structure SameDead (s s' : Kernel) : Prop where
  live : s'.live = s.live
  state : ∀ t ∈ s.live, (s'.tcb t).state.isDead = (s.tcb t).state.isDead
  requests : s'.cleanUpRequests = s.cleanUpRequests

theorem sameDead_refl (s : Kernel) : SameDead s s := ⟨rfl, fun _ _ => rfl, rfl⟩

theorem sameDead_trans {s s' s'' : Kernel} (h : SameDead s s') (h' : SameDead s' s'') :
    SameDead s s'' := by
  refine ⟨h'.live.trans h.live, fun t ht => ?_, h'.requests.trans h.requests⟩
  rw [h'.state t (by rwa [h.live]), h.state t ht]

theorem sameDead_count {s s' : Kernel} (h : SameDead s s') : deadCount s' = deadCount s := by
  unfold deadCount
  rw [h.live]
  exact List.countP_congr fun t ht => by rw [h.state t ht]

/-- A live task changes its state and nobody else does. -/
theorem setState_state (s : Kernel) (t u : Addr) (state : TaskState) :
    ((s.setState t state).tcb u).state = if u = t then state else (s.tcb u).state := by
  by_cases h : u = t
  · rw [if_pos h, h]
    simp only [Kernel.setState, Function.update_self]
  · rw [if_neg h]
    simp only [Kernel.setState, Function.update_of_ne h]

theorem setState_sameDead {s : Kernel} {t : Addr} {state : TaskState}
    (h : t ∈ s.live → state.isDead = (s.tcb t).state.isDead) :
    SameDead s (s.setState t state) := by
  refine ⟨rfl, fun u hu => ?_, rfl⟩
  rw [setState_state]
  by_cases hut : u = t
  · rw [if_pos hut, hut]
    exact h (hut ▸ hu)
  · rw [if_neg hut]

/-- Waking makes a task ready that was not dead. -/
theorem wakeupPid_sameDead {s : Kernel} {v : View} (h : Consistent s v) (pid : Nat) :
    SameDead s (wakeupPid pid s).2 := by
  rcases wakeupPid_cases h pid with ⟨_, heq⟩ | ⟨q, hq, _, _, heq⟩
  · rw [heq]
    exact sameDead_refl s
  · have hwait : (s.tcb (s.dataOf q)).state = .WAITING := h.waitingState q hq
    have hset : SameDead s (s.setState (s.dataOf q) .READY) :=
      setState_sameDead fun _ => by rw [hwait]; rfl
    rw [heq]
    dsimp only
    rw [wakeNode_eq]
    exact ⟨hset.live, hset.state, hset.requests⟩

/-- The workaround revives nobody if the task it finds is not dead. -/
theorem forcePid0IntoRunning_sameDead {s : Kernel} {v : View} (h : Consistent s v)
    (halive : ∀ n ∈ v.running.find? (fun n => s.pidOf n = 0), ¬ (s.stateOf n).isDead) :
    SameDead s (forcePid0IntoRunning s) := by
  unfold forcePid0IntoRunning
  rw [findNode_eq _ h.running]
  cases hfind : v.running.find? (fun q => s.pidOf q = 0) with
  | none => exact sameDead_refl s
  | some q =>
      have hstate : (s.tcb (s.dataOf q)).state.isDead = false :=
        Bool.eq_false_iff.mpr (halive q hfind)
      have hset : SameDead s (s.setState (s.dataOf q) .READY) :=
        setState_sameDead fun _ => by rw [hstate]; rfl
      exact ⟨hset.live, hset.state, hset.requests⟩

/-- A transferred image leaves things as they are or wakes the waiting idle
    task. -/
theorem serveDma_cases {s : Kernel} {v : View} (h : Consistent s v) :
    serveDma s = s ∨ ∃ q ∈ v.waiting, s.pidOf q = toUnsigned s.idleTask ∧
      serveDma s = wakeNode q s := by
  rcases serveDma_eq s with heq | heq
  · exact Or.inl heq
  · rw [heq]
    rcases wakeupPid_cases h (toUnsigned s.idleTask) with ⟨_, heq⟩ | ⟨q, hq, _, hpid, heq⟩
    · rw [heq]
      exact Or.inl rfl
    · rw [heq]
      exact Or.inr ⟨q, hq, hpid, rfl⟩

theorem serveDma_sameDead {s : Kernel} {v : View} (h : Consistent s v) :
    SameDead s (serveDma s) := by
  rcases serveDma_eq s with heq | heq
  · rw [heq]
    exact sameDead_refl s
  · rw [heq]
    exact wakeupPid_sameDead h _

/-- `Revives`, in terms of the lists behind the queues. -/
def RevivesIn (s : Kernel) (v : View) : Prop :=
  (s.currentlyRunning = NULL ∨ ∀ n ∈ v.running, s.stateOf n ≠ .READY) ∧
  (∀ n ∈ v.waiting, s.pidOf n ≠ toUnsigned s.idleTask) ∧
  ∃ n ∈ v.running.find? (fun n => s.pidOf n = 0), (s.stateOf n).isDead

theorem revives_iff {s : Kernel} {v : View} (h : Consistent s v) : Revives s ↔ RevivesIn s v := by
  unfold Revives RevivesIn
  rw [represents_members h.running, represents_members h.waiting]

/-- A failed wakeup of the idle task followed by the workaround. -/
theorem wakeIdle_sameDead {s s₁ : Kernel} {v : View} (h : Consistent s v)
    (hno : ¬ RevivesIn s v)
    (hidle : s.currentlyRunning = NULL ∨ ∀ n ∈ v.running, s.stateOf n ≠ .READY) (preserve : Addr)
    (hs₁ : s₁ = { (wakeupPid (toUnsigned s.idleTask) s).2 with
      currentlyRunning := (wakeupPid (toUnsigned s.idleTask) s).1
      taskToPreserve := preserve }) :
    SameDead s (if (wakeupPid (toUnsigned s.idleTask) s).1 = NULL then forcePid0IntoRunning s₁
      else s₁) := by
  have hwake := wakeupPid_sameDead h (toUnsigned s.idleTask)
  have hsame : SameDead s s₁ := by
    rw [hs₁]
    exact ⟨hwake.live, hwake.state, hwake.requests⟩
  -- No idle task waits: the fallback looks for pid 0, which may be a dead task.
  by_cases hq : (wakeupPid (toUnsigned s.idleTask) s).1 = NULL
  · rw [if_pos hq]
    rcases wakeupPid_cases h (toUnsigned s.idleTask) with ⟨hnone, heq⟩ | ⟨q, hmem, _, _, heq⟩
    · rw [heq] at hs₁
      have hcons : Consistent s₁ v := by
        rw [hs₁]
        exact consistent_control h ..
      have hpid : s₁.pidOf = s.pidOf := by rw [hs₁]; rfl
      have hst : s₁.stateOf = s.stateOf := by rw [hs₁]; rfl
      refine sameDead_trans hsame (forcePid0IntoRunning_sameDead hcons fun n hn hdead => ?_)
      rw [hpid] at hn
      rw [hst] at hdead
      exact hno ⟨hidle, hnone, n, hn, hdead⟩
    · rw [heq] at hq
      exact absurd hq (consistent_node_ne_null h (List.mem_append_right _ hmem))
  · rw [if_neg hq]
    exact hsame

/-- A switch that revives nobody changes nobody's death. -/
theorem switchTask_sameDead {s : Kernel} {v : View} (h : Consistent s v)
    (hcur : s.currentlyRunning ≠ NULL → s.currentlyRunning ∈ v.running)
    (hno : ¬ RevivesIn s v) : SameDead s (switchTask s) := by
  by_cases hnull : s.currentlyRunning = NULL
  · rw [switchTask_null hnull]
    have hwake := wakeIdle_sameDead h hno (Or.inl hnull)
      (wakeupPid (toUnsigned s.idleTask) s).2.taskToPreserve rfl
    exact ⟨hwake.live, hwake.state, hwake.requests⟩
  · have hdma := serveDma_sameDead h
    cases hq : nextReady (serveDma s) (serveDma s).runningTasks.size
        (serveDma s).currentlyRunning with
    | some q =>
        rw [switchTask_found hnull hq]
        exact ⟨hdma.live, hdma.state, hdma.requests⟩
    | none =>
        rw [switchTask_idle hnull hq]
        rcases serveDma_cases h with heq | ⟨q, hmem, _, heq⟩
        · rw [heq] at hq ⊢
          rcases nextReady_cases h.running (hcur hnull) with ⟨n, _, _, hfound⟩ | ⟨hnone, _⟩
          · rw [hq] at hfound
            exact absurd hfound (by simp only [reduceCtorEq, not_false_eq_true])
          · exact wakeIdle_sameDead h hno (Or.inr hnone) _ rfl
        -- The idle task has just been woken, so the search finds it.
        · rw [heq] at hq
          have hcons := wakeNode_consistent h hmem
          have hsame : (wakeNode q s).currentlyRunning = s.currentlyRunning := by
            rw [wakeNode_eq]
          have hin : (wakeNode q s).currentlyRunning ∈ (v.wake q).running := by
            rw [hsame]
            exact List.mem_append_left _ (hcur hnull)
          rcases nextReady_cases hcons.running hin with ⟨n, _, _, hfound⟩ | ⟨hnone, _⟩
          · rw [hq] at hfound
            exact absurd hfound (by simp only [reduceCtorEq, not_false_eq_true])
          · exact absurd (stateOf_wakeNode_self s q)
              (hnone q (List.mem_append_right _ List.mem_cons_self))

theorem pendsvIsr_sameDead {s : Kernel} {v : View} (h : Inv s v) (psp : Addr)
    (hno : ¬ Revives s) : SameDead s (pendsvIsr psp s) := by
  set s₀ : Kernel := { s with pendsv := false } with hs₀
  set t := s₀.dataOf s₀.taskToPreserve with ht
  have hclear : Consistent s₀ v := consistent_control h.consistent ..
  have hsave := moved_setTcb hclear
    (show SameTask (s₀.tcb t) { s₀.tcb t with sp := psp } from
      ⟨rfl, rfl, rfl, rfl, rfl, rfl⟩) rfl
  have hno' : ¬ RevivesIn (s₀.setTcb t { s₀.tcb t with sp := psp }) v := by
    rintro ⟨hidle, hwait, hdead⟩
    simp only [moved_pidOf hsave.1.frame, hsave.2] at hidle hwait hdead
    exact hno ((revives_iff h.consistent).mpr ⟨hidle, hwait, hdead⟩)
  -- Saving the stack pointer changes nobody's state, so nobody is revived by it.
  have hset : SameDead s (s₀.setTcb t { s₀.tcb t with sp := psp }) := by
    refine ⟨rfl, fun u _ => ?_, rfl⟩
    by_cases hu : u = t
    · rw [hu]
      simp only [Kernel.setTcb, Function.update_self]
      rfl
    · simp only [Kernel.setTcb, Function.update_of_ne hu]
      rfl
  exact sameDead_trans hset (switchTask_sameDead hsave.1.consistent h.current hno')

/-- The current task dies. -/
theorem dies_count {s : Kernel} {v : View} (h : Inv s v) (hthread : Thread s)
    (state : TaskState) (hdead : state.isDead = true) :
    deadCount (s.setState (s.dataOf s.currentlyRunning) state) = deadCount s + 1 := by
  have hcur := inv_current_running h hthread
  have hlive : s.dataOf s.currentlyRunning ∈ s.live :=
    (consistent_live_iff h.consistent _).mpr ⟨_, List.mem_append_left _ hcur, rfl⟩
  have hready : (s.tcb (s.dataOf s.currentlyRunning)).state = .READY := (h.thread hthread).1
  have hnodup := consistent_live_nodup h.consistent
  change s.live.countP _ = s.live.countP _ + 1
  refine countP_flip hnodup hlive ?_ ?_ fun t _ ht => ?_
  · rw [hready]
    rfl
  · rw [setState_state, if_pos rfl]
    exact hdead
  · rw [setState_state, if_neg ht]

/-- The counter counts the dead tasks, and has room for them. -/
structure Counts (s : Kernel) : Prop where
  eq : s.cleanUpRequests = deadCount s
  lt : s.cleanUpRequests < 16

theorem counts_sameDead {s s' : Kernel} (h : Counts s) (hsame : SameDead s s') : Counts s' := by
  refine ⟨?_, ?_⟩
  · rw [hsame.requests, sameDead_count hsame, h.eq]
  · rw [hsame.requests]
    exact h.lt

/-- A request for a task that has died in between. -/
theorem counts_died {s s₁ s₂ : Kernel} (h : Counts s) (hroom : s.cleanUpRequests < 15)
    (hcount : deadCount s₁ = deadCount s + 1) (hsame : SameDead s₁ s₂)
    (hrequests : s₁.cleanUpRequests = s.cleanUpRequests) (pendsv : Bool) :
    Counts { requestCleanUp s₂ with pendsv := pendsv } := by
  have hreq : (requestCleanUp s₂).cleanUpRequests = s.cleanUpRequests + 1 := by
    change (s₂.cleanUpRequests + 1) % 16 = _
    rw [hsame.requests, hrequests]
    omega
  refine ⟨?_, ?_⟩
  · change (requestCleanUp s₂).cleanUpRequests = deadCount s₂
    rw [hreq, sameDead_count hsame, hcount, h.eq]
  · change (requestCleanUp s₂).cleanUpRequests < 16
    omega

theorem finishTask_counts {s : Kernel} {v : View} (h : Inv s v) (hcount : Counts s)
    (hthread : Thread s) (hroom : s.cleanUpRequests < 15) (stale : Tcb) :
    Counts (finishTask stale s) := by
  have hset := setState_current_moved h hthread
    (show TaskState.FINISHED ≠ .WAITING from fun hc => TaskState.noConfusion hc)
  refine counts_died hcount hroom (dies_count h hthread .FINISHED rfl) ?_ rfl true
  unfold wakeJoiningParent
  dsimp only
  split
  · exact wakeupPid_sameDead hset.consistent _
  · exact sameDead_refl _

theorem invalidateCurrentTask_counts {s : Kernel} {v : View} (h : Inv s v) (hcount : Counts s)
    (hthread : Thread s) (hroom : s.cleanUpRequests < 15) :
    Counts (invalidateCurrentTask s) :=
  counts_died hcount hroom (dies_count h hthread .INVALID rfl) (sameDead_refl _) rfl
    true

/-- A task that is reaped was dead. -/
theorem reaped_live {s s' : Kernel} {v v' : View} (h : Consistent s v) (hreaped : Reaped s s' v v')
    {t : Addr} (ht : t ∈ s.live) (halive : (s.tcb t).state.isDead = false) : t ∈ s'.live := by
  rcases (consistent_live_iff h t).mp ht with ⟨n, hn, rfl⟩
  refine (consistent_live_iff hreaped.consistent _).mpr ⟨n, ?_, congrFun hreaped.data n⟩
  rcases List.mem_append.mp hn with hr | hw
  · by_contra hgone
    have hstate := hreaped.dead n hr fun hc => hgone (List.mem_append_left _ hc)
    exact Bool.noConfusion (halive.symm.trans (decide_eq_true hstate))
  · rw [View.nodes, hreaped.waiting]
    exact List.mem_append_right _ hw

/-- Reaping a dead task lowers both the counter and what it counts. -/
theorem reap_counts {s : Kernel} {v : View} (h : Consistent s v) (hcount : Counts s) {q : Addr}
    (hq : q ∈ v.running) (hdead : s.stateOf q = .FINISHED ∨ s.stateOf q = .INVALID) :
    Counts (reap q s) := by
  have hlive : s.dataOf q ∈ s.live :=
    (consistent_live_iff h _).mpr ⟨q, List.mem_append_left _ hq, rfl⟩
  have hless : deadCount s = deadCount (reap q s) + 1 := by
    rw [reap_eq]
    unfold deadCount
    rw [(List.perm_cons_erase hlive).countP_eq, List.countP_cons, if_pos]
    exact decide_eq_true hdead
  have hreq : (reap q s).cleanUpRequests = (s.cleanUpRequests + 15) % 16 := by rw [reap_eq]
  have heq := hcount.eq
  have hlt := hcount.lt
  exact ⟨by omega, by omega⟩

/-- The search keeps the counter in step with the dead tasks, however many it
    meets. The induction is that of `searchLoop_reaped`. -/
theorem searchLoop_count (fuel j : Nat) : ∀ (q : Addr) (s : Kernel) (v : View),
    Consistent s v → q ∈ v.running → s.currentlyRunning ∈ v.running →
    s.stateOf s.currentlyRunning = .READY → Counts s → Counts (searchLoop fuel j q s) := by
  induction fuel generalizing j with
  | zero => exact fun q s v _ _ _ _ hcount => hcount
  | succ fuel ih =>
      intro q s v h hq hcur hready hcount
      rw [searchLoop]
      by_cases hj : j < s.runningTasks.size
      · rw [if_pos hj]
        by_cases hdead : s.stateOf q = .FINISHED ∨ s.stateOf q = .INVALID
        · simp only [hdead, if_true]
          rcases reap_round h hq hcur hready hdead with ⟨hstep, hnext, hcur', hready'⟩
          exact ih (j + 1) _ _ _ hstep.consistent hnext hcur' hready'
            (reap_counts h hcount hq hdead)
        · simp only [hdead, if_false]
          exact ih (j + 1) _ s v h (represents_next_mem h.running hq) hcur hready hcount
      · rw [if_neg hj]
        exact hcount

/-- A creation leaves the counter alone, and two more global variables. -/
theorem createTask_globals {c : Chunks} {slot ramLocation : Addr} {s s' : Kernel} {result : Int}
    (h : createTask c slot ramLocation s = some (result, s')) :
    s'.cleanUpRequests = s.cleanUpRequests ∧ s'.dmaInterruptAction = s.dmaInterruptAction ∧
      s'.idleTask = s.idleTask := by
  rcases createTask_cases h with ⟨_, _, rfl⟩ | ⟨_, _, _, rfl⟩ |
    ⟨_, list, snode, _, ⟨_, _, rfl⟩ | ⟨_, hnode, rfl⟩⟩
  · exact ⟨rfl, rfl, rfl⟩
  · rw [allocate_eq]
    exact ⟨rfl, rfl, rfl⟩
  · exact ⟨rfl, rfl, rfl⟩
  · have hstate := newTcb_state c ramLocation s
    rw [← prepared_tcb c ramLocation list snode s] at hstate
    rw [insertScheduledTask_some hnode hstate]
    exact ⟨rfl, rfl, rfl⟩

/-- A new task is not dead, and no other task is touched. -/
theorem createTask_counts {s s' : Kernel} {v : View} (h : Inv s v) (hcount : Counts s)
    {c : Chunks} {slot ramLocation : Addr} {result : Int} (hfree : c.Free s)
    (himage : ramLocation = 0 ∨ ramLocation ∈ s.images)
    (hrun : createTask c slot ramLocation s = some (result, s')) : Counts s' := by
  have hreq := (createTask_globals hrun).1
  have hsum : deadCount s' = deadCount s := by
    rcases createTask_inv h hfree himage hrun with ⟨v', _, hkeep, ⟨_, hnot⟩ | ⟨_, hnew⟩⟩
    · unfold deadCount
      rw [hnot.live]
      exact List.countP_congr fun t ht => by rw [hkeep.tcb t ht]
    -- A task begins as ready or as waiting.
    · have halive : (newTcb c ramLocation s).state.isDead = false := by
        rcases newTcb_state c ramLocation s with hst | hst
        · rw [hst]
          rfl
        · rw [hst]
          rfl
      unfold deadCount
      rw [hnew.live, List.countP_append, List.countP_singleton, hnew.tcb, halive,
        if_neg Bool.false_ne_true, Nat.add_zero]
      exact List.countP_congr fun t ht => by rw [hkeep.tcb t ht]
  refine ⟨?_, ?_⟩
  · rw [hreq, hsum, hcount.eq]
  · rw [hreq]
    exact hcount.lt

theorem runScheduler_sameDead {s : Kernel} {v : View} (h : Consistent s v) :
    SameDead s (runScheduler s).2 := by
  unfold runScheduler
  cases hens : ensureRunning s with
  | none => exact sameDead_refl s
  | some s₁ =>
      have hsame : SameDead s s₁ := by
        unfold ensureRunning at hens
        split at hens
        · split at hens
          · exact absurd hens (by simp only [reduceCtorEq, not_false_eq_true])
          · rw [← Option.some.inj hens]
            exact wakeupPid_sameDead h _
        · rw [← Option.some.inj hens]
          exact sameDead_refl s
      dsimp only
      split
      · exact ⟨hsame.live, hsame.state, hsame.requests⟩
      · exact ⟨hsame.live, hsame.state, hsame.requests⟩

theorem blockCurrentTask_sameDead {s : Kernel} {v : View} (h : Inv s v) (hthread : Thread s) :
    SameDead s (blockCurrentTask s) := by
  have hready : (s.tcb (s.dataOf s.currentlyRunning)).state = .READY := (h.thread hthread).1
  have hset : SameDead s (s.setState (s.dataOf s.currentlyRunning) .WAITING) :=
    setState_sameDead fun _ => by rw [hready]; rfl
  rw [blockCurrentTask_eq]
  exact ⟨hset.live, hset.state, hset.requests⟩

end Counting

section Kills

/-- Marking a task that is dead already, or memory that is no task's. -/
theorem mark_inv {s : Kernel} {v : View} (h : Inv s v) (hthread : Thread s) {d : Addr}
    (hd : d ∈ s.live → (s.tcb d).state.isDead = true) :
    Inv (s.setState d .INVALID) v ∧ SameDead s (s.setState d .INVALID) := by
  -- The current task is ready, hence not the one that is marked.
  have hne : s.dataOf s.currentlyRunning ≠ d := by
    intro hc
    have hlive := (consistent_live_iff h.consistent _).mpr
      ⟨_, List.mem_append_left _ (inv_current_running h hthread), hc⟩
    have hready : (s.tcb d).state = .READY := by
      rw [← hc]
      exact (h.thread hthread).1
    have hdead := hd hlive
    rw [hready] at hdead
    exact Bool.noConfusion hdead
  have hcons : Consistent (s.setState d .INVALID) v := by
    by_cases hlive : d ∈ s.live
    · rcases (consistent_live_iff h.consistent d).mp hlive with ⟨n, hn, rfl⟩
      rcases List.mem_append.mp hn with hr | hw
      · exact consistent_setState h.consistent hr fun hc => TaskState.noConfusion hc
      · have hwait : (s.tcb (s.dataOf n)).state = .WAITING := h.consistent.waitingState n hw
        have hdead := hd hlive
        rw [hwait] at hdead
        exact Bool.noConfusion hdead
    · exact consistent_setTcb h.consistent hlive _
  refine ⟨⟨hcons, fun hb => ?_, h.current, h.preserve, fun _ => ⟨?_, (h.thread hthread).2⟩,
    h.pending⟩, setState_sameDead fun hlive => (hd hlive).symm⟩
  · exact Bool.noConfusion (hthread.1.symm.trans hb)
  · have hst := setState_state s d (s.dataOf s.currentlyRunning) .INVALID
    rw [if_neg hne] at hst
    exact hst.trans (h.thread hthread).1

theorem markInvalid_inv (targets : List Addr) : ∀ {s : Kernel} {v : View}, Inv s v → Thread s →
    (∀ d ∈ targets, d ∈ s.live → (s.tcb d).state.isDead = true) →
    Inv (markInvalid targets s) v ∧ SameDead s (markInvalid targets s) := by
  induction targets with
  | nil => exact fun h _ _ => ⟨h, sameDead_refl _⟩
  | cons d targets ih =>
      intro s v h hthread htargets
      rcases mark_inv h hthread (htargets d List.mem_cons_self) with ⟨hinv, hsame⟩
      have hrest := ih hinv hthread fun u hu hlive => by
        rw [hsame.state u hlive]
        exact htargets u (List.mem_cons_of_mem _ hu) hlive
      exact ⟨hrest.1, sameDead_trans hsame hrest.2⟩

end Kills

theorem initialized_globals {s : Kernel} (h : Initialized s) :
    s.cleanUpRequests = 0 ∧ s.dmaInterruptAction = 0 := by
  rcases h with ⟨node, tcb, list, snode, rq, wq, _, heq⟩
  rcases initScheduler_cases rq wq (Kernel.reset node tcb list snode) with hfail | ⟨_, _, hinit⟩
  · rw [heq] at hfail
    exact absurd (show (0 : Int) = -1 from hfail) (by decide)
  · rw [heq, Prod.mk.injEq] at hinit
    rw [hinit.2]
    exact ⟨rfl, rfl⟩

/-- Every event of the kernel that is counted keeps the count. -/
theorem step_counts {s s' : Kernel} {e : Event} {v : View} (h : Inv s v) (hcount : Counts s)
    (hC : Counted s (.kernel e)) (hstep : step e s = some s') : Counts s' := by
  -- Only creations add tasks and only the end of a task and the search change the
  -- counter.
  rcases step_enabled hstep with ⟨hen, heff⟩
  cases e with
  | createTask c slot ramLocation =>
      rcases Option.map_eq_some_iff.mp heff with ⟨⟨result, s₁⟩, hrun, rfl⟩
      exact createTask_counts h hcount hen.2.1 hen.2.2 hrun
  | createIdle c slot =>
      rcases createIdle_some heff with ⟨result, s₁, hrun, rfl⟩
      have hcounts := createTask_counts h hcount hen.2 (Or.inl rfl) hrun
      exact ⟨hcounts.eq, hcounts.lt⟩
  | runScheduler =>
      rw [← Option.some.inj heff]
      exact counts_sameDead hcount (runScheduler_sameDead h.consistent)
  | allocateImage image =>
      rw [← Option.some.inj heff, allocate_eq]
      exact ⟨hcount.eq, hcount.lt⟩
  | blockCurrentTask =>
      rw [← Option.some.inj heff]
      exact counts_sameDead hcount (blockCurrentTask_sameDead h hen)
  | wakeupPid pid =>
      rw [← Option.some.inj heff]
      exact counts_sameDead hcount (wakeupPid_sameDead h.consistent pid)
  | yieldTask =>
      rw [← Option.some.inj heff]
      exact ⟨hcount.eq, hcount.lt⟩
  | pendsv psp =>
      rw [← Option.some.inj heff]
      exact counts_sameDead hcount (pendsvIsr_sameDead h psp hC)
  | finishTask stale =>
      rw [← Option.some.inj heff]
      exact finishTask_counts h hcount hen hC stale
  | invalidateCurrentTask =>
      rw [← Option.some.inj heff]
      exact invalidateCurrentTask_counts h hcount hen hC
  | searchInvalidateTasks =>
      have hcur := inv_current_running h hen.1
      rw [← Option.some.inj heff]
      exact searchLoop_count _ 0 _ s v h.consistent hcur hcur (h.thread hen.1).1 hcount
  | joinTask pid =>
      rw [← Option.some.inj heff, joinTask_id h.consistent]
      exact hcount
  | dmaInterrupt action =>
      rw [← Option.some.inj heff]
      exact ⟨hcount.eq, hcount.lt⟩

/-- Every counted step keeps the counter in step. -/
theorem requestStep_counts {s s' : Kernel} {e : RequestEvent} {v : View} (h : Inv s v)
    (hcount : Counts s) (hC : Counted s e) (hstep : requestStep e s = some s') :
    ∃ v', Inv s' v' ∧ Counts s' := by
  -- Both functions that kill mark what they have found.
  have hkill : ∀ targets : Option (List Addr), KillsNobody targets s →
      (if Thread s then targets.map (fun l => markInvalid l s) else none) = some s' →
        ∃ v', Inv s' v' ∧ Counts s' := by
    intro targets hnobody hmark
    by_cases hthread : Thread s
    · rw [if_pos hthread] at hmark
      rcases Option.map_eq_some_iff.mp hmark with ⟨l, hl, rfl⟩
      rcases markInvalid_inv l h hthread (hnobody l hl) with ⟨hinv, hsame⟩
      exact ⟨v, hinv, counts_sameDead hcount hsame⟩
    · rw [if_neg hthread] at hmark
      exact absurd hmark (by simp only [reduceCtorEq, not_false_eq_true])
  cases e with
  | killChildTask pidOfChild parent fuel stray => exact hkill _ hC hstep
  | killAllChildTasks fuel stray => exact hkill _ hC hstep
  | kernel e =>
      rcases step_inv ⟨v, h⟩ hstep with ⟨v', hinv⟩
      exact ⟨v', hinv, step_counts h hcount hC hstep⟩

/-- In every run whose steps are all counted, in every state reached, the
    counter is the number of dead tasks that have not been reaped; so it asks
    the idle task to search exactly as long as there is one. -/
theorem cleanUpRequests_count (s₀ s : Kernel) (es : List RequestEvent) (hinit : Initialized s₀)
    (hC : Meets requestStep Counted es s₀) (hrun : run requestStep es s₀ = some s) :
    s.cleanUpRequests = deadCount s ∧
      (s.cleanUpRequests ≠ 0 ↔ ∃ t ∈ s.live, (s.tcb t).state = .FINISHED ∨
        (s.tcb t).state = .INVALID) := by
  have hstart : ∃ v, Inv s₀ v ∧ Counts s₀ := by
    rcases initScheduler_inv hinit with ⟨hinv, hlive, _⟩
    have hzero : s₀.cleanUpRequests = 0 := (initialized_globals hinit).1
    refine ⟨_, hinv, ?_, ?_⟩
    · rw [hzero, deadCount, hlive]
      rfl
    · omega
  have hend : ∃ v, Inv s v ∧ Counts s := by
    refine run_invariant requestStep (fun s => ∃ v, Inv s v ∧ Counts s) ?_ es s₀ s hstart hC hrun
    rintro s e s' ⟨v, hinv, hcount⟩ hCe hstep
    exact requestStep_counts hinv hcount hCe hstep
  rcases hend with ⟨v, _, hcount⟩
  refine ⟨hcount.eq, ?_⟩
  rw [hcount.eq, deadCount, ← Nat.pos_iff_ne_zero, List.countP_pos_iff]
  simp only [TaskState.isDead, decide_eq_true_eq]

/-- Memory full of zeros, but for a list at address zero with one entry, which
    points to `target`. -/
def strayList (target : Addr) : Stray :=
  { tcb := fun _ => blankTcb
    list := fun a => if a = 0 then { size := 1, head := 5 } else { size := 0, head := NULL }
    snode := fun a => if a = 5 then { next := NULL, data := target } else
      { next := NULL, data := NULL } }

/-- The idle task creates three tasks. One finishes, one faults, and the third
    calls both functions and marks a task that is dead already. The idle task
    reaps the two. -/
def countedRun : List RequestEvent :=
  startUp.map .kernel ++
    [.kernel (.createTask (chunksFrom 20) 3 0), .kernel (.createTask (chunksFrom 30) 3 0),
      .kernel (.createTask (chunksFrom 40) 3 0), .kernel .yieldTask, .kernel (.pendsv 8),
      .kernel (.finishTask blankTcb), .kernel (.pendsv 8), .kernel .invalidateCurrentTask,
      .kernel (.pendsv 8), .killChildTask 1 (chunksFrom 10).tcb 4 (strayList (chunksFrom 20).tcb),
      .killAllChildTasks 4 (strayList (chunksFrom 20).tcb), .kernel .yieldTask, .kernel (.pendsv 8)]

theorem cleanUpRequests_count_countedRun : Ends requestStep countedRun freshKernel fun s =>
    deadCount s = 2 ∧ s.cleanUpRequests = deadCount s ∧
      (s.cleanUpRequests ≠ 0 ↔ ∃ t ∈ s.live, (s.tcb t).state = .FINISHED ∨
        (s.tcb t).state = .INVALID) := by
  have hends : Ends requestStep countedRun freshKernel fun s => deadCount s = 2 := by decide +kernel
  rcases hends with ⟨s, hs, hdead⟩
  exact ⟨s, hs, hdead, cleanUpRequests_count freshKernel s countedRun freshKernel_initialized
    (by decide +kernel) hs⟩

/-- The only task, the idle task, faults. The switch finds nobody else and sets
    it to `READY` again, so it is not dead and searches for ever. In a second
    run a task is killed through the list that `!parent` points to, so it is
    dead and the idle task never searches. -/
theorem cleanUpRequests_diverge :
    (Ends requestStep (startUp.map .kernel ++ [.kernel .invalidateCurrentTask, .kernel (.pendsv 8)])
      freshKernel fun s => Thread s ∧ s.cleanUpRequests = 1 ∧ deadCount s = 0) ∧
    Ends requestStep (startUp.map .kernel ++ [.kernel (.createTask (chunksFrom 20) 3 0),
        .killChildTask 1 (chunksFrom 10).tcb 4 (strayList (chunksFrom 20).tcb)]) freshKernel
      fun s => Thread s ∧ s.cleanUpRequests = 0 ∧ deadCount s = 1 := by
  decide +kernel

end NextLevelRTOS
