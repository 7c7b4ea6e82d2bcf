import NextLevelRTOS.Process.Consistent

/-!
# Reaping

`search_invalidate_tasks` walks as many nodes of the running queue as the
queue still has, and cleans up the finished and the faulted tasks it meets.
The caller is the current task, which is ready, so it is never reaped and the
queue never runs empty under the loop: every reaped node is taken out from
among others.

A reaped task gives back its code image, its stack, its control block and its
node. Its child list stays in use, which is why `View.reap` moves that chunk
to the leaked ones.

## Main definitions

* `View.reap`: The lists behind the queues after a task is reaped.
* `Reaped`: What reaping some tasks leaves behind.

## Theorems

* `reap_consistent`: Reaping one task keeps the queues and the heap consistent.
* `searchLoop_reaped`: The loop keeps them consistent, whatever it meets.
* `searchInvalidateTasks_reaped`: The whole function keeps them consistent.
-/

namespace NextLevelRTOS

/-- Putting the first of some chunks out of use leaves the others. -/
theorem erase_perm {l m : List Addr} {a : Addr} (h : l.Perm (a :: m)) : (l.erase a).Perm m := by
  have he := h.erase a
  rwa [List.erase_cons_head] at he

/-- The lists after node `n` has been reaped: its child list is left over. -/
def View.reap (s : Kernel) (v : View) (n : Addr) : View :=
  { running := v.running.erase n
    waiting := v.waiting
    leaked := (s.tcb (s.dataOf n)).childTasks :: v.leaked }

/-- The chunks in use after `clean_up_task`. -/
def afterCleanUp (t : Tcb) (a n : Addr) (occupied : List Addr) : List Addr :=
  (((if t.isExternal then occupied.erase t.codeSection
    else occupied).erase t.stacksectionLowerBound).erase a).erase n

theorem cleanUpTask_eq (t n : Addr) (s : Kernel) : cleanUpTask t n s =
    { s with
      occupied := afterCleanUp (s.tcb t) t n s.occupied
      node := (dequeueElement s.node s.runningTasks n).1
      runningTasks := (dequeueElement s.node s.runningTasks n).2
      live := s.live.erase t } := by
  unfold cleanUpTask afterCleanUp
  by_cases hext : (s.tcb t).isExternal = true
  · simp only [hext, if_true, Kernel.deallocate]
  · simp only [hext, Kernel.deallocate, Bool.false_eq_true, if_false]

theorem reap_eq (n : Addr) (s : Kernel) : reap n s =
    { s with
      occupied := afterCleanUp (s.tcb (s.dataOf n)) (s.dataOf n) n s.occupied
      node := (dequeueElement s.node s.runningTasks n).1
      runningTasks := (dequeueElement s.node s.runningTasks n).2
      live := s.live.erase (s.dataOf n)
      cleanUpRequests := (s.cleanUpRequests + 15) % 16 } := by
  unfold reap
  rw [cleanUpTask_eq]

/-- Of the chunks of a task, cleaning it up leaves the child list. -/
theorem afterCleanUp_perm {t : Tcb} {a n : Addr} {occupied others : List Addr}
    (h : occupied.Perm ((n :: a :: t.chunks) ++ others)) :
    (afterCleanUp t a n occupied).Perm (t.childTasks :: others) := by
  unfold afterCleanUp
  by_cases hext : t.isExternal = true
  · simp only [hext, if_true]
    refine erase_perm (erase_perm (erase_perm (erase_perm (h.trans ?_))))
    simp only [Tcb.chunks, hext, if_true]
    rw [List.perm_iff_count]
    intro x
    simp only [List.count_append, List.count_cons, List.count_nil]
    omega
  · simp only [hext, Bool.false_eq_true, if_false]
    refine erase_perm (erase_perm (erase_perm (h.trans ?_)))
    simp only [Tcb.chunks, hext, Bool.false_eq_true, if_false]
    rw [List.perm_iff_count]
    intro x
    simp only [List.count_append, List.count_cons, List.count_nil]
    omega

theorem afterCleanUp_subset {t : Tcb} {a n x : Addr} {occupied : List Addr}
    (h : x ∈ afterCleanUp t a n occupied) : x ∈ occupied := by
  have hx := List.mem_of_mem_erase (List.mem_of_mem_erase (List.mem_of_mem_erase h))
  by_cases hext : t.isExternal = true
  · rw [if_pos hext] at hx
    exact List.mem_of_mem_erase hx
  · rwa [if_neg hext] at hx

theorem afterCleanUp_nodup {t : Tcb} {a n : Addr} {occupied : List Addr}
    (h : occupied.Nodup) : (afterCleanUp t a n occupied).Nodup := by
  unfold afterCleanUp
  by_cases hext : t.isExternal = true
  · rw [if_pos hext]
    exact (((h.erase _).erase _).erase _).erase _
  · rw [if_neg hext]
    exact ((h.erase _).erase _).erase _

/-- Reaping a node from among others keeps the invariant. -/
theorem reap_consistent {s : Kernel} {v : View} (h : Consistent s v) {n : Addr}
    (hn : n ∈ v.running) (hlen : 1 < v.running.length) :
    Consistent (reap n s) (v.reap s n) := by
  have hdata : (reap n s).dataOf = s.dataOf := by
    rw [reap_eq]
    exact dequeueElement_data s.node s.runningTasks n
  have htcb : (reap n s).tcb = s.tcb := by rw [reap_eq]
  have howns : (reap n s).owns = s.owns := by
    funext m
    simp only [Kernel.owns, hdata, htcb]
  have hstate : ∀ m, (reap n s).stateOf m = s.stateOf m := by
    intro m
    simp only [Kernel.stateOf, hdata, htcb]
  -- The node that goes is counted once; all that follows is a matter of order.
  have hnodes : v.nodes.Perm (n :: (v.reap s n).nodes) :=
    (List.perm_cons_erase hn).append_right v.waiting
  refine ⟨?_, ?_, ?_, ?_, ?_, ?_, fun m hm => ?_, fun m hm => ?_⟩
  · rw [reap_eq]
    exact dequeueElement_represents h.running hn hlen
  · rw [reap_eq]
    exact dequeueElement_frame h.running hn (consistent_disjoint h) h.waiting
  · rw [hdata, reap_eq]
    refine (erase_perm (h.tasks.symm.trans ?_)).symm
    exact hnodes.map s.dataOf
  · rw [howns, reap_eq]
    -- What it owned is given back, apart from the child list.
    have hown : (v.nodes.flatMap s.owns).Perm
        (s.owns n ++ (v.reap s n).nodes.flatMap s.owns) := by
      have hflat := hnodes.flatMap_right s.owns
      rwa [List.flatMap_cons] at hflat
    have hocc : s.occupied.Perm
        (s.owns n ++ (s.images ++ v.leaked ++ (v.reap s n).nodes.flatMap s.owns)) := by
      refine h.heap.trans ((List.Perm.append_left _ hown).trans ?_)
      rw [← List.append_assoc, ← List.append_assoc]
      exact List.perm_append_comm.append_right _
    refine (afterCleanUp_perm hocc).trans ?_
    change (_ :: (s.images ++ v.leaked ++ _)).Perm (s.images ++ (_ :: v.leaked) ++ _)
    rw [List.append_assoc, List.append_assoc]
    exact List.perm_middle.symm
  · rw [reap_eq]
    exact afterCleanUp_nodup h.chunks
  · rw [reap_eq]
    exact fun hc => h.nonnull (afterCleanUp_subset hc)
  · rw [hstate]
    exact h.waitingState m hm
  · rw [hstate]
    exact h.runningState m (List.mem_of_mem_erase hm)

/-- What reaping some of the tasks in the running queue leaves behind. -/
structure Reaped (s s' : Kernel) (v v' : View) : Prop where
  consistent : Consistent s' v'
  tcb : s'.tcb = s.tcb
  list : s'.list = s.list
  snode : s'.snode = s.snode
  data : s'.node.data = s.node.data
  images : s'.images = s.images
  idleTask : s'.idleTask = s.idleTask
  current : s'.currentlyRunning = s.currentlyRunning
  preserve : s'.taskToPreserve = s.taskToPreserve
  pendsv : s'.pendsv = s.pendsv
  booted : s'.booted = s.booted
  waiting : v'.waiting = v.waiting
  running : v'.running.Sublist v.running
  live : s'.live.Sublist s.live
  dead : ∀ n ∈ v.running, n ∉ v'.running → s.stateOf n = .FINISHED ∨ s.stateOf n = .INVALID
  leaked : ∀ a ∈ v.leaked, a ∈ v'.leaked
  children : ∀ t ∈ s.live, t ∉ s'.live → (s.tcb t).childTasks ∈ v'.leaked
  count : v'.leaked.length + s'.live.length = v.leaked.length + s.live.length

theorem reaped_refl {s : Kernel} {v : View} (h : Consistent s v) : Reaped s s v v :=
  ⟨h, rfl, rfl, rfl, rfl, rfl, rfl, rfl, rfl, rfl, rfl, rfl, List.Sublist.refl _,
    List.Sublist.refl _, fun _ hn hc => absurd hn hc, fun _ ha => ha,
    fun _ ht hc => absurd ht hc, rfl⟩

theorem reaped_stateOf {s s' : Kernel} {v v' : View} (h : Reaped s s' v v') (n : Addr) :
    s'.stateOf n = s.stateOf n := by
  simp only [Kernel.stateOf, Kernel.dataOf, h.tcb, h.data]

theorem reaped_trans {s s' s'' : Kernel} {v v' v'' : View} (h : Reaped s s' v v')
    (h' : Reaped s' s'' v' v'') : Reaped s s'' v v'' := by
  refine ⟨h'.consistent, h'.tcb.trans h.tcb, h'.list.trans h.list, h'.snode.trans h.snode,
    h'.data.trans h.data, h'.images.trans h.images, h'.idleTask.trans h.idleTask,
    h'.current.trans h.current, h'.preserve.trans h.preserve, h'.pendsv.trans h.pendsv,
    h'.booted.trans h.booted, h'.waiting.trans h.waiting, h'.running.trans h.running,
    h'.live.trans h.live, fun n hn hdead => ?_, fun a ha => h'.leaked a (h.leaked a ha),
    fun t ht hdead => ?_, h'.count.trans h.count⟩
  · by_cases hmid : n ∈ v'.running
    · have hd := h'.dead n hmid hdead
      rwa [reaped_stateOf h n] at hd
    · exact h.dead n hn hmid
  · by_cases hmid : t ∈ s'.live
    · have hc := h'.children t hmid hdead
      rwa [h.tcb] at hc
    · exact h'.leaked _ (h.children t ht hmid)

/-- Reaping one dead task from among others. -/
theorem reap_reaped {s : Kernel} {v : View} (h : Consistent s v) {n : Addr}
    (hn : n ∈ v.running) (hlen : 1 < v.running.length)
    (hdead : s.stateOf n = .FINISHED ∨ s.stateOf n = .INVALID) :
    Reaped s (reap n s) v (v.reap s n) := by
  have hlive : s.dataOf n ∈ s.live :=
    (consistent_live_iff h _).mpr ⟨n, List.mem_append_left _ hn, rfl⟩
  have hlive' : (reap n s).live = s.live.erase (s.dataOf n) := by rw [reap_eq]
  refine ⟨reap_consistent h hn hlen, ?_, ?_, ?_, ?_, ?_, ?_, ?_, ?_, ?_, ?_, rfl,
    List.erase_sublist, ?_, fun m hm hm' => ?_, fun a ha => List.mem_cons_of_mem _ ha,
    fun t ht ht' => ?_, ?_⟩
  all_goals try rw [reap_eq]
  · exact dequeueElement_data s.node s.runningTasks n
  · exact List.erase_sublist
  · -- Only the reaped node has gone.
    by_cases hmn : m = n
    · rw [hmn]
      exact hdead
    · exact absurd ((List.mem_erase_of_ne hmn).mpr hm) hm'
  · by_cases htn : t = s.dataOf n
    · rw [htn]
      exact List.mem_cons_self
    · rw [hlive'] at ht'
      exact absurd ((List.mem_erase_of_ne htn).mpr ht) ht'
  · change (v.leaked.length + 1) + (s.live.erase (s.dataOf n)).length = _
    -- One more chunk is lost, and one task less is live.
    have hpos := List.length_pos_of_mem hlive
    rw [List.length_erase_of_mem hlive]
    omega

/-- One round of the search loop that meets a dead task. The current task is
    ready, so it is another member and stays one, and the loop goes on at a
    member. -/
theorem reap_round {s : Kernel} {v : View} (h : Consistent s v) {q : Addr} (hq : q ∈ v.running)
    (hcur : s.currentlyRunning ∈ v.running) (hready : s.stateOf s.currentlyRunning = .READY)
    (hdead : s.stateOf q = .FINISHED ∨ s.stateOf q = .INVALID) :
    Reaped s (reap q s) v (v.reap s q) ∧ (reap q s).node.next q ∈ (v.reap s q).running ∧
      (reap q s).currentlyRunning ∈ (v.reap s q).running ∧
      (reap q s).stateOf (reap q s).currentlyRunning = .READY := by
  have hne : q ≠ s.currentlyRunning := by
    intro hc
    rw [hc, hready] at hdead
    rcases hdead with hd | hd
    · exact TaskState.noConfusion hd
    · exact TaskState.noConfusion hd
  have hmem := (List.mem_erase_of_ne hne.symm).mpr hcur
  -- The node to reap and the current one are two members.
  have hlen : 1 < v.running.length := by
    have hpos := List.length_pos_of_mem hmem
    rw [List.length_erase_of_mem hq] at hpos
    omega
  have hstep := reap_reaped h hq hlen hdead
  refine ⟨hstep, ?_, ?_, ?_⟩
  · rw [reap_eq]
    change (dequeueElement s.node s.runningTasks q).1.next q ∈ v.running.erase q
    rw [dequeueElement_next h.running hq]
    exact (represents_neighbours_mem_erase h.running hq hlen).1
  · rw [hstep.current]
    exact hmem
  · rw [reaped_stateOf hstep, hstep.current]
    exact hready

/-- The search loop reaps dead tasks only, and never the current task, which
    is ready. The induction is on the loop's fuel; what it carries is that the
    loop's node is in the running queue. -/
theorem searchLoop_reaped (fuel j : Nat) : ∀ (q : Addr) (s : Kernel) (v : View),
    Consistent s v → q ∈ v.running → s.currentlyRunning ∈ v.running →
    s.stateOf s.currentlyRunning = .READY →
    ∃ v', Reaped s (searchLoop fuel j q s) v v' ∧ s.currentlyRunning ∈ v'.running := by
  induction fuel generalizing j with
  | zero => exact fun q s v h _ hcur _ => ⟨v, reaped_refl h, hcur⟩
  | succ fuel ih =>
      intro q s v h hq hcur hready
      rw [searchLoop]
      by_cases hj : j < s.runningTasks.size
      · rw [if_pos hj]
        by_cases hdead : s.stateOf q = .FINISHED ∨ s.stateOf q = .INVALID
        · simp only [hdead, if_true]
          -- The next node and the current one outlive the reaping of this one.
          rcases reap_round h hq hcur hready hdead with ⟨hstep, hnext, hcur', hready'⟩
          rcases ih (j + 1) _ _ _ hstep.consistent hnext hcur' hready' with ⟨v', hrest, hin⟩
          rw [hstep.current] at hin
          exact ⟨v', reaped_trans hstep hrest, hin⟩
        · simp only [hdead, if_false]
          exact ih (j + 1) _ s v h (represents_next_mem h.running hq) hcur hready
      · rw [if_neg hj]
        exact ⟨v, reaped_refl h, hcur⟩

theorem searchInvalidateTasks_reaped {s : Kernel} {v : View} (h : Consistent s v)
    (hcur : s.currentlyRunning ∈ v.running) (hready : s.stateOf s.currentlyRunning = .READY) :
    ∃ v', Reaped s (searchInvalidateTasks s) v v' ∧ s.currentlyRunning ∈ v'.running :=
  searchLoop_reaped _ 0 _ s v h hcur hcur hready

end NextLevelRTOS
