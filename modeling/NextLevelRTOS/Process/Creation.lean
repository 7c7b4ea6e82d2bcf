import NextLevelRTOS.Process.Consistent

/-!
# Creation

`create_task` allocates first and enqueues last. Until the new node is in a
queue nothing that the kernel reaches has changed: the chunks handed out so
far belong to nobody, and the control block among them is no live task's. So
a creation that fails half way leaves the queues as they were and leaks what
it had allocated, and one that succeeds turns three leaked chunks and a new
node into a task.

`prepared` is the state before the node is enqueued, and `createTask_cases`
lists the ways a creation can end.

## Main definitions

* `View.insert`: The lists after an insertion.
* `newTcb`: The control block of a new task.
* `prepared`: All but the queue node is in place.
* `Granted`, `Fresh`: What is known about the answers of `allocate`.
* `Untouched`, `NotCreated`, `Created`: What a creation does.

## Theorems

* `consistent_leak`: New chunks are leaked until something owns them.
* `consistent_setTcb`: No live task's control block is written.
* `insert_consistent`: A new node makes a task of three leaked chunks.
* `createTask_cases`: The four ways a creation ends.
* `createTask_consistent`: Each of them keeps the invariant.
-/

namespace NextLevelRTOS

theorem allocate_eq (a : Addr) (s : Kernel) :
    s.allocate a = { s with occupied := if a = NULL then s.occupied else a :: s.occupied } := by
  unfold Kernel.allocate
  by_cases h : a = NULL
  · rw [if_pos h, if_pos h]
  · rw [if_neg h, if_neg h]

/-- New chunks are leaked until something owns them. -/
theorem consistent_leak {s : Kernel} {v : View} (h : Consistent s v) {l : List Addr}
    (hnodup : l.Nodup) (hnull : NULL ∉ l) (hfree : ∀ a ∈ l, a ∉ s.occupied) :
    Consistent { s with occupied := l ++ s.occupied } { v with leaked := l ++ v.leaked } := by
  refine ⟨h.running, h.waiting, h.tasks, ?_, ?_, ?_, h.waitingState, h.runningState⟩
  · change (l ++ s.occupied).Perm (s.images ++ (l ++ v.leaked) ++ v.nodes.flatMap s.owns)
    refine (h.heap.append_left l).trans ?_
    simp only [List.append_assoc]
    exact List.perm_append_comm_assoc ..
  · exact List.nodup_append'.mpr ⟨hnodup, h.chunks, hfree⟩
  · intro hc
    rcases List.mem_append.mp hc with hc | hc
    · exact hnull hc
    · exact h.nonnull hc

/-- A chunk for an image is owned by nobody yet and is not leaked either. -/
theorem consistent_allocateImage {s : Kernel} {v : View} (h : Consistent s v) {image : Addr}
    (hfree : FreeChunk image s) :
    Consistent { s.allocate image with images := image :: s.images } v := by
  rw [allocate_eq, if_neg hfree.1]
  refine ⟨h.running, h.waiting, h.tasks, h.heap.cons image,
    List.nodup_cons.mpr ⟨hfree.2, h.chunks⟩, fun hc => ?_, h.waitingState, h.runningState⟩
  rcases List.mem_cons.mp hc with hc | hc
  · exact hfree.1 hc.symm
  · exact h.nonnull hc

/-- A leaked chunk is no live task's control block. -/
theorem leaked_not_live {s : Kernel} {v : View} (h : Consistent s v) {t : Addr}
    (ht : t ∈ v.leaked) : t ∉ s.live := by
  intro hlive
  rcases (consistent_live_iff h t).mp hlive with ⟨n, hn, rfl⟩
  have hdisj := List.disjoint_of_nodup_append (consistent_owned_nodup h)
  exact hdisj (List.mem_append_right _ ht) (List.mem_flatMap.mpr ⟨n, hn, data_mem_owns s n⟩)

/-- No live task's control block is written. -/
theorem consistent_setTcb {s : Kernel} {v : View} (h : Consistent s v) {t : Addr}
    (ht : t ∉ s.live) (tcb : Tcb) : Consistent (s.setTcb t tcb) v := by
  have hne : ∀ n ∈ v.nodes, s.dataOf n ≠ t := by
    intro n hn hc
    exact ht ((consistent_live_iff h t).mpr ⟨n, hn, hc⟩)
  have htcb : ∀ n ∈ v.nodes, (s.setTcb t tcb).tcb (s.dataOf n) = s.tcb (s.dataOf n) :=
    fun n hn => Function.update_of_ne (hne n hn) _ _
  refine ⟨h.running, h.waiting, h.tasks, ?_, h.chunks, h.nonnull, fun n hn => ?_, fun n hn => ?_⟩
  · have howns : v.nodes.flatMap (s.setTcb t tcb).owns = v.nodes.flatMap s.owns := by
      refine List.flatMap_congr fun n hn => ?_
      simp only [Kernel.owns, Kernel.dataOf]
      exact congrArg (fun x => n :: s.dataOf n :: x.chunks) (htcb n hn)
    rw [howns]
    exact h.heap
  · have ht := htcb n (List.mem_append_right _ hn)
    exact (congrArg Tcb.state ht).trans (h.waitingState n hn)
  · have ht := htcb n (List.mem_append_left _ hn)
    exact fun hc => h.runningState n hn ((congrArg Tcb.state ht).symm.trans hc)

/-- The invariant reads no child list. -/
theorem consistent_lists {s : Kernel} {v : View} (h : Consistent s v)
    (list : Addr → SingleList) (snode : Addr → SingleLinkedNode) :
    Consistent { s with list := list, snode := snode } v :=
  ⟨h.running, h.waiting, h.tasks, h.heap, h.chunks, h.nonnull, h.waitingState, h.runningState⟩

/-- The lists after a node has been enqueued for a new task. -/
def View.insert (v : View) (n : Addr) (state : TaskState) (leaked : List Addr) : View :=
  if state = .WAITING then { v with waiting := v.waiting ++ [n], leaked := leaked }
  else { v with running := v.running ++ [n], leaked := leaked }

theorem insert_nodes_perm (v : View) (n : Addr) (state : TaskState) (leaked : List Addr) :
    (v.insert n state leaked).nodes.Perm (n :: v.nodes) := by
  unfold View.insert View.nodes
  by_cases h : state = .WAITING
  · rw [if_pos h, ← List.append_assoc]
    exact List.perm_append_singleton n _
  · rw [if_neg h, List.append_assoc]
    exact List.perm_middle

theorem insert_leaked (v : View) (n : Addr) (state : TaskState) (leaked : List Addr) :
    (v.insert n state leaked).leaked = leaked := by
  unfold View.insert
  by_cases h : state = .WAITING
  · rw [if_pos h]
  · rw [if_neg h]

/-- What a new node changes: it is at the end of the queue its task's state
    asks for. -/
theorem insertScheduledTask_some {s : Kernel} {n t : Addr} (hn : n ≠ NULL)
    (hstate : (s.tcb t).state = .READY ∨ (s.tcb t).state = .WAITING) :
    insertScheduledTask n t s = (1, { s with
      occupied := n :: s.occupied
      node := (enqueueElement n s.node
        (if (s.tcb t).state = .WAITING then s.waitingTasks else s.runningTasks) t).2.1
      runningTasks := if (s.tcb t).state = .WAITING then s.runningTasks
        else (enqueueElement n s.node s.runningTasks t).2.2
      waitingTasks := if (s.tcb t).state = .WAITING then
          (enqueueElement n s.node s.waitingTasks t).2.2
        else s.waitingTasks }) := by
  unfold insertScheduledTask
  rcases hstate with hst | hst
  · simp only [hst, allocate_eq, if_neg hn, enqueueElement, reduceCtorEq, if_false]
    rfl
  · simp only [hst, allocate_eq, if_neg hn, enqueueElement, if_true]
    rfl

/-- Without memory for the node nothing happens. -/
theorem insertScheduledTask_null (t : Addr) (s : Kernel) :
    insertScheduledTask NULL t s = (-1, s) := by
  unfold insertScheduledTask
  simp only [Kernel.allocate, enqueueElement, if_true]
  cases (s.tcb t).state <;> rfl

theorem mem_insert_waiting (v : View) (n : Addr) (state : TaskState) (leaked : List Addr)
    (m : Addr) : m ∈ (v.insert n state leaked).waiting ↔
      m ∈ v.waiting ∨ (state = .WAITING ∧ m = n) := by
  unfold View.insert
  by_cases h : state = .WAITING
  · simp only [h, if_true, List.mem_append, List.mem_singleton, true_and]
  · simp only [h, if_false, false_and, or_false]

theorem mem_insert_running (v : View) (n : Addr) (state : TaskState) (leaked : List Addr)
    (m : Addr) : m ∈ (v.insert n state leaked).running ↔
      m ∈ v.running ∨ (state ≠ .WAITING ∧ m = n) := by
  unfold View.insert
  by_cases h : state = .WAITING
  · simp only [h, if_true, ne_eq, not_true_eq_false, false_and, or_false]
  · simp only [h, if_false, List.mem_append, List.mem_singleton, ne_eq, not_false_eq_true,
      true_and]

section Insertion

variable {s : Kernel} {v : View} {n t ramLocation : Addr} {leaked : List Addr}

/-- The queues after an insertion, and whom the new node stands for. -/
theorem insert_queues (h : Consistent s v) (hn : n ≠ NULL) (hnodes : n ∉ v.nodes)
    (hstate : (s.tcb t).state = .READY ∨ (s.tcb t).state = .WAITING) (leaked : List Addr) :
    Represents (insertScheduledTask n t s).2.node (insertScheduledTask n t s).2.runningTasks
        (v.insert n (s.tcb t).state leaked).running ∧
      Represents (insertScheduledTask n t s).2.node (insertScheduledTask n t s).2.waitingTasks
        (v.insert n (s.tcb t).state leaked).waiting ∧
      (insertScheduledTask n t s).2.node.data = Function.update s.node.data n t := by
  have hnr : n ∉ v.running := fun hc => hnodes (List.mem_append_left _ hc)
  have hnw : n ∉ v.waiting := fun hc => hnodes (List.mem_append_right _ hc)
  have hdisj := consistent_disjoint h
  rw [insertScheduledTask_some hn hstate]
  -- The state of the task decides which of the queues grows.
  rcases hstate with hst | hst
  · have hready := enqueueElement_represents t h.running h.waiting hdisj hnr hnw hn
    simp only [View.insert, hst, reduceCtorEq, if_false]
    exact hready
  · have hwait := enqueueElement_represents t h.waiting h.running
      (fun a ha hb => hdisj hb ha) hnw hnr hn
    simp only [View.insert, hst, if_true]
    exact ⟨hwait.2.1, hwait.1, hwait.2.2⟩

/-- The chunks of the new task, its node and its image are no longer anybody
    else's. -/
theorem insert_heap (h : Consistent s v)
    (hext : (s.tcb t).isExternal = decide (ramLocation ≠ 0))
    (hcode : (s.tcb t).codeSection = ramLocation)
    (himage : ramLocation = 0 ∨ ramLocation ∈ s.images)
    (hleaked : v.leaked.Perm
      (t :: (s.tcb t).stacksectionLowerBound :: (s.tcb t).childTasks :: leaked)) :
    (n :: s.occupied).Perm
      ((if ramLocation = 0 then s.images else s.images.erase ramLocation) ++ leaked ++
        ((n :: t :: (s.tcb t).chunks) ++ v.nodes.flatMap s.owns)) := by
  have hheap := h.heap
  rw [List.perm_iff_count] at hheap hleaked ⊢
  intro x
  have hheap := hheap x
  have hleaked := hleaked x
  -- An internal task has no image, an external one takes its own from the list.
  by_cases hram : ramLocation = 0
  · simp only [Tcb.chunks, hext, hram, ne_eq, not_true_eq_false, decide_false,
      Bool.false_eq_true, if_false, if_true, List.count_append, List.count_cons,
      List.count_nil] at hheap hleaked ⊢
    omega
  · have himg := (List.perm_iff_count.mp
      (List.perm_cons_erase (himage.resolve_left hram))) x
    simp only [Tcb.chunks, hext, hcode, hram, ne_eq, not_false_eq_true, decide_true, if_true,
      if_false, List.count_append, List.count_cons, List.count_nil] at hheap hleaked himg ⊢
    omega

/-- A leaked control block with a leaked stack and a leaked child list becomes
    a task when a new node is enqueued for it. -/
theorem insert_consistent (h : Consistent s v) (hn : n ≠ NULL) (hfree : n ∉ s.occupied)
    (hstate : (s.tcb t).state = .READY ∨ (s.tcb t).state = .WAITING)
    (hext : (s.tcb t).isExternal = decide (ramLocation ≠ 0))
    (hcode : (s.tcb t).codeSection = ramLocation)
    (himage : ramLocation = 0 ∨ ramLocation ∈ s.images)
    (hleaked : v.leaked.Perm
      (t :: (s.tcb t).stacksectionLowerBound :: (s.tcb t).childTasks :: leaked)) :
    Consistent (recordTask t ramLocation (insertScheduledTask n t s).2)
        (v.insert n (s.tcb t).state leaked) ∧
      (insertScheduledTask n t s).2.node.data = Function.update s.node.data n t := by
  have hnodes : n ∉ v.nodes := fun hc => hfree (consistent_node_occupied h hc)
  rcases insert_queues h hn hnodes hstate leaked with ⟨hrunning, hwaiting, hdata⟩
  have htcb : (insertScheduledTask n t s).2.tcb = s.tcb := by
    rw [insertScheduledTask_some hn hstate]
  set s' : Kernel := recordTask t ramLocation (insertScheduledTask n t s).2 with hs'
  have hocc : s'.occupied = n :: s.occupied := by
    rw [hs', insertScheduledTask_some hn hstate]
    rfl
  have himages : s'.images =
      if ramLocation = 0 then s.images else s.images.erase ramLocation := by
    rw [hs', insertScheduledTask_some hn hstate]
    rfl
  have hself : s'.dataOf n = t := (congrFun hdata n).trans (Function.update_self ..)
  have hother : ∀ m ∈ v.nodes, s'.dataOf m = s.dataOf m := fun m hm =>
    (congrFun hdata m).trans (Function.update_of_ne (fun hc => hnodes (by rwa [← hc])) _ _)
  have hstates : ∀ m ∈ v.nodes, s'.stateOf m = s.stateOf m := fun m hm => by
    rw [Kernel.stateOf, hother m hm]
    exact congrArg (fun f => (f (s.dataOf m)).state) htcb
  have howns : ∀ m ∈ v.nodes, s'.owns m = s.owns m := fun m hm => by
    rw [Kernel.owns, Kernel.owns, hother m hm]
    exact congrArg (fun f => m :: s.dataOf m :: (f (s.dataOf m)).chunks) htcb
  have hperm := insert_nodes_perm v n (s.tcb t).state leaked
  refine ⟨⟨hrunning, hwaiting, ?_, ?_, ?_, ?_, fun m hm => ?_, fun m hm => ?_⟩, hdata⟩
  · refine (hperm.map s'.dataOf).trans ?_
    rw [List.map_cons, hself, List.map_congr_left hother]
    have hlive : s'.live = s.live ++ [t] := by
      rw [hs', insertScheduledTask_some hn hstate]
      rfl
    rw [hlive]
    exact (h.tasks.cons t).trans (List.perm_append_singleton t s.live).symm
  · have hflat : ((v.insert n (s.tcb t).state leaked).nodes.flatMap s'.owns).Perm
        ((n :: t :: (s.tcb t).chunks) ++ v.nodes.flatMap s.owns) := by
      refine (hperm.flatMap_right s'.owns).trans ?_
      rw [List.flatMap_cons, List.flatMap_congr howns, Kernel.owns, hself]
      exact List.Perm.of_eq (congrArg (fun f => (n :: t :: (f t).chunks) ++ _) htcb)
    rw [insert_leaked, hocc, himages]
    exact (insert_heap h hext hcode himage hleaked).trans (hflat.symm.append_left _)
  · rw [hocc]
    exact List.nodup_cons.mpr ⟨hfree, h.chunks⟩
  · rw [hocc]
    intro hc
    rcases List.mem_cons.mp hc with hc | hc
    · exact hn hc.symm
    · exact h.nonnull hc
  -- The new node is in the queue its state asks for, the others keep theirs.
  · rcases (mem_insert_waiting v n _ leaked m).mp hm with hm | ⟨hst, rfl⟩
    · rw [hstates m (List.mem_append_right _ hm)]
      exact h.waitingState m hm
    · rw [Kernel.stateOf, hself]
      exact (congrArg (fun f => (f t).state) htcb).trans hst
  · rcases (mem_insert_running v n _ leaked m).mp hm with hm | ⟨hst, rfl⟩
    · rw [hstates m (List.mem_append_left _ hm)]
      exact h.runningState m hm
    · rw [Kernel.stateOf, hself]
      exact fun hc => hst ((congrArg (fun f => (f t).state) htcb).symm.trans hc)

end Insertion

/-- The control block of a new task. -/
def newTcb (c : Chunks) (ramLocation : Addr) (s : Kernel) : Tcb :=
  { initTcb c.stack ramLocation s with childTasks := c.childList }

/-- The chunk for the entry in the parent's child list, if there is a parent. -/
def Chunks.entry (c : Chunks) (s : Kernel) : List Addr :=
  if s.currentlyRunning = NULL then [] else [c.childNode]

/-- All of a new task but its queue node is in place. `list` and `snode` are
    what pushing onto the parent's child list has made of the lists. -/
def prepared (c : Chunks) (ramLocation : Addr) (list : Addr → SingleList)
    (snode : Addr → SingleLinkedNode) (s : Kernel) : Kernel :=
  { s with
    occupied := c.childList :: (c.entry s ++ (c.tcb :: c.stack :: s.occupied))
    tcb := Function.update s.tcb c.tcb (newTcb c ramLocation s)
    list := Function.update list c.childList { size := 0, head := NULL }
    snode := snode }

/-- The allocations that `prepared` rests on were answered. -/
structure Granted (c : Chunks) (s : Kernel) : Prop where
  stack : c.stack ≠ NULL
  tcb : c.tcb ≠ NULL
  childList : c.childList ≠ NULL
  childNode : s.currentlyRunning ≠ NULL → c.childNode ≠ NULL

theorem pushChild_some {childNode slot : Addr} {s s' : Kernel}
    (h : pushChild childNode slot s = some s') :
    (s.currentlyRunning = NULL ∧ s' = s) ∨
      (s.currentlyRunning ≠ NULL ∧ childNode ≠ NULL ∧ ∃ list snode,
        s' = { s with occupied := childNode :: s.occupied, list := list, snode := snode }) := by
  unfold pushChild at h
  by_cases hcur : s.currentlyRunning = NULL
  · rw [if_pos hcur] at h
    exact Or.inl ⟨hcur, (Option.some.inj h).symm⟩
  · rw [if_neg hcur] at h
    refine Or.inr ⟨hcur, ?_⟩
    simp only [allocate_eq] at h
    cases hpush : singleListPush childNode s.snode
        (s.list (s.tcb (s.dataOf s.currentlyRunning)).childTasks) slot with
    | none =>
        simp only [hpush, reduceCtorEq] at h
    | some r =>
        -- A push fails exactly if the node has no memory.
        have hnode : childNode ≠ NULL := by
          intro hc
          rw [(singleListPush_none _ _ _ _).mpr hc] at hpush
          exact absurd hpush (by simp only [reduceCtorEq, not_false_eq_true])
        simp only [hpush, if_neg hnode] at h
        exact ⟨hnode, _, _, (Option.some.inj h).symm⟩

theorem attachChildList_some {childList t : Addr} {s s' : Kernel}
    (h : attachChildList childList t s = some s') :
    childList ≠ NULL ∧ s' = { s with
      occupied := childList :: s.occupied
      list := Function.update s.list childList { size := 0, head := NULL }
      tcb := Function.update s.tcb t { s.tcb t with childTasks := childList } } := by
  unfold attachChildList newList at h
  by_cases hlist : childList = NULL
  · simp only [if_pos hlist] at h
    exact absurd h (by simp only [reduceCtorEq, not_false_eq_true])
  · simp only [if_neg hlist, allocate_eq] at h
    exact ⟨hlist, (Option.some.inj h).symm⟩

/-- The two list operations of a creation, one after the other. -/
theorem prepare_some {c : Chunks} {slot ramLocation : Addr} {s s₁ s₂ : Kernel}
    (hstack : c.stack ≠ NULL) (htcb : c.tcb ≠ NULL)
    (hpush : pushChild c.childNode slot (((s.allocate c.stack).allocate c.tcb).setTcb c.tcb
      (initTcb c.stack ramLocation ((s.allocate c.stack).allocate c.tcb))) = some s₁)
    (hattach : attachChildList c.childList c.tcb s₁ = some s₂) :
    Granted c s ∧ ∃ list snode,
      (s.currentlyRunning = NULL → list = s.list ∧ snode = s.snode) ∧
      s₂ = prepared c ramLocation list snode s := by
  simp only [allocate_eq, if_neg hstack, if_neg htcb, Kernel.setTcb] at hpush
  rcases attachChildList_some hattach with ⟨hlist, rfl⟩
  rcases pushChild_some hpush with ⟨hcur, rfl⟩ | ⟨hcur, hnode, list, snode, rfl⟩
  · have hcur' : s.currentlyRunning = NULL := hcur
    refine ⟨⟨hstack, htcb, hlist, fun hc => absurd hcur' hc⟩, s.list, s.snode,
      fun _ => ⟨rfl, rfl⟩, ?_⟩
    simp only [prepared, Chunks.entry, if_pos hcur', List.nil_append, Function.update_self,
      Function.update_idem, newTcb]
    rfl
  · have hcur' : s.currentlyRunning ≠ NULL := hcur
    refine ⟨⟨hstack, htcb, hlist, fun _ => hnode⟩, list, snode,
      fun hc => absurd hc hcur', ?_⟩
    simp only [prepared, Chunks.entry, if_neg hcur', List.cons_append, List.nil_append,
      Function.update_self, Function.update_idem, newTcb]
    rfl

theorem prepared_tcb (c : Chunks) (ramLocation : Addr) (list : Addr → SingleList)
    (snode : Addr → SingleLinkedNode) (s : Kernel) :
    (prepared c ramLocation list snode s).tcb c.tcb = newTcb c ramLocation s :=
  Function.update_self ..

theorem newTcb_state (c : Chunks) (ramLocation : Addr) (s : Kernel) :
    (newTcb c ramLocation s).state = .READY ∨ (newTcb c ramLocation s).state = .WAITING := by
  simp only [newTcb, initTcb]
  by_cases h : (s.runningTasks.size + s.waitingTasks.size) % 256 = 0
  · rw [if_pos h]
    exact Or.inr rfl
  · rw [if_neg h]
    exact Or.inl rfl

/-- How a creation ends: without a stack, without a control block, without a
    queue node, or with a new task. -/
theorem createTask_cases {c : Chunks} {slot ramLocation : Addr} {s s' : Kernel} {result : Int}
    (h : createTask c slot ramLocation s = some (result, s')) :
    (result = -1 ∧ c.stack = NULL ∧ s' = s) ∨
    (result = -1 ∧ c.stack ≠ NULL ∧ c.tcb = NULL ∧ s' = s.allocate c.stack) ∨
    (Granted c s ∧ ∃ list snode,
      (s.currentlyRunning = NULL → list = s.list ∧ snode = s.snode) ∧
      ((result = -1 ∧ c.queueNode = NULL ∧ s' = prepared c ramLocation list snode s) ∨
        (result = ((newTcb c ramLocation s).pid : Int) ∧ c.queueNode ≠ NULL ∧
          s' = recordTask c.tcb ramLocation (insertScheduledTask c.queueNode c.tcb
            (prepared c ramLocation list snode s)).2))) := by
  unfold createTask at h
  -- In the order of the allocations; the first two are checked.
  by_cases hstack : c.stack = NULL
  · simp only [if_pos hstack, Option.some.injEq, Prod.mk.injEq] at h
    refine Or.inl ⟨h.1.symm, hstack, ?_⟩
    rw [← h.2, Kernel.allocate, if_pos hstack]
  refine Or.inr ?_
  by_cases htcb : c.tcb = NULL
  · simp only [if_neg hstack, if_pos htcb, Option.some.injEq, Prod.mk.injEq] at h
    refine Or.inl ⟨h.1.symm, hstack, htcb, ?_⟩
    rw [← h.2, Kernel.allocate, if_pos htcb]
  refine Or.inr ?_
  simp only [if_neg hstack, if_neg htcb] at h
  -- A null answer here is written through, so there is no state after it.
  cases hpush : pushChild c.childNode slot (((s.allocate c.stack).allocate c.tcb).setTcb c.tcb
      (initTcb c.stack ramLocation ((s.allocate c.stack).allocate c.tcb))) with
  | none =>
      simp only [hpush] at h
      exact absurd h (by simp only [reduceCtorEq, not_false_eq_true])
  | some s₁ =>
      simp only [hpush] at h
      cases hattach : attachChildList c.childList c.tcb s₁ with
      | none =>
          simp only [hattach] at h
          exact absurd h (by simp only [reduceCtorEq, not_false_eq_true])
      | some s₂ =>
          simp only [hattach] at h
          rcases prepare_some hstack htcb hpush hattach with ⟨hgranted, list, snode, hboot, rfl⟩
          refine ⟨hgranted, list, snode, hboot, ?_⟩
          -- Everything is in place but the node.
          by_cases hnode : c.queueNode = NULL
          · rw [hnode, insertScheduledTask_null] at h
            simp only [if_true, Option.some.injEq, Prod.mk.injEq] at h
            exact Or.inl ⟨h.1.symm, hnode, h.2.symm⟩
          · have hstate := newTcb_state c ramLocation s
            rw [← prepared_tcb c ramLocation list snode s] at hstate
            have hins := insertScheduledTask_some hnode hstate
            rcases hpair : insertScheduledTask c.queueNode c.tcb
              (prepared c ramLocation list snode s) with ⟨result', s₃⟩
            rw [hpair, Prod.mk.injEq] at hins
            have htcb₃ : s₃.tcb c.tcb = newTcb c ramLocation s := by
              rw [hins.2]
              exact prepared_tcb c ramLocation list snode s
            rw [hpair, hins.1] at h
            simp only [Int.reduceNeg, reduceCtorEq, if_false, Option.some.injEq,
              Prod.mk.injEq, htcb₃] at h
            exact Or.inr ⟨h.1.symm, hnode, h.2.symm⟩

/-- The chunks of the stack and the control block are in use when a creation got that far. -/
theorem createTask_takes {c : Chunks} {slot ramLocation : Addr} {s s' : Kernel} {result : Int}
    (h : createTask c slot ramLocation s = some (result, s')) (hstack : c.stack ≠ NULL)
    (htcb : c.tcb ≠ NULL) : c.stack ∈ s'.occupied ∧ c.tcb ∈ s'.occupied := by
  have hprepared : ∀ list snode, c.stack ∈ (prepared c ramLocation list snode s).occupied ∧
      c.tcb ∈ (prepared c ramLocation list snode s).occupied := by
    intro list snode
    simp only [prepared, List.mem_cons, List.mem_append, true_or, or_true, and_self]
  rcases createTask_cases h with ⟨_, hnone, _⟩ | ⟨_, _, hnone, _⟩ |
    ⟨_, list, snode, _, ⟨_, _, rfl⟩ | ⟨_, hnode, rfl⟩⟩
  · exact absurd hnone hstack
  · exact absurd hnone htcb
  · exact hprepared list snode
  · have hstate := newTcb_state c ramLocation s
    rw [← prepared_tcb c ramLocation list snode s] at hstate
    rw [insertScheduledTask_some hnode hstate]
    exact (hprepared list snode).imp (List.mem_cons_of_mem _) (List.mem_cons_of_mem _)

/-- The chunks a creation has handed out before the queue node. -/
def Chunks.taken (c : Chunks) (s : Kernel) : List Addr :=
  c.childList :: (c.entry s ++ [c.tcb, c.stack])

theorem taken_append (c : Chunks) (s : Kernel) (l : List Addr) :
    c.taken s ++ l = c.childList :: (c.entry s ++ (c.tcb :: c.stack :: l)) := by
  simp only [Chunks.taken, List.cons_append, List.append_assoc, List.nil_append]

theorem mem_granted {c : Chunks} {a : Addr} : a ∈ c.granted ↔
    (a = c.stack ∨ a = c.tcb ∨ a = c.childNode ∨ a = c.childList ∨ a = c.queueNode) ∧
      a ≠ NULL := by
  simp only [Chunks.granted, List.mem_filter, List.mem_cons, List.not_mem_nil, or_false,
    decide_eq_true_eq]

theorem mem_taken {c : Chunks} {s : Kernel} {a : Addr} (h : a ∈ c.taken s) :
    a = c.stack ∨ a = c.tcb ∨ (a = c.childNode ∧ s.currentlyRunning ≠ NULL) ∨
      a = c.childList := by
  unfold Chunks.taken Chunks.entry at h
  by_cases hcur : s.currentlyRunning = NULL
  · simp only [if_pos hcur, List.nil_append, List.mem_cons, List.not_mem_nil, or_false] at h
    tauto
  · simp only [if_neg hcur, List.cons_append, List.nil_append, List.mem_cons, List.not_mem_nil,
      or_false] at h
    tauto

/-- What the contract of `allocate` says about the chunks taken. -/
structure Fresh (c : Chunks) (s : Kernel) : Prop where
  nodup : (c.taken s).Nodup
  nonnull : NULL ∉ c.taken s
  free : ∀ a ∈ c.taken s, a ∉ s.occupied
  node : c.queueNode ≠ NULL → c.queueNode ∉ c.taken s ∧ c.queueNode ∉ s.occupied

theorem taken_granted {c : Chunks} {s : Kernel} (h : Granted c s) {a : Addr}
    (ha : a ∈ c.taken s) : a ∈ c.granted := by
  have hne : a ≠ NULL := by
    rcases mem_taken ha with rfl | rfl | ⟨rfl, hcur⟩ | rfl
    · exact h.stack
    · exact h.tcb
    · exact h.childNode hcur
    · exact h.childList
  have hmem := mem_taken ha
  exact mem_granted.mpr ⟨by tauto, hne⟩

theorem free_fresh {c : Chunks} {s : Kernel} (hfree : c.Free s) (h : Granted c s) :
    Fresh c s := by
  rcases hfree with ⟨hnodup, hfree⟩
  have hstack := h.stack
  have htcb := h.tcb
  have hlist := h.childList
  have hchild := h.childNode
  have hnull : NULL ∉ c.taken s := fun hc => (mem_granted.mp (taken_granted h hc)).2 rfl
  -- Two answers that are not null differ, whatever the others are.
  rw [Chunks.granted, List.Nodup, List.pairwise_filter] at hnodup
  simp only [List.pairwise_cons, List.mem_cons, List.not_mem_nil, or_false, forall_eq_or_imp,
    forall_eq, decide_eq_true_eq] at hnodup
  rcases hnodup with ⟨⟨hST, hSN, hSL, hSQ⟩, ⟨hTN, hTL, hTQ⟩, ⟨hNL, hNQ⟩, hLQ, _⟩
  have hst := hST h.stack h.tcb
  have hsl := hSL h.stack h.childList
  have htl := hTL h.tcb h.childList
  refine ⟨?_, hnull, fun a ha => hfree a (taken_granted h ha), fun hnode => ⟨?_, ?_⟩⟩
  · by_cases hcur : s.currentlyRunning = NULL
    · simp only [Chunks.taken, Chunks.entry, if_pos hcur, List.nil_append, List.nodup_cons,
        List.mem_cons, List.not_mem_nil, or_false, not_false_eq_true, List.nodup_nil, and_true]
      exact ⟨not_or.mpr ⟨htl.symm, hsl.symm⟩, hst.symm⟩
    · have hsn := hSN h.stack (h.childNode hcur)
      have htn := hTN h.tcb (h.childNode hcur)
      have hnl := hNL (h.childNode hcur) h.childList
      simp only [Chunks.taken, Chunks.entry, if_neg hcur, List.cons_append, List.nil_append,
        List.nodup_cons, List.mem_cons, List.not_mem_nil, or_false, not_false_eq_true,
        List.nodup_nil, and_true]
      exact ⟨not_or.mpr ⟨hnl.symm, not_or.mpr ⟨htl.symm, hsl.symm⟩⟩,
        not_or.mpr ⟨htn.symm, hsn.symm⟩, hst.symm⟩
  · intro hc
    rcases mem_taken hc with hc | hc | ⟨hc, hcur⟩ | hc
    · exact hSQ h.stack hnode hc.symm
    · exact hTQ h.tcb hnode hc.symm
    · exact hNQ (h.childNode hcur) hnode hc.symm
    · exact hLQ h.childList hnode hc.symm
  · exact hfree _ (mem_granted.mpr ⟨Or.inr (Or.inr (Or.inr (Or.inr rfl))), hnode⟩)

/-- The chunks taken so far are leaked, and no live task has been touched. -/
theorem prepared_consistent {s : Kernel} {v : View} (h : Consistent s v) {c : Chunks}
    (hfresh : Fresh c s) (ramLocation : Addr) (list : Addr → SingleList)
    (snode : Addr → SingleLinkedNode) :
    Consistent (prepared c ramLocation list snode s)
      { v with leaked := c.taken s ++ v.leaked } := by
  have hleak := consistent_leak h hfresh.nodup hfresh.nonnull hfresh.free
  have htcb : c.tcb ∈ c.taken s :=
    List.mem_cons_of_mem _ (List.mem_append_right _ List.mem_cons_self)
  have hwrite := consistent_setTcb hleak
    (leaked_not_live hleak (List.mem_append_left _ htcb)) (newTcb c ramLocation s)
  have hlists := consistent_lists hwrite
    (Function.update list c.childList { size := 0, head := NULL }) snode
  simp only [Kernel.setTcb, taken_append] at hlists ⊢
  exact hlists

/-- A creation does not get as far as pushing onto a child list: no task is
    current, or there is no memory for the stack or the control block. -/
def PushesNothing (c : Chunks) (s : Kernel) : Prop :=
  s.currentlyRunning = NULL ∨ c.stack = NULL ∨ c.tcb = NULL

instance (c : Chunks) (s : Kernel) : Decidable (PushesNothing c s) :=
  inferInstanceAs (Decidable (_ ∨ _ ∨ _))

/-- What no creation touches. -/
structure Untouched (c : Chunks) (s s' : Kernel) : Prop where
  tcb : ∀ t ∈ s.live, s'.tcb t = s.tcb t
  data : ∀ n ∈ s.occupied, s'.dataOf n = s.dataOf n
  lists : PushesNothing c s → ∀ a ∈ s.occupied, s'.list a = s.list a
  current : s'.currentlyRunning = s.currentlyRunning
  preserve : s'.taskToPreserve = s.taskToPreserve
  idleTask : s.booted = true → s'.idleTask = s.idleTask
  pendsv : s'.pendsv = s.pendsv
  booted : s'.booted = s.booted

/-- A creation that has failed: some chunks are leaked, nothing else has
    happened. -/
structure NotCreated (s s' : Kernel) (v v' : View) : Prop where
  consistent : Consistent s' v'
  running : v'.running = v.running
  waiting : v'.waiting = v.waiting
  leaked : ∃ l, v'.leaked = l ++ v.leaked
  live : s'.live = s.live
  images : s'.images = s.images

/-- A creation that has succeeded. -/
structure Created (c : Chunks) (ramLocation : Addr) (s s' : Kernel) (v v' : View) : Prop where
  consistent : Consistent s' v'
  granted : Granted c s
  view : v' = v.insert c.queueNode (newTcb c ramLocation s).state (c.entry s ++ v.leaked)
  new : c.tcb ∉ s.live
  live : s'.live = s.live ++ [c.tcb]
  tcb : s'.tcb c.tcb = newTcb c ramLocation s
  node : s'.dataOf c.queueNode = c.tcb
  list : s'.list c.childList = { size := 0, head := NULL }

theorem prepared_untouched {s : Kernel} {v : View} (h : Consistent s v) {c : Chunks}
    (hgranted : Granted c s) (hfresh : Fresh c s) (ramLocation : Addr) {list : Addr → SingleList}
    {snode : Addr → SingleLinkedNode}
    (hboot : s.currentlyRunning = NULL → list = s.list ∧ snode = s.snode) :
    Untouched c s (prepared c ramLocation list snode s) := by
  have htcb : c.tcb ∉ s.occupied := hfresh.free c.tcb
    (List.mem_cons_of_mem _ (List.mem_append_right _ List.mem_cons_self))
  have hlist : c.childList ∉ s.occupied := hfresh.free c.childList List.mem_cons_self
  refine ⟨fun t ht => ?_, fun _ _ => rfl, fun hnone a ha => ?_, rfl, rfl, fun _ => rfl, rfl, rfl⟩
  · refine Function.update_of_ne (fun hc => htcb ?_) _ _
    rw [← hc]
    exact consistent_live_occupied h ht
  · rcases hnone with hcur | hc | hc
    · rw [← (hboot hcur).1]
      refine Function.update_of_ne (fun hc => hlist ?_) _ _
      rwa [← hc]
    · exact absurd hc hgranted.stack
    · exact absurd hc hgranted.tcb

theorem prepared_created {s : Kernel} {v : View} (h : Consistent s v) {c : Chunks}
    (hgranted : Granted c s) (hfresh : Fresh c s) {ramLocation : Addr} {list : Addr → SingleList}
    {snode : Addr → SingleLinkedNode}
    (hboot : s.currentlyRunning = NULL → list = s.list ∧ snode = s.snode)
    (hnode : c.queueNode ≠ NULL) (himage : ramLocation = 0 ∨ ramLocation ∈ s.images) {s' : Kernel}
    (hs' : s' = recordTask c.tcb ramLocation (insertScheduledTask c.queueNode c.tcb
      (prepared c ramLocation list snode s)).2) :
    Untouched c s s' ∧ Created c ramLocation s s' v
      (v.insert c.queueNode (newTcb c ramLocation s).state (c.entry s ++ v.leaked)) := by
  have hprep := prepared_consistent h hfresh ramLocation list snode
  have hkeep := prepared_untouched h hgranted hfresh ramLocation hboot
  have htcb := prepared_tcb c ramLocation list snode s
  have hstate := newTcb_state c ramLocation s
  rcases hfresh.node hnode with ⟨hnotTaken, hnotOcc⟩
  -- The node is none of the chunks that came before it.
  have hfree : c.queueNode ∉ (prepared c ramLocation list snode s).occupied := by
    intro hc
    have hocc : c.queueNode ∈ c.taken s ++ s.occupied := by
      rw [taken_append]
      exact hc
    rcases List.mem_append.mp hocc with hc | hc
    · exact hnotTaken hc
    · exact hnotOcc hc
  -- Of the chunks taken so far three become the task's, the entry stays behind.
  have hleaked : (c.taken s ++ v.leaked).Perm
      (c.tcb :: (newTcb c ramLocation s).stacksectionLowerBound ::
        (newTcb c ramLocation s).childTasks :: (c.entry s ++ v.leaked)) := by
    rw [List.perm_iff_count]
    intro x
    simp only [Chunks.taken, newTcb, initTcb, List.count_append, List.count_cons, List.count_nil]
    omega
  rw [← htcb] at hstate hleaked
  have hins := insert_consistent hprep hnode hfree hstate
    (by rw [htcb]; rfl) (by rw [htcb]; rfl) himage hleaked
  have hdata : s'.node.data = Function.update s.node.data c.queueNode c.tcb := by
    rw [hs']
    exact hins.2
  rw [htcb] at hins hstate
  rw [← hs'] at hins
  have hsome := insertScheduledTask_some hnode (htcb ▸ hstate)
  rw [hsome] at hs'
  refine ⟨⟨?_, fun n hn => ?_, ?_, ?_, ?_, ?_, ?_, ?_⟩, hins.1, hgranted, rfl, ?_, ?_, ?_, ?_, ?_⟩
  · rw [hs']
    exact hkeep.tcb
  · rw [Kernel.dataOf, hdata]
    exact Function.update_of_ne (fun hc => hnotOcc (by rwa [← hc])) _ _
  · rw [hs']
    exact hkeep.lists
  · rw [hs']
    rfl
  · rw [hs']
    rfl
  · rw [hs']
    exact fun _ => rfl
  · rw [hs']
    rfl
  · rw [hs']
    rfl
  · intro hlive
    exact hfresh.free c.tcb (List.mem_cons_of_mem _ (List.mem_append_right _ List.mem_cons_self))
      (consistent_live_occupied h hlive)
  · rw [hs']
    rfl
  · rw [hs']
    exact htcb
  · rw [Kernel.dataOf, hdata, Function.update_self]
  · rw [hs']
    exact Function.update_self ..

/-- Every way a creation ends keeps the invariant, and touches no task there
    was. -/
theorem createTask_consistent {s s' : Kernel} {v : View} (h : Consistent s v) {c : Chunks}
    {slot ramLocation : Addr} {result : Int} (hfree : c.Free s)
    (himage : ramLocation = 0 ∨ ramLocation ∈ s.images)
    (hrun : createTask c slot ramLocation s = some (result, s')) :
    Untouched c s s' ∧ ∃ v',
      (result = -1 ∧ NotCreated s s' v v') ∨
      (result = ((newTcb c ramLocation s).pid : Int) ∧ Created c ramLocation s s' v v') := by
  rcases createTask_cases hrun with ⟨hres, _, rfl⟩ | ⟨hres, hstack, _, rfl⟩ |
    ⟨hgranted, list, snode, hboot, ⟨hres, _, rfl⟩ | ⟨hres, hnode, rfl⟩⟩
  -- No stack: nothing has happened.
  · exact ⟨⟨fun _ _ => rfl, fun _ _ => rfl, fun _ _ _ => rfl, rfl, rfl, fun _ => rfl,
      rfl, rfl⟩, v, Or.inl ⟨hres, h, rfl, rfl, ⟨[], rfl⟩, rfl, rfl⟩⟩
  -- A stack but no control block: the stack is lost.
  · have hmem : c.stack ∈ c.granted := mem_granted.mpr ⟨Or.inl rfl, hstack⟩
    have hleak := consistent_leak h (List.nodup_singleton c.stack)
      (fun hc => hstack (List.mem_singleton.mp hc).symm)
      (fun a ha => by rw [List.mem_singleton.mp ha]; exact hfree.2 _ hmem)
    rw [allocate_eq, if_neg hstack]
    exact ⟨⟨fun _ _ => rfl, fun _ _ => rfl, fun _ _ _ => rfl, rfl, rfl, fun _ => rfl,
      rfl, rfl⟩, _, Or.inl ⟨hres, hleak, rfl, rfl, ⟨[c.stack], rfl⟩, rfl, rfl⟩⟩
  · have hfresh := free_fresh hfree hgranted
    exact ⟨prepared_untouched h hgranted hfresh ramLocation hboot, _, Or.inl ⟨hres,
      prepared_consistent h hfresh ramLocation list snode, rfl, rfl, ⟨c.taken s, rfl⟩, rfl, rfl⟩⟩
  · have hfresh := free_fresh hfree hgranted
    rcases prepared_created h hgranted hfresh hboot hnode himage rfl with ⟨hkeep, hcreated⟩
    exact ⟨hkeep, _, Or.inr ⟨hres, hcreated⟩⟩

end NextLevelRTOS
