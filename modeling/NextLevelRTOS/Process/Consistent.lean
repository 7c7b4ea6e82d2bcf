import NextLevelRTOS.Process.Frame
import Mathlib.Data.List.Perm.Basic
import Mathlib.Data.List.Perm.Subperm
import Mathlib.Data.List.Pairwise

/-!
# Consistent Queues

What holds of the two task queues and the heap between any two kernel calls.
`View` names the lists the two queues stand for and the chunks that no live
task owns. `Consistent s v` says that the queues represent these lists, that
the tasks in them are the live tasks, that a task's state tells which queue it
is in, and that the chunks in use are exactly the images, the chunks nobody
owns and the chunks the tasks own, each once.

The last clause carries the weight. A chunk in use is owned once, so a new
chunk differs from every node and control block there is, and freeing the
chunks of one task leaves every other task's alone. Distinctness of nodes and
of control blocks is not a clause of its own: it follows, each node owning
itself and its task.

A move between the queues permutes the nodes and leaves the ownership alone,
so `consistent_move` is the whole argument for blocking and for waking.

## Main definitions

* `View`: The lists behind the queues.
* `Kernel.owns`: The chunks a node's task owns.
* `Consistent`: The invariant of queues and heap.

## Theorems

* `nodup_map_of_flatMap`: Owners of disjoint chunks are distinct.
* `consistent_congr`: The invariant reads no control field.
* `consistent_move`: The invariant survives any move of nodes.
* `consistent_setState`: The invariant survives a change of state that keeps a task's
  queue.
* `findNode_eq`: A counted loop from the head finds the first match.
* `nextReady_eq`: The ring search finds the first ready task after a member.
* `wakeupPid_cases`: The two outcomes of `wakeup_pid`.
* `blockCurrentTask_consistent`: Blocking moves the current task.
-/

namespace NextLevelRTOS

open CircularList

/-- The lists behind the two queues, and the chunks in use that no live task
    owns and no task will be created from. -/
structure View where
  running : List Addr
  waiting : List Addr
  leaked : List Addr

/-- The nodes of both queues. -/
def View.nodes (v : View) : List Addr := v.running ++ v.waiting

/-- The chunks a control block points to and nobody else does. -/
def Tcb.chunks (t : Tcb) : List Addr :=
  t.stacksectionLowerBound :: t.childTasks :: if t.isExternal then [t.codeSection] else []

/-- The chunks a node's task owns: the node, the control block, the stack, the
    child list and an external task's code. -/
def Kernel.owns (s : Kernel) (n : Addr) : List Addr :=
  n :: s.dataOf n :: (s.tcb (s.dataOf n)).chunks

/-- The invariant of queues and heap. -/
structure Consistent (s : Kernel) (v : View) : Prop where
  running : Represents s.node s.runningTasks v.running
  waiting : Represents s.node s.waitingTasks v.waiting
  tasks : List.Perm (v.nodes.map s.dataOf) s.live
  heap : List.Perm s.occupied (s.images ++ v.leaked ++ v.nodes.flatMap s.owns)
  chunks : s.occupied.Nodup
  nonnull : NULL ∉ s.occupied
  waitingState : ∀ n ∈ v.waiting, s.stateOf n = .WAITING
  runningState : ∀ n ∈ v.running, s.stateOf n ≠ .WAITING

/-- Owners of disjoint chunks are distinct: if the chunks of all `x` together
    have no duplicates, then picking one chunk of each yields none either. -/
theorem nodup_map_of_flatMap {α β : Type} {f : α → List β} {g : α → β} (hg : ∀ x, g x ∈ f x)
    {l : List α} (h : (l.flatMap f).Nodup) : (l.map g).Nodup := by
  induction l with
  | nil => exact List.nodup_nil
  | cons x l ih =>
      rw [List.flatMap_cons, List.nodup_append] at h
      rcases h with ⟨_, hrest, hdisj⟩
      rw [List.map_cons, List.nodup_cons]
      refine ⟨fun hmem => ?_, ih hrest⟩
      rcases List.mem_map.mp hmem with ⟨y, hy, hxy⟩
      exact hdisj (g x) (hg x) (g y) (List.mem_flatMap.mpr ⟨y, hy, hg y⟩) hxy.symm

section Derived

variable {s : Kernel} {v : View}

theorem node_mem_owns (s : Kernel) (n : Addr) : n ∈ s.owns n := List.mem_cons_self

theorem data_mem_owns (s : Kernel) (n : Addr) : s.dataOf n ∈ s.owns n :=
  List.mem_cons_of_mem _ List.mem_cons_self

theorem consistent_owned_nodup (h : Consistent s v) :
    (s.images ++ v.leaked ++ v.nodes.flatMap s.owns).Nodup :=
  h.heap.nodup_iff.mp h.chunks

theorem consistent_flatMap_nodup (h : Consistent s v) : (v.nodes.flatMap s.owns).Nodup :=
  (List.nodup_append.mp (consistent_owned_nodup h)).2.1

theorem consistent_nodes_nodup (h : Consistent s v) : v.nodes.Nodup := by
  have hmap := nodup_map_of_flatMap (g := id) (node_mem_owns s) (consistent_flatMap_nodup h)
  rwa [List.map_id] at hmap

theorem consistent_data_nodup (h : Consistent s v) : (v.nodes.map s.dataOf).Nodup :=
  nodup_map_of_flatMap (data_mem_owns s) (consistent_flatMap_nodup h)

theorem consistent_live_nodup (h : Consistent s v) : s.live.Nodup :=
  h.tasks.nodup_iff.mp (consistent_data_nodup h)

theorem consistent_disjoint (h : Consistent s v) : v.running.Disjoint v.waiting :=
  List.disjoint_of_nodup_append (consistent_nodes_nodup h)

theorem consistent_owns_occupied (h : Consistent s v) {n a : Addr} (hn : n ∈ v.nodes)
    (ha : a ∈ s.owns n) : a ∈ s.occupied :=
  h.heap.mem_iff.mpr (List.mem_append_right _ (List.mem_flatMap.mpr ⟨n, hn, ha⟩))

theorem consistent_node_occupied (h : Consistent s v) {n : Addr} (hn : n ∈ v.nodes) :
    n ∈ s.occupied :=
  consistent_owns_occupied h hn (node_mem_owns s n)

theorem consistent_node_ne_null (h : Consistent s v) {n : Addr} (hn : n ∈ v.nodes) :
    n ≠ NULL :=
  fun hc => h.nonnull (by rw [← hc]; exact consistent_node_occupied h hn)

/-- Different nodes carry different tasks. -/
theorem consistent_data_inj (h : Consistent s v) {n m : Addr} (hn : n ∈ v.nodes)
    (hm : m ∈ v.nodes) (hnm : s.dataOf n = s.dataOf m) : n = m :=
  List.inj_on_of_nodup_map (consistent_data_nodup h) hn hm hnm

theorem consistent_live_iff (h : Consistent s v) (t : Addr) :
    t ∈ s.live ↔ ∃ n ∈ v.nodes, s.dataOf n = t := by
  rw [← h.tasks.mem_iff, List.mem_map]

theorem consistent_live_occupied (h : Consistent s v) {t : Addr} (ht : t ∈ s.live) :
    t ∈ s.occupied := by
  rcases (consistent_live_iff h t).mp ht with ⟨n, hn, rfl⟩
  exact consistent_owns_occupied h hn (data_mem_owns s n)

end Derived

theorem owns_congr {s s' : Kernel} (h : Frame s s') (n : Addr) : s'.owns n = s.owns n := by
  have hd : s'.dataOf n = s.dataOf n := congrFun h.data n
  have ht := h.tcb (s.dataOf n)
  simp only [Kernel.owns, hd, Tcb.chunks, ht.stack, ht.childTasks, ht.isExternal, ht.codeSection]

/-- The invariant survives any move of nodes within the frame: the nodes are
    the same up to order, so the tasks and what they own are. -/
theorem consistent_move {s s' : Kernel} {v v' : View} (h : Consistent s v) (hf : Frame s s')
    (hnodes : v'.nodes.Perm v.nodes) (hleaked : v'.leaked = v.leaked)
    (hrun : Represents s'.node s'.runningTasks v'.running)
    (hwait : Represents s'.node s'.waitingTasks v'.waiting)
    (hws : ∀ n ∈ v'.waiting, s'.stateOf n = .WAITING)
    (hrs : ∀ n ∈ v'.running, s'.stateOf n ≠ .WAITING) : Consistent s' v' := by
  have hdata : s'.dataOf = s.dataOf := hf.data
  have howns : s'.owns = s.owns := funext (owns_congr hf)
  refine ⟨hrun, hwait, ?_, ?_, ?_, ?_, hws, hrs⟩
  · rw [hdata, hf.live]
    exact (hnodes.map _).trans h.tasks
  · rw [hf.occupied, hf.images, hleaked, howns]
    exact h.heap.trans (List.Perm.append_left _ (hnodes.flatMap_right _).symm)
  · rw [hf.occupied]
    exact h.chunks
  · rw [hf.occupied]
    exact h.nonnull

/-- The invariant reads no control field. -/
theorem consistent_control {s : Kernel} {v : View} (h : Consistent s v) (cur preserve : Addr)
    (pendsv booted : Bool) (requests dma : Nat) :
    Consistent { s with
      currentlyRunning := cur
      taskToPreserve := preserve
      pendsv := pendsv
      booted := booted
      cleanUpRequests := requests
      dmaInterruptAction := dma } v :=
  ⟨h.running, h.waiting, h.tasks, h.heap, h.chunks, h.nonnull, h.waitingState, h.runningState⟩

section States

theorem stateOf_update (s : Kernel) (t n : Addr) (state : TaskState) :
    ((Function.update s.tcb t { s.tcb t with state := state }) (s.dataOf n)).state =
      if s.dataOf n = t then state else s.stateOf n := by
  by_cases h : s.dataOf n = t
  · rw [if_pos h, h, Function.update_self]
  · rw [if_neg h, Function.update_of_ne h]
    rfl

theorem stateOf_setState (s : Kernel) (t n : Addr) (state : TaskState) :
    (s.setState t state).stateOf n = if s.dataOf n = t then state else s.stateOf n :=
  stateOf_update s t n state

theorem stateOf_wakeNode (s : Kernel) (q n : Addr) :
    (wakeNode q s).stateOf n = if s.dataOf n = s.dataOf q then .READY else s.stateOf n := by
  have hdata : (wakeNode q s).dataOf n = s.dataOf n := congrFun (wakeNode_frame q s).data n
  have htcb : (wakeNode q s).tcb =
      Function.update s.tcb (s.dataOf q) { s.tcb (s.dataOf q) with state := .READY } := by
    rw [wakeNode_eq]
  rw [Kernel.stateOf, hdata, htcb]
  exact stateOf_update s _ n .READY

theorem stateOf_blockCurrentTask (s : Kernel) (n : Addr) :
    (blockCurrentTask s).stateOf n =
      if s.dataOf n = s.dataOf s.currentlyRunning then .WAITING else s.stateOf n := by
  have hdata : (blockCurrentTask s).dataOf n = s.dataOf n :=
    congrFun (blockCurrentTask_frame s).data n
  rw [Kernel.stateOf, hdata]
  exact stateOf_update s _ n .WAITING

end States

/-- A running task may change its state as long as it does not wait. -/
theorem consistent_setState {s : Kernel} {v : View} (h : Consistent s v) {n : Addr}
    (hn : n ∈ v.running) {state : TaskState} (hstate : state ≠ .WAITING) :
    Consistent (s.setState (s.dataOf n) state) v := by
  refine consistent_move h (frame_setState s _ state) (List.Perm.refl _) rfl h.running h.waiting
    (fun m hm => ?_) (fun m hm => ?_)
  · rw [stateOf_setState, if_neg]
    · exact h.waitingState m hm
    · intro hc
      have hmn := consistent_data_inj h (List.mem_append_right _ hm)
        (List.mem_append_left _ hn) hc
      rw [hmn] at hm
      exact consistent_disjoint h hn hm
  · rw [stateOf_setState]
    by_cases hc : s.dataOf m = s.dataOf n
    · rw [if_pos hc]
      exact hstate
    · rw [if_neg hc]
      exact h.runningState m hm

section Searches

theorem findNode_walk (σ : NodeStore) (test : Addr → Bool) (n : Nat) (q : Addr) :
    findNode σ test n q = (walk σ.next n q).find? test := by
  induction n generalizing q with
  | zero => rfl
  | succ n ih =>
      rw [findNode, walk, List.find?_cons, ih]
      cases test q with
      | true => rfl
      | false => rfl

/-- A counted loop from the head of a queue finds the first match. -/
theorem findNode_eq {σ : NodeStore} {queue : Queue} {l : List Addr} (test : Addr → Bool)
    (h : Represents σ queue l) : findNode σ test queue.size queue.head = l.find? test := by
  rw [findNode_walk]
  exact congrArg (List.find? test) (represents_members h)

theorem nextReady_walk (s : Kernel) (n : Nat) (q : Addr) :
    nextReady s n q =
      (walk s.node.next n (s.node.next q)).find? (fun m => s.stateOf m = .READY) := by
  induction n generalizing q with
  | zero => rfl
  | succ n ih =>
      rw [nextReady, walk, List.find?_cons, ih]
      by_cases hq : s.stateOf (s.node.next q) = .READY
      · simp only [hq, if_true, decide_true]
      · simp only [hq, if_false, decide_false]

/-- The ring search tries every member, the one it starts from last. -/
theorem nextReady_ring {s : Kernel} {q : Addr} {m : List Addr}
    (h : Ring s.node.next s.node.prev (q :: m)) :
    nextReady s (m.length + 1) q = (m ++ [q]).find? (fun n => s.stateOf n = .READY) := by
  rw [nextReady_walk, walk_next_ring h]

theorem nextReady_eq {s : Kernel} {a b : List Addr} {q : Addr}
    (h : Represents s.node s.runningTasks (a ++ q :: b)) :
    nextReady s s.runningTasks.size q =
      (b ++ a ++ [q]).find? (fun m => s.stateOf m = .READY) := by
  have hring : Ring s.node.next s.node.prev (q :: (b ++ a)) :=
    (ring_append_comm a (q :: b)).mp h.ring
  have hsize : s.runningTasks.size = (b ++ a).length + 1 := by
    rw [h.size]
    simp only [List.length_append, List.length_cons]
    omega
  rw [hsize, nextReady_ring hring]

/-- The ring search from a member: its answer is a ready member, and without
    an answer no member is ready. -/
theorem nextReady_cases {s : Kernel} {l : List Addr} {q : Addr}
    (h : Represents s.node s.runningTasks l) (hq : q ∈ l) :
    (∃ n ∈ l, s.stateOf n = .READY ∧ nextReady s s.runningTasks.size q = some n) ∨
      ((∀ n ∈ l, s.stateOf n ≠ .READY) ∧ nextReady s s.runningTasks.size q = none) := by
  rcases List.append_of_mem hq with ⟨a, b, rfl⟩
  have hmem : ∀ n, n ∈ b ++ a ++ [q] ↔ n ∈ a ++ q :: b := by
    intro n
    simp only [List.mem_append, List.mem_cons]
    tauto
  rw [nextReady_eq h]
  cases hfind : (b ++ a ++ [q]).find? (fun m => s.stateOf m = .READY) with
  | some n =>
      have hready := List.find?_some hfind
      exact Or.inl ⟨n, (hmem n).mp (List.mem_of_find?_eq_some hfind),
        of_decide_eq_true hready, rfl⟩
  | none =>
      refine Or.inr ⟨fun n hn => ?_, rfl⟩
      have hnot := List.find?_eq_none.mp hfind n ((hmem n).mpr hn)
      exact fun hc => hnot (decide_eq_true hc)

/-- The two outcomes of `wakeup_pid`: no waiting task has the identifier and
    nothing happens, or the first one that has it is woken. -/
theorem wakeupPid_cases {s : Kernel} {v : View} (h : Consistent s v) (pid : Nat) :
    ((∀ n ∈ v.waiting, s.pidOf n ≠ pid) ∧ wakeupPid pid s = (NULL, s)) ∨
      ∃ n ∈ v.waiting, v.waiting.find? (fun n => s.pidOf n = pid) = some n ∧
        s.pidOf n = pid ∧ wakeupPid pid s = (n, wakeNode n s) := by
  unfold wakeupPid
  by_cases hhead : s.waitingTasks.head = NULL
  · have hnil := (represents_head_null h.waiting).mp hhead
    rw [if_pos hhead, hnil]
    exact Or.inl ⟨fun n hn => absurd hn List.not_mem_nil, rfl⟩
  · rw [if_neg hhead, findNode_eq _ h.waiting]
    cases hfind : v.waiting.find? (fun n => s.pidOf n = pid) with
    | none =>
        refine Or.inl ⟨fun n hn hc => ?_, rfl⟩
        exact List.find?_eq_none.mp hfind n hn (decide_eq_true hc)
    | some n =>
        have hpid := List.find?_some hfind
        exact Or.inr ⟨n, List.mem_of_find?_eq_some hfind, rfl, of_decide_eq_true hpid, rfl⟩

end Searches

/-- The lists after node `n` has been woken. -/
def View.wake (v : View) (n : Addr) : View :=
  { v with running := v.running ++ [n], waiting := v.waiting.erase n }

/-- The lists after node `n` has been blocked. -/
def View.block (v : View) (n : Addr) : View :=
  { v with running := v.running.erase n, waiting := v.waiting ++ [n] }

theorem wake_nodes_perm {v : View} {n : Addr} (hn : n ∈ v.waiting) :
    (v.wake n).nodes.Perm v.nodes := by
  change ((v.running ++ [n]) ++ v.waiting.erase n).Perm (v.running ++ v.waiting)
  rw [List.append_assoc, List.singleton_append]
  exact List.Perm.append_left _ (List.perm_cons_erase hn).symm

theorem block_nodes_perm {v : View} {n : Addr} (hn : n ∈ v.running) :
    (v.block n).nodes.Perm v.nodes := by
  change (v.running.erase n ++ (v.waiting ++ [n])).Perm (v.running ++ v.waiting)
  have hback : (v.waiting ++ [n]).Perm (n :: v.waiting) := List.perm_append_singleton n v.waiting
  refine (List.Perm.append_left _ hback).trans ?_
  refine List.perm_middle.trans ?_
  exact (List.perm_cons_erase hn).symm.append_right v.waiting

/-- Waking a waiting node moves it to the end of the running queue. -/
theorem wakeNode_consistent {s : Kernel} {v : View} (h : Consistent s v) {n : Addr}
    (hn : n ∈ v.waiting) : Consistent (wakeNode n s) (v.wake n) := by
  have hnd := (List.nodup_append.mp (consistent_nodes_nodup h)).2.1
  have hinj : ∀ m ∈ v.nodes, s.dataOf m = s.dataOf n → m = n :=
    fun m hm hc => consistent_data_inj h hm (List.mem_append_right _ hn) hc
  have hdisj : v.waiting.Disjoint v.running := fun m hw hr => consistent_disjoint h hr hw
  rcases transfer_represents h.waiting h.running hdisj hn with ⟨hw, hr, _⟩
  refine consistent_move h (wakeNode_frame n s) (wake_nodes_perm hn) rfl ?_ ?_
    (fun m hm => ?_) (fun m hm => ?_)
  · rw [wakeNode_eq]
    exact hr
  · rw [wakeNode_eq]
    exact hw
  · rw [stateOf_wakeNode, if_neg]
    · exact h.waitingState m (List.mem_of_mem_erase hm)
    · intro hc
      have hmn := hinj m (List.mem_append_right _ (List.mem_of_mem_erase hm)) hc
      -- The node has left the waiting queue, where it stood once.
      rw [hmn] at hm
      exact hnd.not_mem_erase hm
  · rw [stateOf_wakeNode]
    -- The node woken is ready, and the others of the running queue do not wait.
    by_cases hc : s.dataOf m = s.dataOf n
    · rw [if_pos hc]
      exact fun hready => TaskState.noConfusion hready
    · rw [if_neg hc]
      rcases List.mem_append.mp hm with hm | hm
      · exact h.runningState m hm
      · exact absurd (by rw [List.mem_singleton.mp hm]) hc

/-- Blocking moves the current node to the end of the waiting queue. -/
theorem blockCurrentTask_consistent {s : Kernel} {v : View} (h : Consistent s v)
    (hcur : s.currentlyRunning ∈ v.running) :
    Consistent (blockCurrentTask s) (v.block s.currentlyRunning) := by
  have hnd := (List.nodup_append.mp (consistent_nodes_nodup h)).1
  have hinj : ∀ m ∈ v.nodes, s.dataOf m = s.dataOf s.currentlyRunning → m = s.currentlyRunning :=
    fun m hm hc => consistent_data_inj h hm (List.mem_append_left _ hcur) hc
  rcases transfer_represents h.running h.waiting (consistent_disjoint h) hcur with ⟨hr, hw, _⟩
  refine consistent_move h (blockCurrentTask_frame s) (block_nodes_perm hcur) rfl hr hw
    (fun m hm => ?_) (fun m hm => ?_)
  · rw [stateOf_blockCurrentTask]
    by_cases hc : s.dataOf m = s.dataOf s.currentlyRunning
    · rw [if_pos hc]
    · rw [if_neg hc]
      rcases List.mem_append.mp hm with hm | hm
      · exact h.waitingState m hm
      · exact absurd (by rw [List.mem_singleton.mp hm]) hc
  · rw [stateOf_blockCurrentTask, if_neg]
    · exact h.runningState m (List.mem_of_mem_erase hm)
    · intro hc
      have hmn := hinj m (List.mem_append_left _ (List.mem_of_mem_erase hm)) hc
      rw [hmn] at hm
      exact hnd.not_mem_erase hm

end NextLevelRTOS
