import NextLevelRTOS.Data.List
import NextLevelRTOS.Lib.CircularList

/-!
# Task Queues

The two task queues are circular doubly linked lists of nodes
(`data/queue.c`). A node outlives its place in a queue: blocking and waking
move one and the same node back and forth.

The functions below are the pointer writes of the source in the source's
order. `Represents` says what they are for: the queue is a list of distinct
nodes, its head and tail are the ends of that list, and the links form a
ring. Each operation then has one statement about lists, and everything above
this module reads those statements and never the writes.

There are two routines that remove a node. `isolate_node` tests whether the
queue becomes empty; `dequeue_element` does not, and is only right on a queue
of at least two nodes, which is what `dequeueElement_represents` asks for.

## Main definitions

* `Node`, `Queue`: The two structures of `data/queue.h`.
* `NodeStore`: What is written at each node address.
* `dequeueElement`, `isolateNode`, `moveNode`, `enqueueElement`: The queue
  operations.
* `Queue.members`: The nodes met from the head, as many as the queue counts.
* `Represents`: The queue holds exactly these nodes, in this order.

## Theorems

* `represents_members`: A represented queue has the list as its members.
* `represents_congr`: A queue reads nothing but its own nodes' links.
* `isolateNode_represents`: Isolating a node removes it.
* `dequeueElement_represents`: Dequeueing a node from among others removes it.
* `moveNode_represents`: Moving a node in appends it.
* `transfer_represents`: Isolating from one queue and moving to another.
* `enqueueElement_represents`: Enqueueing appends a new node.
-/

namespace NextLevelRTOS

open CircularList

/-- `Node_t` -/
structure Node where
  next : Addr
  prev : Addr
  data : Addr
  deriving DecidableEq, Repr

/-- `Queue_t` -/
structure Queue where
  size : Nat
  head : Addr
  tail : Addr
  deriving DecidableEq, Repr

/-- What is written at each node address. -/
abbrev NodeStore := Addr → Node

namespace NodeStore

/-- The forward links of a store. -/
def next (σ : NodeStore) : Addr → Addr := fun a => (σ a).next

/-- The back links of a store. -/
def prev (σ : NodeStore) : Addr → Addr := fun a => (σ a).prev

/-- What the nodes of a store carry. -/
def data (σ : NodeStore) : Addr → Addr := fun a => (σ a).data

/-- `a->next = v` -/
def setNext (σ : NodeStore) (a v : Addr) : NodeStore :=
  Function.update σ a { σ a with next := v }

/-- `a->prev = v` -/
def setPrev (σ : NodeStore) (a v : Addr) : NodeStore :=
  Function.update σ a { σ a with prev := v }

variable (σ : NodeStore) (a v : Addr)

@[simp] theorem next_setNext : (σ.setNext a v).next = Function.update σ.next a v := by
  funext b
  by_cases h : b = a
  · subst h
    simp only [next, setNext, Function.update_self]
  · simp only [next, setNext, Function.update_of_ne h]

@[simp] theorem prev_setNext : (σ.setNext a v).prev = σ.prev := by
  funext b
  by_cases h : b = a
  · subst h
    simp only [prev, setNext, Function.update_self]
  · simp only [prev, setNext, Function.update_of_ne h]

@[simp] theorem data_setNext : (σ.setNext a v).data = σ.data := by
  funext b
  by_cases h : b = a
  · subst h
    simp only [data, setNext, Function.update_self]
  · simp only [data, setNext, Function.update_of_ne h]

@[simp] theorem next_setPrev : (σ.setPrev a v).next = σ.next := by
  funext b
  by_cases h : b = a
  · subst h
    simp only [next, setPrev, Function.update_self]
  · simp only [next, setPrev, Function.update_of_ne h]

@[simp] theorem prev_setPrev : (σ.setPrev a v).prev = Function.update σ.prev a v := by
  funext b
  by_cases h : b = a
  · subst h
    simp only [prev, setPrev, Function.update_self]
  · simp only [prev, setPrev, Function.update_of_ne h]

@[simp] theorem data_setPrev : (σ.setPrev a v).data = σ.data := by
  funext b
  by_cases h : b = a
  · subst h
    simp only [data, setPrev, Function.update_self]
  · simp only [data, setPrev, Function.update_of_ne h]

end NodeStore

/-- `dequeue_element`. It returns the node it was given. -/
def dequeueElement (σ : NodeStore) (queue : Queue) (node : Addr) : NodeStore × Queue :=
  if node = queue.head then
    let head := σ.next node
    let σ := σ.setPrev head queue.tail
    let σ := σ.setNext queue.tail head
    (σ, { size := queue.size - 1, head := head, tail := queue.tail })
  else if node = queue.tail then
    let tail := σ.prev node
    let σ := σ.setNext tail queue.head
    let σ := σ.setPrev queue.head tail
    (σ, { size := queue.size - 1, head := queue.head, tail := tail })
  else
    let σ := σ.setNext (σ.prev node) (σ.next node)
    let σ := σ.setPrev (σ.next node) (σ.prev node)
    (σ, { queue with size := queue.size - 1 })

/-- `isolate_node` -/
def isolateNode (σ : NodeStore) (queue : Queue) (node : Addr) : NodeStore × Queue :=
  let size := queue.size - 1
  if size = 0 then
    (σ, { size := size, head := NULL, tail := NULL })
  else
    let head := if node = queue.head then σ.next node else queue.head
    let tail := if node = queue.tail then σ.prev node else queue.tail
    let σ := σ.setNext (σ.prev node) (σ.next node)
    let σ := σ.setPrev (σ.next node) (σ.prev node)
    (σ, { size := size, head := head, tail := tail })

/-- `move_node` -/
def moveNode (σ : NodeStore) (queue : Queue) (node : Addr) : NodeStore × Queue :=
  if queue.size = 0 then
    let σ := σ.setNext node node
    let σ := σ.setPrev node node
    (σ, { size := queue.size + 1, head := node, tail := node })
  else
    let σ := σ.setPrev node queue.tail
    let σ := σ.setNext node queue.head
    let σ := σ.setNext queue.tail node
    let σ := σ.setPrev queue.head node
    (σ, { size := queue.size + 1, head := queue.head, tail := node })

/-- `enqueue_element`, given what `allocate(sizeof(Node_t))` answered. Without
    memory it returns `-1`. -/
def enqueueElement (newNode : Addr) (σ : NodeStore) (queue : Queue) (data : Addr) :
    Int × NodeStore × Queue :=
  if newNode = NULL then (-1, σ, queue)
  else
    let σ := Function.update σ newNode { σ newNode with next := NULL, data := data }
    let (σ, queue) := moveNode σ queue newNode
    (1, σ, queue)

/-- The nodes met from the head, as many as the queue counts. -/
def Queue.members (queue : Queue) (σ : NodeStore) : List Addr :=
  walk σ.next queue.size queue.head

/-- The queue holds exactly the nodes of `l`, in this order. -/
structure Represents (σ : NodeStore) (queue : Queue) (l : List Addr) : Prop where
  nodup : l.Nodup
  nonnull : NULL ∉ l
  size : queue.size = l.length
  head : queue.head = l.head?.getD NULL
  tail : queue.tail = l.getLast?.getD NULL
  ring : Ring σ.next σ.prev l

theorem represents_members {σ : NodeStore} {queue : Queue} {l : List Addr}
    (h : Represents σ queue l) : queue.members σ = l := by
  unfold Queue.members
  rw [h.size, h.head]
  cases l with
  | nil => rfl
  | cons x m => exact walk_ring h.ring

/-- A queue reads nothing but the links of its own nodes. -/
theorem represents_congr {σ σ' : NodeStore} {queue : Queue} {l : List Addr}
    (h : Represents σ queue l) (hnext : ∀ a ∈ l, σ'.next a = σ.next a)
    (hprev : ∀ a ∈ l, σ'.prev a = σ.prev a) : Represents σ' queue l :=
  { h with ring := ring_congr h.ring hnext hprev }

theorem represents_empty (σ : NodeStore) :
    Represents σ { size := 0, head := NULL, tail := NULL } [] :=
  ⟨List.nodup_nil, List.not_mem_nil, rfl, rfl, rfl, trivial⟩

theorem represents_size_zero {σ : NodeStore} {queue : Queue} {l : List Addr}
    (h : Represents σ queue l) : queue.size = 0 ↔ l = [] := by
  rw [h.size, List.length_eq_zero_iff]

theorem represents_head_null {σ : NodeStore} {queue : Queue} {l : List Addr}
    (h : Represents σ queue l) : queue.head = NULL ↔ l = [] := by
  rw [h.head]
  cases l with
  | nil => exact iff_of_true rfl rfl
  | cons x m =>
      refine iff_of_false (fun hx => h.nonnull ?_) (List.cons_ne_nil x m)
      rw [← hx]
      exact List.mem_cons_self

theorem represents_head_ne_tail {σ : NodeStore} {queue : Queue} {l : List Addr}
    (h : Represents σ queue l) (hlen : 1 < l.length) : queue.head ≠ queue.tail := by
  rw [h.head, h.tail]
  rcases List.eq_nil_or_concat l with rfl | ⟨i, z, rfl⟩
  · simp only [List.length_nil] at hlen
    omega
  · rw [List.concat_eq_append] at h hlen ⊢
    rw [List.getLast?_concat, Option.getD_some]
    cases i with
    | nil => simp only [List.nil_append, List.length_singleton] at hlen; omega
    | cons y i =>
        intro hc
        have hy : y = z := hc
        exact (List.nodup_cons.mp h.nodup).1 (by
          rw [hy]
          exact List.mem_append_right _ List.mem_cons_self)

/-- The head and the tail of a queue are linked to each other. -/
theorem represents_ends {σ : NodeStore} {queue : Queue} {l : List Addr}
    (h : Represents σ queue l) (hl : l ≠ []) :
    σ.prev queue.head = queue.tail ∧ σ.next queue.tail = queue.head := by
  rw [h.head, h.tail, List.head?_eq_some_head hl, List.getLast?_eq_some_getLast hl]
  exact ring_ends h.ring hl

/-- The head and the tail of a queue are members. -/
theorem represents_ends_mem {σ : NodeStore} {queue : Queue} {l : List Addr}
    (h : Represents σ queue l) (hl : l ≠ []) : queue.head ∈ l ∧ queue.tail ∈ l := by
  rw [h.head, h.tail, List.head?_eq_some_head hl, List.getLast?_eq_some_getLast hl]
  exact ⟨List.head_mem hl, List.getLast_mem hl⟩

theorem represents_next_mem {σ : NodeStore} {queue : Queue} {l : List Addr} {node : Addr}
    (h : Represents σ queue l) (hnode : node ∈ l) : σ.next node ∈ l :=
  ring_next_mem h.ring hnode

/-- In a queue of at least two nodes the neighbours of a node are others. -/
theorem represents_neighbours_mem_erase {σ : NodeStore} {queue : Queue} {l : List Addr}
    {node : Addr} (h : Represents σ queue l) (hnode : node ∈ l) (hlen : 1 < l.length) :
    σ.next node ∈ l.erase node ∧ σ.prev node ∈ l.erase node := by
  rcases ring_at h.ring hnode with ⟨a, b, rfl, hring⟩
  have hnodea : node ∉ a := fun ha =>
    List.disjoint_of_nodup_append h.nodup ha List.mem_cons_self
  have hne : b ++ a ≠ [] := by
    intro hc
    rcases List.append_eq_nil_iff.mp hc with ⟨hb, ha⟩
    simp only [ha, hb, List.nil_append, List.length_singleton] at hlen
    omega
  have hmem : ∀ x ∈ b ++ a, x ∈ (a ++ node :: b).erase node := by
    intro x hx
    rw [List.erase_append_right _ hnodea, List.erase_cons_head]
    exact List.mem_append.mpr (List.mem_append.mp hx).symm
  rcases ring_neighbours_mem hring hne with ⟨hnext, hprev⟩
  exact ⟨hmem _ hnext, hmem _ hprev⟩

/-- The writes that take a node out: its neighbours point at each other. -/
structure Unlinked (σ σ' : NodeStore) (node : Addr) : Prop where
  next : σ'.next = Function.update σ.next (σ.prev node) (σ.next node)
  prev : σ'.prev = Function.update σ.prev (σ.next node) (σ.prev node)
  data : σ'.data = σ.data

/-- A write of a node's own link leaves that node's link as it is, wherever
    it goes. -/
theorem update_own (f : Addr → Addr) (a b : Addr) : Function.update f b (f a) a = f a := by
  by_cases hc : a = b
  · rw [← hc, Function.update_self]
  · exact Function.update_of_ne hc _ _

theorem unlinked_next_self {σ σ' : NodeStore} {node : Addr} (h : Unlinked σ σ' node) :
    σ'.next node = σ.next node := by
  rw [h.next, update_own]

/-- The two writes both routines make to a node between others. -/
theorem bypass_unlinked (σ : NodeStore) (node : Addr) :
    Unlinked σ ((σ.setNext (σ.prev node) (σ.next node)).setPrev
      ((σ.setNext (σ.prev node) (σ.next node)).next node)
      ((σ.setNext (σ.prev node) (σ.next node)).prev node)) node := by
  -- The second write reads the node's own links after the first one.
  have hself : (σ.setNext (σ.prev node) (σ.next node)).next node = σ.next node := by
    rw [NodeStore.next_setNext, update_own]
  constructor
  · rw [NodeStore.next_setPrev, NodeStore.next_setNext]
  · rw [NodeStore.prev_setPrev, NodeStore.prev_setNext, hself]
  · rw [NodeStore.data_setPrev, NodeStore.data_setNext]

/-- Taking a node out of one queue does not disturb a queue of other nodes. -/
theorem unlinked_frame {σ σ' : NodeStore} {queue : Queue} {l m : List Addr} {node : Addr}
    (h : Unlinked σ σ' node) (hl : Ring σ.next σ.prev l) (hnode : node ∈ l)
    (hdisj : l.Disjoint m) (hm : Represents σ queue m) : Represents σ' queue m := by
  refine represents_congr hm (fun a ha => ?_) (fun a ha => ?_)
  · rw [h.next]
    refine Function.update_of_ne (fun hc => hdisj (ring_prev_mem hl hnode) ?_) _ _
    rwa [← hc]
  · rw [h.prev]
    refine Function.update_of_ne (fun hc => hdisj (ring_next_mem hl hnode) ?_) _ _
    rwa [← hc]

/-- What remains of a queue once a node with neighbours has been bypassed and
    the ends have been moved off it. -/
theorem unlinked_represents {σ σ' : NodeStore} {queue queue' : Queue} {l : List Addr}
    {node : Addr} (h : Unlinked σ σ' node) (hl : Represents σ queue l) (hnode : node ∈ l)
    (hlen : 1 < l.length) (hsize : queue'.size = queue.size - 1)
    (hhead : queue'.head = if node = queue.head then σ.next node else queue.head)
    (htail : queue'.tail = if node = queue.tail then σ.prev node else queue.tail) :
    Represents σ' queue' (l.erase node) := by
  rcases ring_at hl.ring hnode with ⟨a, b, rfl, hring⟩
  have hnd := hl.nodup
  have hnodea : node ∉ a := fun ha => List.disjoint_of_nodup_append hnd ha List.mem_cons_self
  have hnodeb : node ∉ b := (List.nodup_cons.mp (List.nodup_append.mp hnd).2.1).1
  have herase : (a ++ node :: b).erase node = a ++ b := by
    rw [List.erase_append_right _ hnodea, List.erase_cons_head]
  have hsub : (a ++ b).Sublist (a ++ node :: b) :=
    List.Sublist.append_left (List.sublist_cons_self node b) a
  -- With another node in the queue it does not become empty.
  have hne : b ++ a ≠ [] := by
    intro hc
    rcases List.append_eq_nil_iff.mp hc with ⟨hb, ha⟩
    simp only [ha, hb, List.nil_append, List.length_singleton] at hlen
    omega
  rcases ring_neighbours hring with ⟨hnext, hprev⟩
  rw [herase]
  refine ⟨hsub.nodup hnd, fun hc => hl.nonnull (hsub.subset hc), ?_, ?_, ?_, ?_⟩
  · rw [hsize, hl.size]
    simp only [List.length_append, List.length_cons]
    omega
  -- Where the node was an end, its neighbour is the new end.
  · rw [hhead, hl.head, hnext]
    exact (head_bypass hnodea hne NULL).symm
  · rw [htail, hl.tail, hprev]
    exact (last_bypass hnodeb hne NULL).symm
  -- The ring is cut at the node and closed behind it.
  · rw [h.next, h.prev]
    refine (ring_append_comm b a).mp (ring_unlink hring ?_ hne)
    exact ((List.perm_append_comm).nodup_iff).mp (hsub.nodup hnd)

theorem isolateNode_unlinked {σ : NodeStore} {queue : Queue} {node : Addr}
    (hsize : queue.size - 1 ≠ 0) : Unlinked σ (isolateNode σ queue node).1 node := by
  simp only [isolateNode, if_neg hsize]
  exact bypass_unlinked σ node

/-- Isolating a member removes it from the list. -/
theorem isolateNode_represents {σ : NodeStore} {queue : Queue} {l : List Addr} {node : Addr}
    (hl : Represents σ queue l) (hnode : node ∈ l) :
    Represents (isolateNode σ queue node).1 (isolateNode σ queue node).2 (l.erase node) := by
  have hpos := List.length_pos_of_mem hnode
  by_cases hlen : l.length = 1
  · rcases List.length_eq_one_iff.mp hlen with ⟨x, rfl⟩
    rw [List.mem_singleton] at hnode
    subst hnode
    have hsize : queue.size - 1 = 0 := by rw [hl.size]; rfl
    simp only [isolateNode, hsize, if_true, List.erase_cons_head]
    exact represents_empty σ
  · have hsize : queue.size - 1 ≠ 0 := by rw [hl.size]; omega
    refine unlinked_represents (isolateNode_unlinked hsize) hl hnode (by omega) ?_ ?_ ?_
    all_goals simp only [isolateNode, if_neg hsize]

theorem isolateNode_data (σ : NodeStore) (queue : Queue) (node : Addr) :
    (isolateNode σ queue node).1.data = σ.data := by
  by_cases hsize : queue.size - 1 = 0
  · simp only [isolateNode, hsize, if_true]
  · exact (isolateNode_unlinked hsize).data

/-- Isolating a member does not disturb a queue of other nodes. -/
theorem isolateNode_frame {σ : NodeStore} {queue other : Queue} {l m : List Addr} {node : Addr}
    (hl : Represents σ queue l) (hnode : node ∈ l) (hdisj : l.Disjoint m)
    (hm : Represents σ other m) : Represents (isolateNode σ queue node).1 other m := by
  by_cases hsize : queue.size - 1 = 0
  · simpa only [isolateNode, hsize, if_true] using hm
  · exact unlinked_frame (isolateNode_unlinked hsize) hl.ring hnode hdisj hm

/-- The three cases of `dequeue_element` write the same links: the head's back
    link is the tail and the tail's forward link is the head. -/
theorem dequeueElement_unlinked {σ : NodeStore} {queue : Queue} {l : List Addr} {node : Addr}
    (hl : Represents σ queue l) (hnode : node ∈ l) :
    Unlinked σ (dequeueElement σ queue node).1 node := by
  rcases represents_ends hl (List.ne_nil_of_mem hnode) with ⟨hback, hforth⟩
  by_cases hhead : node = queue.head
  -- The pointers of the ends go to each other, so all three branches do the same.
  · simp only [dequeueElement, if_pos hhead]
    rw [← hback, ← hhead]
    constructor
    · rw [NodeStore.next_setNext, NodeStore.next_setPrev]
    · rw [NodeStore.prev_setNext, NodeStore.prev_setPrev]
    · rw [NodeStore.data_setNext, NodeStore.data_setPrev]
  · by_cases htail : node = queue.tail
    · simp only [dequeueElement, if_neg hhead, if_pos htail]
      rw [← hforth, ← htail]
      constructor
      · rw [NodeStore.next_setPrev, NodeStore.next_setNext]
      · rw [NodeStore.prev_setPrev, NodeStore.prev_setNext]
      · rw [NodeStore.data_setPrev, NodeStore.data_setNext]
    · simp only [dequeueElement, if_neg hhead, if_neg htail]
      exact bypass_unlinked σ node

/-- Dequeueing a member from among others removes it from the list. -/
theorem dequeueElement_represents {σ : NodeStore} {queue : Queue} {l : List Addr} {node : Addr}
    (hl : Represents σ queue l) (hnode : node ∈ l) (hlen : 1 < l.length) :
    Represents (dequeueElement σ queue node).1 (dequeueElement σ queue node).2
      (l.erase node) := by
  have hends := represents_head_ne_tail hl hlen
  refine unlinked_represents (dequeueElement_unlinked hl hnode) hl hnode hlen ?_ ?_ ?_
  all_goals
    by_cases hhead : node = queue.head
    · have htail : node ≠ queue.tail := by rwa [hhead]
      simp only [dequeueElement, if_pos hhead, if_neg htail]
    · by_cases htail : node = queue.tail
      · simp only [dequeueElement, if_neg hhead, if_pos htail]
      · simp only [dequeueElement, if_neg hhead, if_neg htail]

theorem dequeueElement_data (σ : NodeStore) (queue : Queue) (node : Addr) :
    (dequeueElement σ queue node).1.data = σ.data := by
  unfold dequeueElement
  by_cases hhead : node = queue.head
  · rw [if_pos hhead, NodeStore.data_setNext, NodeStore.data_setPrev]
  · by_cases htail : node = queue.tail
    · rw [if_neg hhead, if_pos htail, NodeStore.data_setPrev, NodeStore.data_setNext]
    · rw [if_neg hhead, if_neg htail, NodeStore.data_setPrev, NodeStore.data_setNext]

/-- Dequeueing a member does not disturb a queue of other nodes. -/
theorem dequeueElement_frame {σ : NodeStore} {queue other : Queue} {l m : List Addr}
    {node : Addr} (hl : Represents σ queue l) (hnode : node ∈ l)
    (hdisj : l.Disjoint m) (hm : Represents σ other m) :
    Represents (dequeueElement σ queue node).1 other m :=
  unlinked_frame (dequeueElement_unlinked hl hnode) hl.ring hnode hdisj hm

/-- The node taken out keeps its own forward link, which is how a loop over
    the queue goes on from it. -/
theorem dequeueElement_next {σ : NodeStore} {queue : Queue} {l : List Addr} {node : Addr}
    (hl : Represents σ queue l) (hnode : node ∈ l) :
    (dequeueElement σ queue node).1.next node = σ.next node :=
  unlinked_next_self (dequeueElement_unlinked hl hnode)

section Appending

/-- The writes that append a node behind a queue's tail. -/
theorem appended_represents {σ σ' : NodeStore} {queue : Queue} {l : List Addr} {node : Addr}
    (hl : Represents σ queue l) (hnode : node ∉ l) (hnull : node ≠ NULL)
    (hne : l ≠ [])
    (hnext : σ'.next =
      Function.update (Function.update σ.next node queue.head) queue.tail node)
    (hprev : σ'.prev =
      Function.update (Function.update σ.prev node queue.tail) queue.head node) :
    Represents σ' { size := queue.size + 1, head := queue.head, tail := node }
      (l ++ [node]) := by
  refine ⟨?_, ?_, ?_, ?_, ?_, ?_⟩
  -- The six fields one after the other: no node twice, no null node, the size, the
  -- head, the tail, and the ring.
  · refine List.nodup_append.mpr ⟨hl.nodup, List.nodup_singleton node, fun a ha b hb hab => ?_⟩
    rw [List.mem_singleton.mp hb] at hab
    rw [hab] at ha
    exact hnode ha
  · intro hc
    rcases List.mem_append.mp hc with hc | hc
    · exact hl.nonnull hc
    · exact hnull (List.mem_singleton.mp hc).symm
  · simp only [List.length_append, List.length_singleton, hl.size]
  · rw [List.head?_append_of_ne_nil _ hne]
    exact hl.head
  · rw [List.getLast?_concat]
    rfl
  · rw [hnext, hprev]
    refine ring_link hl.ring hl.nodup hnode ?_ ?_
    · rw [hl.head, List.head?_eq_some_head hne, Option.getD_some]
    · rw [hl.tail, List.getLast?_eq_some_getLast hne, Option.getD_some]

/-- Moving in a node that is in no queue appends it. -/
theorem moveNode_represents {σ : NodeStore} {queue : Queue} {l : List Addr} {node : Addr}
    (hl : Represents σ queue l) (hnode : node ∉ l) (hnull : node ≠ NULL) :
    Represents (moveNode σ queue node).1 (moveNode σ queue node).2 (l ++ [node]) := by
  by_cases hsize : queue.size = 0
  · have hnil := (represents_size_zero hl).mp hsize
    subst hnil
    simp only [moveNode, hsize, if_true]
    refine ⟨List.nodup_singleton node, ?_, rfl, rfl, rfl, ?_, ?_, trivial⟩
    · exact fun hc => hnull (List.mem_singleton.mp hc).symm
    · rw [NodeStore.next_setPrev, NodeStore.next_setNext, Function.update_self]
    · rw [NodeStore.prev_setPrev, Function.update_self]
  · have hne : l ≠ [] := fun hc => hsize ((represents_size_zero hl).mpr hc)
    simp only [moveNode, if_neg hsize]
    refine appended_represents hl hnode hnull hne ?_ ?_
    · simp only [NodeStore.next_setPrev, NodeStore.next_setNext]
    · simp only [NodeStore.prev_setPrev, NodeStore.prev_setNext]

theorem moveNode_data (σ : NodeStore) (queue : Queue) (node : Addr) :
    (moveNode σ queue node).1.data = σ.data := by
  by_cases hsize : queue.size = 0
  · simp only [moveNode, hsize, if_true, NodeStore.data_setPrev, NodeStore.data_setNext]
  · simp only [moveNode, if_neg hsize, NodeStore.data_setPrev, NodeStore.data_setNext]

/-- Moving a node in does not disturb a queue of other nodes. -/
theorem moveNode_frame {σ : NodeStore} {queue other : Queue} {l m : List Addr} {node : Addr}
    (hl : Represents σ queue l) (hnode : node ∉ m) (hdisj : l.Disjoint m)
    (hm : Represents σ other m) : Represents (moveNode σ queue node).1 other m := by
  by_cases hsize : queue.size = 0
  · simp only [moveNode, hsize, if_true]
    refine represents_congr hm (fun a ha => ?_) (fun a ha => ?_)
    all_goals
      have hne : a ≠ node := fun hc => hnode (by rwa [← hc])
      simp only [NodeStore.next_setPrev, NodeStore.next_setNext, NodeStore.prev_setPrev,
        NodeStore.prev_setNext, Function.update_of_ne hne]
  · have hnil : l ≠ [] := fun hc => hsize ((represents_size_zero hl).mpr hc)
    -- The writes go to the node and to the ends of its queue, which are all strange to
    -- the other one.
    rcases represents_ends_mem hl hnil with ⟨hhead, htail⟩
    simp only [moveNode, if_neg hsize]
    refine represents_congr hm (fun a ha => ?_) (fun a ha => ?_)
    all_goals
      have hne : a ≠ node := fun hc => hnode (by rwa [← hc])
      have hneh : a ≠ queue.head := fun hc => hdisj hhead (by rwa [← hc])
      have hnet : a ≠ queue.tail := fun hc => hdisj htail (by rwa [← hc])
      simp only [NodeStore.next_setPrev, NodeStore.next_setNext, NodeStore.prev_setPrev,
        NodeStore.prev_setNext, Function.update_of_ne hne, Function.update_of_ne hneh,
        Function.update_of_ne hnet]

end Appending

/-- Isolating a node from one queue and moving it into another: what both
    blocking and waking do. -/
theorem transfer_represents {σ : NodeStore} {source target : Queue} {l m : List Addr}
    {node : Addr} (hl : Represents σ source l) (hm : Represents σ target m)
    (hdisj : l.Disjoint m) (hnode : node ∈ l) :
    Represents (moveNode (isolateNode σ source node).1 target node).1
        (isolateNode σ source node).2 (l.erase node) ∧
      Represents (moveNode (isolateNode σ source node).1 target node).1
        (moveNode (isolateNode σ source node).1 target node).2 (m ++ [node]) ∧
      (moveNode (isolateNode σ source node).1 target node).1.data = σ.data := by
  have hout := isolateNode_represents hl hnode
  have hin := isolateNode_frame hl hnode hdisj hm
  have hnodem : node ∉ m := hdisj hnode
  have hnull : node ≠ NULL := fun hc => hl.nonnull (by rwa [← hc])
  have hdisj' : m.Disjoint (l.erase node) := fun a ha hal => hdisj (List.mem_of_mem_erase hal) ha
  refine ⟨moveNode_frame hin ?_ hdisj' hout, moveNode_represents hin hnodem hnull, ?_⟩
  · exact hl.nodup.not_mem_erase
  · rw [moveNode_data, isolateNode_data]

/-- Enqueueing appends a new node that carries the datum; the nodes already
    there, in this queue and any other, keep theirs. -/
theorem enqueueElement_represents {σ : NodeStore} {queue other : Queue} {l m : List Addr}
    {node : Addr} (data : Addr) (hl : Represents σ queue l) (hm : Represents σ other m)
    (hdisj : l.Disjoint m) (hnodel : node ∉ l) (hnodem : node ∉ m) (hnull : node ≠ NULL) :
    Represents (enqueueElement node σ queue data).2.1 (enqueueElement node σ queue data).2.2
        (l ++ [node]) ∧
      Represents (enqueueElement node σ queue data).2.1 other m ∧
      (enqueueElement node σ queue data).2.1.data = Function.update σ.data node data := by
  set σ' : NodeStore :=
    Function.update σ node { σ node with next := NULL, data := data } with hσ'
  -- Filling the new node changes no node of a queue.
  have hother : ∀ a, a ≠ node → σ' a = σ a := fun a ha => Function.update_of_ne ha _ _
  have hkeep : ∀ {q : Queue} {k : List Addr}, node ∉ k → Represents σ q k →
      Represents σ' q k := by
    intro q k hk hrep
    refine represents_congr hrep (fun a ha => ?_) (fun a ha => ?_)
    all_goals
      have hne : a ≠ node := fun hc => hk (by rwa [← hc])
      simp only [NodeStore.next, NodeStore.prev, hother a hne]
  simp only [enqueueElement, if_neg hnull]
  refine ⟨moveNode_represents (hkeep hnodel hl) hnodel hnull,
    moveNode_frame (hkeep hnodel hl) hnodem hdisj (hkeep hnodem hm), ?_⟩
  rw [moveNode_data]
  funext a
  by_cases ha : a = node
  · subst ha
    simp only [NodeStore.data, Function.update_self]
  · rw [Function.update_of_ne ha]
    simp only [NodeStore.data, Function.update_of_ne ha]

end NextLevelRTOS
