import NextLevelRTOS.Data.Queue
import NextLevelRTOS.Lib.Machine

/-!
# Queues as Lists

Any number of queues whose nodes lie in one memory. `Queue.lean` says what each
operation does to a queue that represents a list; here the list is read off the
queue itself, by walking from its head, and what makes a queue well formed is
said about its pointers.

As long as the queues are well formed and share no node, enqueueing, isolating
and moving nodes is appending to lists and removing from them, whatever the
order of the operations and whichever queues they are for.

Of the two routines that remove a node, `isolate_node` looks whether the queue
becomes empty and `dequeue_element` does not. They agree on every node of a
queue with at least two.

## Main definitions

* `WellFormed`: The pointers of a queue form a ring with the right ends.
* `Queues`, `QueueOp`, `queueStep`: Queues in one memory and what is done with
  them.
* `NodeLists`, `listStep`: Lists of nodes, and what is done with them.
* `Queues.lists`: The lists that queues stand for.
* `Allowed`: What an operation may be called with.
* `RemovalsAgree`: The two removal routines leave the same.

## Theorems

* `wellFormed_represents`: A queue that is well formed represents its members.
* `queueStep_lists`: One operation does to the lists what it should.
* `queues_refine`: Every sequence of operations does to the lists what it should.
* `removals_agree_iff`: When the two removal routines agree.
-/

namespace NextLevelRTOS

open CircularList Machine

/-- The pointers of a queue: an empty one has none, otherwise the forward links
    lead from the head through `size` distinct nodes back to it, the back links
    are their inverse, and the tail is the node before the head. -/
structure WellFormed (σ : NodeStore) (queue : Queue) : Prop where
  nodup : (queue.members σ).Nodup
  nonnull : NULL ∉ queue.members σ
  empty : queue.size = 0 → queue.head = NULL ∧ queue.tail = NULL
  closes : 0 < queue.size → σ.next^[queue.size] queue.head = queue.head
  back : ∀ a ∈ queue.members σ, σ.prev (σ.next a) = a
  tail : 0 < queue.size → queue.tail = σ.prev queue.head

section Pointers

variable {σ : NodeStore} {queue : Queue}

theorem wellFormed_represents (h : WellFormed σ queue) :
    Represents σ queue (queue.members σ) := by
  have hlength : (queue.members σ).length = queue.size := length_walk σ.next _ _
  rcases Nat.eq_zero_or_pos queue.size with hsize | hpos
  · have hnil : queue.members σ = [] := List.eq_nil_of_length_eq_zero (hlength.trans hsize)
    rcases h.empty hsize with ⟨hhead, htail⟩
    rw [hnil]
    exact ⟨List.nodup_nil, List.not_mem_nil, hsize, hhead, htail, trivial⟩
  · have hring : Ring σ.next σ.prev (queue.members σ) := ring_walk h.back (h.closes hpos)
    have hne : queue.members σ ≠ [] := List.ne_nil_of_length_pos (by omega)
    have hhead : (queue.members σ).head? = some queue.head := by
      rw [Queue.members, ← Nat.sub_add_cancel hpos]
      rfl
    refine ⟨h.nodup, h.nonnull, hlength.symm, by rw [hhead]; rfl, ?_, hring⟩
    rw [h.tail hpos, List.getLast?_eq_some_getLast hne, Option.getD_some, ← (ring_ends hring hne).1]
    rw [List.head?_eq_some_head hne, Option.some.injEq] at hhead
    rw [hhead]

theorem represents_wellFormed {l : List Addr} (h : Represents σ queue l) :
    WellFormed σ queue := by
  have hmembers := represents_members h
  refine ⟨by rw [hmembers]; exact h.nodup, by rw [hmembers]; exact h.nonnull, fun hsize => ?_,
    fun hpos => ?_, fun a ha => ?_, fun hpos => ?_⟩
  · have hnil := (represents_size_zero h).mp hsize
    rw [h.head, h.tail, hnil]
    exact ⟨rfl, rfl⟩
  · rw [h.size] at hpos ⊢
    rw [h.head]
    cases l with
    | nil => exact absurd hpos (lt_irrefl 0)
    | cons x m => exact iterate_path h.ring
  · rw [hmembers] at ha
    exact ring_prev_next h.ring ha
  · refine (represents_ends h fun hnil => ?_).1.symm
    rw [h.size, hnil] at hpos
    exact lt_irrefl 0 hpos

end Pointers

/-! ### Sequences of operations -/

section Sequences

variable {ι : Type}

/-- Queues in one memory, and what the calls of `enqueue_element` returned. -/
structure Queues (ι : Type) where
  node : NodeStore
  queue : ι → Queue
  returned : List Int

/-- What is done with a queue. `enqueue_element` comes with the answer of
    `allocate`. -/
inductive QueueOp (ι : Type) where
  | enqueue (q : ι) (newNode data : Addr)
  | isolate (q : ι) (node : Addr)
  | move (q : ι) (node : Addr)

/-- An operation on the queues. -/
def queueStep [DecidableEq ι] : QueueOp ι → Queues ι → Option (Queues ι)
  | .enqueue q newNode data, s =>
    let (result, node, queue) := enqueueElement newNode s.node (s.queue q) data
    some { node := node
           queue := Function.update s.queue q queue
           returned := s.returned ++ [result] }
  | .isolate q n, s =>
    let (node, queue) := isolateNode s.node (s.queue q) n
    some { s with node := node, queue := Function.update s.queue q queue }
  | .move q n, s =>
    let (node, queue) := moveNode s.node (s.queue q) n
    some { s with node := node, queue := Function.update s.queue q queue }

/-- The lists behind queues, and what the nodes carry. -/
structure NodeLists (ι : Type) where
  nodes : ι → List Addr
  data : Addr → Addr
  returned : List Int

/-- The effect of an operation on the lists behind the queues. -/
def listStep [DecidableEq ι] : QueueOp ι → NodeLists ι → Option (NodeLists ι)
  | .enqueue q newNode data, l =>
    if newNode = NULL then some { l with returned := l.returned ++ [-1] }
    else
      some { nodes := Function.update l.nodes q (l.nodes q ++ [newNode])
             data := Function.update l.data newNode data
             returned := l.returned ++ [1] }
  | .isolate q n, l =>
    some { l with nodes := Function.update l.nodes q ((l.nodes q).erase n) }
  | .move q n, l =>
    some { l with nodes := Function.update l.nodes q (l.nodes q ++ [n]) }

/-- The lists that queues stand for. -/
def Queues.lists (s : Queues ι) : NodeLists ι :=
  { nodes := fun q => (s.queue q).members s.node
    data := s.node.data
    returned := s.returned }

/-- The queues are well formed and share no node. -/
structure Queues.Separate (s : Queues ι) : Prop where
  wellFormed : ∀ q, WellFormed s.node (s.queue q)
  disjoint : ∀ q r, q ≠ r → ((s.queue q).members s.node).Disjoint ((s.queue r).members s.node)

/-- What an operation may be called with: a node that `allocate` hands out, or
    one that is moved, is in no queue, and a node that is isolated is in the
    queue it is isolated from. -/
def Allowed (l : NodeLists ι) : QueueOp ι → Prop
  | .enqueue _ newNode _ => newNode ≠ NULL → ∀ r, newNode ∉ l.nodes r
  | .isolate q n => n ∈ l.nodes q
  | .move _ n => n ≠ NULL ∧ ∀ r, n ∉ l.nodes r

/-- The queues stand for these lists. -/
structure Stands (s : Queues ι) (l : NodeLists ι) : Prop where
  represents : ∀ q, Represents s.node (s.queue q) (l.nodes q)
  disjoint : ∀ q r, q ≠ r → (l.nodes q).Disjoint (l.nodes r)
  data : s.node.data = l.data
  returned : s.returned = l.returned

theorem stands_lists {s : Queues ι} {l : NodeLists ι} (h : Stands s l) : s.lists = l := by
  have hnodes : (fun q => (s.queue q).members s.node) = l.nodes :=
    funext fun q => represents_members (h.represents q)
  rw [Queues.lists, hnodes, h.data, h.returned]

theorem stands_separate {s : Queues ι} {l : NodeLists ι} (h : Stands s l) : s.Separate := by
  refine ⟨fun q => represents_wellFormed (h.represents q), fun q r hqr => ?_⟩
  rw [represents_members (h.represents q), represents_members (h.represents r)]
  exact h.disjoint q r hqr

theorem separate_stands {s : Queues ι} (h : s.Separate) : Stands s s.lists :=
  ⟨fun q => wellFormed_represents (h.wellFormed q), h.disjoint, rfl, rfl⟩

/-- A node of no queue may be appended to any of them. -/
theorem disjoint_append_node {l m : List Addr} {n : Addr} (h : l.Disjoint m) (hn : n ∉ m) :
    (l ++ [n]).Disjoint m := by
  intro a ha ham
  rcases List.mem_append.mp ha with ha | ha
  · exact h ha ham
  · rw [List.mem_singleton.mp ha] at ham
    exact hn ham

variable [DecidableEq ι]

/-- One queue gets a new list, apart from the lists of the others. -/
theorem stands_update {s : Queues ι} {l : NodeLists ι} (h : Stands s l) {q : ι}
    {σ : NodeStore} {queue : Queue} {nodes : List Addr} {data : Addr → Addr} {returned : List Int}
    (hqueue : Represents σ queue nodes)
    (hothers : ∀ r, r ≠ q → Represents σ (s.queue r) (l.nodes r))
    (hdisjoint : ∀ r, r ≠ q → nodes.Disjoint (l.nodes r)) (hdata : σ.data = data) :
    Stands { node := σ, queue := Function.update s.queue q queue, returned := returned }
      { nodes := Function.update l.nodes q nodes, data := data, returned := returned } := by
  refine ⟨fun r => ?_, fun r t hrt => ?_, hdata, rfl⟩
  · change Represents σ (Function.update s.queue q queue r) (Function.update l.nodes q nodes r)
    -- The queue of the operation stands for its new nodes, the others for their old
    -- ones.
    by_cases hr : r = q
    · rw [hr, Function.update_self, Function.update_self]
      exact hqueue
    · rw [Function.update_of_ne hr, Function.update_of_ne hr]
      exact hothers r hr
  · change (Function.update l.nodes q nodes r).Disjoint (Function.update l.nodes q nodes t)
    by_cases hr : r = q
    · rw [hr] at hrt
      rw [hr, Function.update_self, Function.update_of_ne hrt.symm]
      exact hdisjoint t hrt.symm
    · rw [Function.update_of_ne hr]
      by_cases ht : t = q
      · rw [ht, Function.update_self]
        exact List.disjoint_comm.mp (hdisjoint r hr)
      · rw [Function.update_of_ne ht]
        exact h.disjoint r t hrt

/-- One operation does to the lists what it should. -/
theorem queueStep_stands {s : Queues ι} {l : NodeLists ι} (h : Stands s l) {op : QueueOp ι}
    (hallowed : Allowed l op) :
    ∃ s' l', queueStep op s = some s' ∧ listStep op l = some l' ∧ Stands s' l' := by
  cases op with
  | enqueue q newNode data =>
      by_cases hnull : newNode = NULL
      · -- Nothing is written, and `-1` is returned.
        have hfail : enqueueElement newNode s.node (s.queue q) data = (-1, s.node, s.queue q) :=
          if_pos hnull
        refine ⟨{ s with returned := s.returned ++ [-1] }, _, ?_, if_pos hnull, ?_⟩
        · simp only [queueStep, hfail, Function.update_eq_self]
        · exact ⟨h.represents, h.disjoint, h.data, by rw [h.returned]⟩
      -- The other queues are apart from the new node, so they stand for what they did.
      · have hfresh := hallowed hnull
        have hq := enqueueElement_represents data (h.represents q) (represents_empty s.node)
          (List.disjoint_nil_right _) (hfresh q) List.not_mem_nil hnull
        have hresult : (enqueueElement newNode s.node (s.queue q) data).1 = 1 := by
          simp only [enqueueElement, if_neg hnull]
        refine ⟨{ node := (enqueueElement newNode s.node (s.queue q) data).2.1
                  queue := Function.update s.queue q
                    (enqueueElement newNode s.node (s.queue q) data).2.2
                  returned := s.returned ++ [1] }, _, ?_, if_neg hnull, ?_⟩
        · rw [← hresult]
          rfl
        rw [h.returned]
        refine stands_update h hq.1 (fun r hr => ?_) (fun r hr => ?_)
          (hq.2.2.trans (by rw [h.data]))
        · exact (enqueueElement_represents data (h.represents q) (h.represents r)
            (h.disjoint q r hr.symm) (hfresh q) (hfresh r) hnull).2.1
        · exact disjoint_append_node (h.disjoint q r hr.symm) (hfresh r)
  | isolate q n =>
      refine ⟨_, _, rfl, rfl, ?_⟩
      simp only [h.returned]
      refine stands_update h (isolateNode_represents (h.represents q) hallowed) (fun r hr => ?_)
        (fun r hr => ?_) ((isolateNode_data _ _ _).trans h.data)
      · exact isolateNode_frame (h.represents q) hallowed (h.disjoint q r hr.symm) (h.represents r)
      · exact fun a ha => h.disjoint q r hr.symm (List.mem_of_mem_erase ha)
  | move q n =>
      rcases hallowed with ⟨hnull, hfresh⟩
      refine ⟨_, _, rfl, rfl, ?_⟩
      simp only [h.returned]
      refine stands_update h (moveNode_represents (h.represents q) (hfresh q) hnull)
        (fun r hr => ?_)
        (fun r hr => ?_) ((moveNode_data _ _ _).trans h.data)
      · exact moveNode_frame (h.represents q) (hfresh r) (h.disjoint q r hr.symm) (h.represents r)
      · exact disjoint_append_node (h.disjoint q r hr.symm) (hfresh r)

/-- Queues and lists stay together through every sequence of operations. -/
theorem run_stands (ops : List (QueueOp ι)) : ∀ (s : Queues ι) (l : NodeLists ι), Stands s l →
    Meets listStep Allowed ops l →
    ∃ s' l', run queueStep ops s = some s' ∧ run listStep ops l = some l' ∧ Stands s' l' := by
  induction ops with
  | nil => exact fun s l h _ => ⟨s, l, rfl, rfl, h⟩
  | cons op ops ih =>
      intro s l h hmeets
      rcases hmeets with ⟨hallowed, hrest⟩
      rcases queueStep_stands h hallowed with ⟨s₁, l₁, hstep, hlist, h₁⟩
      rw [hlist] at hrest
      rcases ih s₁ l₁ h₁ hrest with ⟨s', l', hrun, hlists, h'⟩
      refine ⟨s', l', ?_, ?_, h'⟩
      · rw [run, hstep]
        exact hrun
      · rw [run, hlist]
        exact hlists

/-- Well-formed queues that share no node stay so, and what happens to the lists
    behind them is what happens to lists. -/
theorem queues_refine (ops : List (QueueOp ι)) (s : Queues ι) (h : s.Separate)
    (hallowed : Meets listStep Allowed ops s.lists) :
    ∃ s', run queueStep ops s = some s' ∧ run listStep ops s.lists = some s'.lists ∧
      s'.Separate := by
  rcases run_stands ops s s.lists (separate_stands h) hallowed with ⟨s', l', hrun, hlists, hstands⟩
  exact ⟨s', hrun, by rw [hlists, stands_lists hstands], stands_separate hstands⟩

end Sequences

/-- Two empty queues. -/
def emptyQueues : Queues Bool :=
  { node := fun _ => { next := 0, prev := 0, data := 0 }
    queue := fun _ => { size := 0, head := NULL, tail := NULL }
    returned := [] }

theorem emptyQueues_separate : emptyQueues.Separate :=
  ⟨fun _ => represents_wellFormed (represents_empty _), fun _ _ _ => List.disjoint_nil_right _⟩

/-- Two nodes are enqueued, one more gets no memory, and the first goes over to
    the other queue. -/
def enqueueAndTransfer : List (QueueOp Bool) :=
  [.enqueue false 1 9, .enqueue false 2 8, .enqueue true NULL 7, .isolate false 1, .move true 1]

instance (l : NodeLists Bool) : ∀ op, Decidable (Allowed l op)
  | .enqueue _ newNode _ => inferInstanceAs (Decidable (newNode ≠ NULL → ∀ r, newNode ∉ l.nodes r))
  | .isolate q n => inferInstanceAs (Decidable (n ∈ l.nodes q))
  | .move _ n => inferInstanceAs (Decidable (n ≠ NULL ∧ ∀ r, n ∉ l.nodes r))

theorem queues_refine_transfer :
    ∃ s', run queueStep enqueueAndTransfer emptyQueues = some s' ∧
      run listStep enqueueAndTransfer emptyQueues.lists = some s'.lists ∧ s'.Separate :=
  queues_refine enqueueAndTransfer emptyQueues emptyQueues_separate (by decide)

/-! ### The two removal routines -/

/-- A call of `dequeue_element`, with the pointer it returns: the one it was
    given. -/
def dequeueElementCall (σ : NodeStore) (queue : Queue) (currentlyRunning : Addr) :
    Addr × NodeStore × Queue :=
  (currentlyRunning, dequeueElement σ queue currentlyRunning)

/-- The two removal routines leave the same queue and the same links among the
    nodes that remain, and `dequeue_element` returns the node. -/
structure RemovalsAgree (σ : NodeStore) (queue : Queue) (node : Addr) : Prop where
  queues : (dequeueElementCall σ queue node).2.2 = (isolateNode σ queue node).2
  links : ∀ a ∈ queue.members σ, a ≠ node →
    (dequeueElementCall σ queue node).2.1.next a = (isolateNode σ queue node).1.next a ∧
      (dequeueElementCall σ queue node).2.1.prev a = (isolateNode σ queue node).1.prev a
  returned : (dequeueElementCall σ queue node).1 = node

/-- A queue is determined by the list it represents. -/
theorem represents_queue {σ σ' : NodeStore} {queue queue' : Queue} {l : List Addr}
    (h : Represents σ queue l) (h' : Represents σ' queue' l) : queue = queue' := by
  rw [show queue = ⟨queue.size, queue.head, queue.tail⟩ from rfl, h.size, h.head, h.tail,
    ← h'.size, ← h'.head, ← h'.tail]

/-- With at least two nodes in the queue both routines make the same writes. -/
theorem removals_agree {σ : NodeStore} {queue : Queue} {l : List Addr} {node : Addr}
    (h : Represents σ queue l) (hnode : node ∈ l) (hlen : 1 < l.length) :
    RemovalsAgree σ queue node := by
  have hdequeue := dequeueElement_unlinked h hnode
  have hisolate : Unlinked σ (isolateNode σ queue node).1 node :=
    isolateNode_unlinked (by rw [h.size]; omega)
  refine ⟨represents_queue (dequeueElement_represents h hnode hlen)
      (isolateNode_represents h hnode),
    fun a _ _ => ⟨?_, ?_⟩, rfl⟩
  · rw [hisolate.next]
    exact congrFun hdequeue.next a
  · rw [hisolate.prev]
    exact congrFun hdequeue.prev a

/-- The routines agree on a node exactly if it is not the only one: the last
    node stays head and tail of the queue that `dequeue_element` leaves. -/
theorem removals_agree_iff {σ : NodeStore} {queue : Queue} {node : Addr}
    (h : WellFormed σ queue) (hnode : node ∈ queue.members σ) :
    RemovalsAgree σ queue node ↔ 2 ≤ queue.size := by
  have hrepr := wellFormed_represents h
  have hsize := hrepr.size
  constructor
  · intro hagree
    have hpos := List.length_pos_of_mem hnode
    by_contra hc
    rcases List.length_eq_one_iff.mp (show (queue.members σ).length = 1 by omega) with ⟨x, hx⟩
    rw [hx] at hrepr hnode
    obtain rfl : node = x := List.mem_singleton.mp hnode
    have hhead : node = queue.head := hrepr.head.symm
    have hnext : σ.next node = node := hrepr.ring.1
    have hempty : queue.size - 1 = 0 := by omega
    have hqueue := congrArg Queue.head hagree.queues
    simp only [dequeueElementCall, dequeueElement, if_pos hhead, isolateNode, hempty, if_true,
      hnext] at hqueue
    exact hrepr.nonnull (by rw [← hqueue]; exact List.mem_cons_self)
  · exact fun hlen => removals_agree hrepr hnode (by omega)

/-- Two nodes, each the other's neighbour. -/
def twoNodes : NodeStore := fun a => { next := 3 - a, prev := 3 - a, data := 0 }

theorem removals_agree_iff_twoNodes :
    RemovalsAgree twoNodes { size := 2, head := 1, tail := 2 } 2 ↔ 2 ≤ 2 :=
  removals_agree_iff
    ⟨by decide, by decide, by decide, by decide, by decide, by decide⟩ (by decide)

/-- A node on its own. -/
def oneNode : NodeStore := fun _ => { next := 1, prev := 1, data := 0 }

theorem removals_disagree :
    WellFormed oneNode { size := 1, head := 1, tail := 1 } ∧
      (1 : Addr) ∈ Queue.members { size := 1, head := 1, tail := 1 } oneNode ∧
      ¬ RemovalsAgree oneNode { size := 1, head := 1, tail := 1 } 1 := by
  refine ⟨⟨by decide, by decide, by decide, by decide, by decide, by decide⟩, by decide, ?_⟩
  exact fun hagree => absurd hagree.queues (by decide)

end NextLevelRTOS
