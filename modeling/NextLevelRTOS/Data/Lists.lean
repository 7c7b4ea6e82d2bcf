import Mathlib.Data.Set.Card
import NextLevelRTOS.Data.List
import NextLevelRTOS.Lib.Chain
import NextLevelRTOS.Lib.Machine

/-!
# Singly Linked Lists as Queues

Any number of lists made by `new_list`, whose nodes lie in one memory. A list is
a size and a head. A push looks at the size to see whether there is a chain to
follow and then follows the links; a pop moves the head on and counts down. It
leaves the link of the node it takes off as it is, and the node may come back
from the allocator as part of another list while that link still leads into
the first.

What keeps all this together is that the links lead from the head through `size`
nodes to the null pointer. Then the list is a waiting line: a push goes to its
end and a pop takes its first entry.

Memory holds anything at all before the first operation. The allocator answers
with a chunk that is no list and in no list; whether it has been in one before
makes no difference.

## Main definitions

* `Lists`, `ListOp`, `singleListStep`: Lists in one memory and what is done with
  them.
* `Fifos`, `fifoStep`: The waiting lines they are meant to be.
* `Provided`: What an operation may be called with.
* `Linked`, `AllLinked`: The links of a list are those of the waiting line.
* `IsFifo`: What is seen of a list by following its links.
* `Others`: The other lists are left alone.

## Theorems

* `linked_push`, `linked_pop`: What the two operations do to a list.
* `singleListStep_linked`: One operation does to the waiting lines what it should.
* `linked_isFifo`: What the links of a list say about it.
* `lists_refine`: Every sequence of operations on lists is one on waiting lines.
-/

namespace NextLevelRTOS

open LinkedChain Machine

/-- A node and what it carries. -/
structure Entry where
  node : Addr
  data : Addr
  deriving DecidableEq, Repr

/-- Lists in one memory, and the nodes that calls of `single_list_pop` returned,
    with what they carried; `none` where the null pointer was returned. -/
structure Lists where
  node : Addr → SingleLinkedNode
  list : Addr → SingleList
  popped : List (Option Entry)

/-- What is done with a list. `new_list` and `single_list_push` come with the answer
    of `allocate`. -/
inductive ListOp where
  | newList (list : Addr)
  | push (list newNode data : Addr)
  | pop (list : Addr)
  deriving DecidableEq, Repr

/-- The list an operation is for. -/
def ListOp.list : ListOp → Addr
  | .newList list => list
  | .push list _ _ => list
  | .pop list => list

/-- An operation on the lists. -/
def singleListStep : ListOp → Lists → Option Lists
  | .newList a, s =>
    match newList a s.list with
    | none => none
    | some list => some { s with list := list }
  | .push a newNode data, s =>
    match singleListPush newNode s.node (s.list a) data with
    | none => none
    | some (node, list) => some { s with node := node, list := Function.update s.list a list }
  | .pop a, s =>
    match singleListPop s.node (s.list a) with
    | none => none
    | some (requestedNode, list) =>
      some { s with
        list := Function.update s.list a list
        popped := s.popped ++ [if requestedNode = NULL then none
          else some ⟨requestedNode, (s.node requestedNode).data⟩] }

/-- Nothing has been done yet. -/
def Lists.start (node : Addr → SingleLinkedNode) (list : Addr → SingleList) : Lists :=
  { node := node, list := list, popped := [] }

/-- The lists that have been made, as waiting lines. -/
structure Fifos where
  made : List Addr
  queue : Addr → List Entry
  popped : List (Option Entry)

/-- The effect of an operation on waiting lines. -/
def fifoStep : ListOp → Fifos → Option Fifos
  | .newList a, f =>
    some { f with made := f.made ++ [a], queue := Function.update f.queue a [] }
  | .push a newNode data, f =>
    some { f with queue := Function.update f.queue a (f.queue a ++ [⟨newNode, data⟩]) }
  | .pop a, f =>
    some { f with
      queue := Function.update f.queue a (f.queue a).tail
      popped := f.popped ++ [(f.queue a).head?] }

/-- No list has been made. -/
def Fifos.start : Fifos := { made := [], queue := fun _ => [], popped := [] }

/-- The nodes of a waiting line. -/
def Fifos.nodes (f : Fifos) (a : Addr) : List Addr := (f.queue a).map Entry.node

/-- The chunks that are in use: the lists and their nodes. -/
def Fifos.inUse (f : Fifos) : List Addr := f.made ++ f.made.flatMap f.nodes

/-- What an operation may be called with: `allocate` answers with a chunk that is
    not in use, and a list has been made before it is used. -/
def Provided (f : Fifos) : ListOp → Prop
  | .newList a => a ≠ NULL ∧ a ∉ f.inUse
  | .push a newNode _ => a ∈ f.made ∧ newNode ≠ NULL ∧ newNode ∉ f.inUse
  | .pop a => a ∈ f.made

instance decidableProvided (f : Fifos) : ∀ op, Decidable (Provided f op)
  | .newList a => inferInstanceAs (Decidable (a ≠ NULL ∧ a ∉ f.inUse))
  | .push a newNode _ =>
    inferInstanceAs (Decidable (a ∈ f.made ∧ newNode ≠ NULL ∧ newNode ∉ f.inUse))
  | .pop a => inferInstanceAs (Decidable (a ∈ f.made))

section Links

/-- The links from the head are those of the waiting line, which is as long as the
    list says, and its nodes carry what they should. -/
structure Linked (node : Addr → SingleLinkedNode) (list : SingleList) (l : List Entry) :
    Prop where
  chain : Chain (fun a => (node a).next) NULL list.head (l.map Entry.node)
  size : list.size = l.length
  data : ∀ e ∈ l, (node e.node).data = e.data

variable {node node' : Addr → SingleLinkedNode} {list : SingleList} {l : List Entry}

/-- A list is not touched by writes to nodes of other lists. -/
theorem Linked.congr (h : Linked node list l) (hnode : ∀ e ∈ l, node' e.node = node e.node) :
    Linked node' list l := by
  refine ⟨chain_congr h.chain fun y hy => ?_, h.size, fun e he => ?_⟩
  · rcases List.mem_map.mp hy with ⟨e, he, rfl⟩
    rw [hnode e he]
  · rw [hnode e he]
    exact h.data e he

theorem linked_empty : Linked node { size := 0, head := NULL } [] :=
  ⟨rfl, rfl, fun _ he => absurd he List.not_mem_nil⟩

/-- The search for the end of a chain finds its last node. -/
theorem lastNode_eq {m : List Addr} {q x : Addr} {n : Nat}
    (h : Chain (fun a => (node a).next) NULL q (m ++ [x])) (hn : m.length < n) :
    lastNode node n q = x := by
  induction m generalizing q n with
  | nil =>
      rcases Nat.exists_eq_add_of_lt hn with ⟨k, rfl⟩
      rcases h with ⟨rfl, _, hend⟩
      exact if_pos hend
  | cons y m ih =>
      cases n with
      | zero => exact absurd hn (Nat.not_lt_zero _)
      | succ n =>
          rcases h with ⟨rfl, _, hrest⟩
          have hne : (node q).next ≠ NULL := chain_start_ne hrest (List.concat_ne_nil x m)
          rw [lastNode, if_neg hne]
          exact ih hrest (Nat.lt_of_succ_lt_succ hn)

/-- Where a node points to does not change what the nodes carry. -/
theorem data_link (node : Addr → SingleLinkedNode) (q newNode a : Addr) :
    (Function.update node q { node q with next := newNode } a).data = (node a).data := by
  by_cases ha : a = q
  · rw [ha, Function.update_self]
  · rw [Function.update_of_ne ha]

/-- The last node is linked to one that has been written already. -/
theorem linked_link {m : List Entry} {e new : Entry} (h : Linked node list (m ++ [e]))
    (hnew : node new.node = { next := NULL, data := new.data }) (hnull : new.node ≠ NULL)
    (hne : new.node ≠ e.node) :
    Linked (Function.update node e.node { node e.node with next := new.node })
      { list with size := list.size + 1 } (m ++ [e] ++ [new]) := by
  have hchain := h.chain
  rw [List.map_append, List.map_singleton] at hchain
  have hbefore : ∀ y ∈ m.map Entry.node, y ≠ e.node := by
    rintro y hy rfl
    exact (List.nodup_append.mp (chain_nodup hchain)).2.2 _ hy _ List.mem_cons_self rfl
  refine ⟨?_, ?_, fun x hx => ?_⟩
  · rw [List.map_append, List.map_append, List.map_singleton]
    refine chain_snoc hchain (fun y hy => ?_) ?_ hnull ?_
    · simp only [Function.update_of_ne (hbefore y hy)]
    · simp only [Function.update_self]
    · simp only [Function.update_of_ne hne, hnew]
  · rw [List.length_append, ← h.size]
    rfl
  · rw [data_link]
    rcases List.mem_append.mp hx with hx | hx
    · exact h.data x hx
    · rw [List.mem_singleton.mp hx, hnew]

/-- A push appends its entry, and writes to no node but its own and the last one. -/
theorem linked_push (h : Linked node list l) {newNode : Addr} (data : Addr) (hnull : newNode ≠ NULL)
    (hfresh : newNode ∉ l.map Entry.node) :
    ∃ node' list', singleListPush newNode node list data = some (node', list') ∧
      Linked node' list' (l ++ [⟨newNode, data⟩]) ∧
      ∀ a, a ≠ newNode → a ∉ l.map Entry.node → node' a = node a := by
  have hapart : ∀ e ∈ l, e.node ≠ newNode := by
    rintro e he rfl
    exact hfresh (List.mem_map_of_mem he)
  -- The new node is written before the search, which does not meet it.
  have hwritten : Linked (Function.update node newNode { next := NULL, data := data }) list l :=
    h.congr fun e he => Function.update_of_ne (hapart e he) _ _
  rcases List.eq_nil_or_concat l with rfl | ⟨m, e, rfl⟩
  · -- There is no chain, and the new node becomes one of its own.
    have hsize : list.size = 0 := h.size
    refine ⟨_, _, by rw [singleListPush, if_neg hnull, if_pos hsize], ⟨?_, ?_, ?_⟩, ?_⟩
    · refine ⟨rfl, hnull, ?_⟩
      simp only [Function.update_self]
      rfl
    · rw [hsize]
      rfl
    · intro x hx
      rw [List.mem_singleton.mp hx, Function.update_self]
    · exact fun a ha _ => Function.update_of_ne ha _ _
  · rw [List.concat_eq_append] at h hapart hwritten ⊢
    have hsize : list.size = m.length + 1 := h.size.trans List.length_append
    have hlast : lastNode (Function.update node newNode { next := NULL, data := data })
        list.size list.head = e.node := by
      have hchain := hwritten.chain
      rw [List.map_append, List.map_singleton] at hchain
      exact lastNode_eq hchain (by rw [List.length_map]; omega)
    have he := hapart e (List.mem_append_right m List.mem_cons_self)
    refine ⟨_, _, by rw [singleListPush, if_neg hnull, if_neg (by omega), hlast],
      linked_link hwritten (Function.update_self _ _ _) hnull (Ne.symm he), fun a ha hmem => ?_⟩
    have hlastx : a ≠ e.node := by
      rintro rfl
      exact hmem (List.mem_map_of_mem (List.mem_append_right m List.mem_cons_self))
    rw [Function.update_of_ne hlastx, Function.update_of_ne ha]

/-- A pop takes the first entry off. -/
theorem linked_pop (h : Linked node list l) :
    ∃ list', singleListPop node list = some ((l.head?.map Entry.node).getD NULL, list') ∧
      Linked node list' l.tail := by
  cases l with
  | nil => exact ⟨list, if_pos h.size, h⟩
  | cons e l =>
      have hsize : list.size ≠ 0 := by
        rw [h.size]
        exact Nat.succ_ne_zero _
      have hhead : list.head = e.node := h.chain.1
      have hnull : list.head ≠ NULL := hhead ▸ h.chain.2.1
      refine ⟨_, by rw [singleListPop, if_neg hsize, if_neg hnull, hhead]; rfl, ?_, ?_, ?_⟩
      · exact h.chain.2.2
      · rw [h.size]
        rfl
      · exact fun x hx => h.data x (List.mem_cons_of_mem e hx)

/-- A caller of `single_list_pop` finds the first entry in what is returned. -/
theorem linked_requested (h : Linked node list l) {requestedNode : Addr}
    (hrequested : requestedNode = (l.head?.map Entry.node).getD NULL) :
    (if requestedNode = NULL then none else some ⟨requestedNode, (node requestedNode).data⟩) =
      l.head? := by
  cases l with
  | nil => exact if_pos hrequested
  | cons e l =>
      have hnode : requestedNode = e.node := hrequested
      have hnull : e.node ≠ NULL := h.chain.2.1
      rw [hnode, if_neg hnull, h.data e List.mem_cons_self]
      rfl

/-- What is seen of a list by following its links: they lead through the nodes of the
    waiting line to the null pointer, nothing else is reached and nothing twice, the
    size counts what is reached, the search of a push finds the end, and the data are
    those of the waiting line. -/
structure IsFifo (node : Addr → SingleLinkedNode) (list : SingleList) (l : List Entry) :
    Prop where
  chain : Chain (fun a => (node a).next) NULL list.head (l.map Entry.node)
  contents : list.contents node = l.map Entry.data
  reached : ∀ a, a ≠ NULL →
    (Reaches (fun a => (node a).next) NULL list.head a ↔ a ∈ l.map Entry.node)
  finite : {a | a ≠ NULL ∧ Reaches (fun a => (node a).next) NULL list.head a}.Finite
  size : {a | a ≠ NULL ∧ Reaches (fun a => (node a).next) NULL list.head a}.ncard = list.size
  acyclic : ∀ a, a ≠ NULL → Reaches (fun a => (node a).next) NULL list.head a →
    ¬ Relation.TransGen (Link (fun a => (node a).next) NULL) a a
  terminated : Reaches (fun a => (node a).next) NULL list.head NULL
  search : list.size ≠ 0 → (node (lastNode node list.size list.head)).next = NULL

theorem chainData_eq {q : Addr} (h : Chain (fun a => (node a).next) NULL q (l.map Entry.node))
    (hdata : ∀ e ∈ l, (node e.node).data = e.data) :
    chainData node l.length q = l.map Entry.data := by
  induction l generalizing q with
  | nil => rfl
  | cons e l ih =>
      rcases h with ⟨rfl, hnull, hrest⟩
      rw [List.length_cons, chainData, if_neg hnull, hdata e List.mem_cons_self,
        ih hrest fun x hx => hdata x (List.mem_cons_of_mem e hx)]
      rfl

/-- What the links of a list say about it. -/
theorem linked_isFifo (h : Linked node list l) : IsFifo node list l := by
  have hreached : ∀ a, a ≠ NULL →
      (Reaches (fun a => (node a).next) NULL list.head a ↔ a ∈ l.map Entry.node) :=
    fun a ha => reaches_iff h.chain ha
  have hset : {a | a ≠ NULL ∧ Reaches (fun a => (node a).next) NULL list.head a} =
      ↑(l.map Entry.node).toFinset := by
    ext a
    rw [Set.mem_ofPred_eq, List.coe_toFinset, Set.mem_ofPred_eq]
    exact ⟨fun ha => (hreached a ha.1).mp ha.2, fun ha =>
      ⟨chain_ne h.chain ha, (hreached a (chain_ne h.chain ha)).mpr ha⟩⟩
  refine ⟨h.chain, ?_, hreached, ?_, ?_, fun a ha hr => ?_, reaches_null h.chain, fun hsize => ?_⟩
  · rw [SingleList.contents, h.size]
    exact chainData_eq h.chain h.data
  · rw [hset]
    exact Finset.finite_toSet _
  · rw [hset, Set.ncard_coe_finset, List.toFinset_card_of_nodup (chain_nodup h.chain),
      List.length_map, h.size]
  · exact chain_acyclic h.chain ((hreached a ha).mp hr)
  · rcases List.eq_nil_or_concat l with rfl | ⟨m, e, rfl⟩
    · exact absurd h.size hsize
    · have hchain := h.chain
      rw [List.concat_eq_append, List.map_append, List.map_singleton] at hchain
      have hlength : list.size = m.length + 1 := by
        rw [h.size, List.concat_eq_append]
        exact List.length_append
      rw [lastNode_eq hchain (by rw [List.length_map]; omega)]
      exact chain_last hchain

end Links

section Sequences

/-- The lists that have been made are the waiting lines and share no node, and what
    has been returned is what was taken off. -/
structure AllLinked (s : Lists) (f : Fifos) : Prop where
  linked : ∀ a ∈ f.made, Linked s.node (s.list a) (f.queue a)
  apart : ∀ a ∈ f.made, ∀ b ∈ f.made, a ≠ b → (f.nodes a).Disjoint (f.nodes b)
  popped : s.popped = f.popped

/-- The other lists keep their size and their head, and what is reached from there
    keeps its link and its datum. -/
def Others (a : Addr) (f : Fifos) (s s' : Lists) : Prop :=
  ∀ b ∈ f.made, b ≠ a → s'.list b = s.list b ∧
    ∀ n, n ≠ NULL → Reaches (fun a => (s.node a).next) NULL (s.list b).head n →
      s'.node n = s.node n

variable {s : Lists} {f : Fifos}

theorem mem_inUse_of_node {a n : Addr} (ha : a ∈ f.made) (hn : n ∈ f.nodes a) : n ∈ f.inUse :=
  List.mem_append_right _ (List.mem_flatMap.mpr ⟨a, ha, hn⟩)

/-- One list gets new entries, apart from the nodes of the others, whose links and data
    are as before. -/
theorem allLinked_update (h : AllLinked s f) {a : Addr} {node : Addr → SingleLinkedNode}
    {list : SingleList} {l : List Entry} {made : List Addr} {popped : List (Option Entry)}
    (hmade : ∀ b ∈ made, b ≠ a → b ∈ f.made) (hlinked : Linked node list l)
    (hnode : ∀ b ∈ f.made, b ≠ a → ∀ n ∈ f.nodes b, node n = s.node n)
    (hapart : ∀ b ∈ f.made, b ≠ a → (l.map Entry.node).Disjoint (f.nodes b)) :
    AllLinked { node := node, list := Function.update s.list a list, popped := popped }
        { made := made, queue := Function.update f.queue a l, popped := popped } ∧
      Others a f s { node := node, list := Function.update s.list a list, popped := popped } := by
  refine ⟨⟨fun b hb => ?_, fun b hb c hc hbc => ?_, rfl⟩, fun b hb hba => ?_⟩
  · change Linked node (Function.update s.list a list b) (Function.update f.queue a l b)
    by_cases hba : b = a
    · rw [hba, Function.update_self, Function.update_self]
      exact hlinked
    · have hbmade := hmade b hb hba
      rw [Function.update_of_ne hba, Function.update_of_ne hba]
      exact (h.linked b hbmade).congr fun e he =>
        hnode b hbmade hba _ (List.mem_map_of_mem he)
  · change ((Function.update f.queue a l b).map Entry.node).Disjoint
      ((Function.update f.queue a l c).map Entry.node)
    by_cases hba : b = a
    · have hca : c ≠ a := hba ▸ hbc.symm
      rw [hba, Function.update_self, Function.update_of_ne hca]
      exact hapart c (hmade c hc hca) hca
    · rw [Function.update_of_ne hba]
      by_cases hca : c = a
      · rw [hca, Function.update_self]
        exact List.disjoint_comm.mp (hapart b (hmade b hb hba) hba)
      · rw [Function.update_of_ne hca]
        exact h.apart b (hmade b hb hba) c (hmade c hc hca) hbc
  · refine ⟨Function.update_of_ne hba _ _, fun n hn hreaches => hnode b hb hba n ?_⟩
    exact (reaches_iff (h.linked b hb).chain hn).mp hreaches

/-- One operation does to the waiting lines what it should. -/
theorem singleListStep_linked (h : AllLinked s f) {op : ListOp} (hop : Provided f op) :
    ∃ s' f', singleListStep op s = some s' ∧ fifoStep op f = some f' ∧ AllLinked s' f' ∧
      Others op.list f s s' := by
  rcases s with ⟨node, list, popped⟩
  obtain rfl : popped = f.popped := h.popped
  cases op with
  | newList a =>
      refine ⟨_, _, by rw [singleListStep, newList, if_neg hop.1], rfl, ?_⟩
      refine allLinked_update h (fun b hb hba => ?_) linked_empty (fun _ _ _ _ _ => rfl)
        (fun b _ _ => List.disjoint_nil_left _)
      exact (List.mem_append.mp hb).resolve_right fun hb => hba (List.mem_singleton.mp hb)
  | push a newNode data =>
      rcases hop with ⟨ha, hnull, hfresh⟩
      rcases linked_push (h.linked a ha) data hnull
        (fun hc => hfresh (mem_inUse_of_node ha hc)) with ⟨node', list', hpush, hlinked, hframe⟩
      refine ⟨_, _, by rw [singleListStep, hpush], rfl, ?_⟩
      refine allLinked_update h (fun b hb _ => hb) hlinked (fun b hb hba n hn => ?_)
        (fun b hb hba => ?_)
      · refine hframe n ?_ fun hc => h.apart b hb a ha hba hn hc
        rintro rfl
        exact hfresh (mem_inUse_of_node hb hn)
      · rw [List.map_append, List.map_singleton, List.disjoint_append_left]
        refine ⟨h.apart a ha b hb hba.symm, ?_⟩
        rw [List.singleton_disjoint]
        exact fun hc => hfresh (mem_inUse_of_node hb hc)
  | pop a =>
      rcases linked_pop (h.linked a hop) with ⟨list', hpop, hlinked⟩
      refine ⟨_, _, by rw [singleListStep, hpop], rfl, ?_⟩
      rw [linked_requested (h.linked a hop) rfl]
      refine allLinked_update h (fun b hb _ => hb) hlinked (fun _ _ _ _ _ => rfl)
        (fun b hb hba n hn => ?_)
      rw [List.map_tail] at hn
      exact h.apart a hop b hb hba.symm (List.mem_of_mem_tail hn)

/-- Every sequence of operations keeps the lists linked as the waiting lines say. -/
theorem run_linked (ops : List ListOp) : ∀ (s : Lists) (f : Fifos), AllLinked s f →
    Meets fifoStep Provided ops f →
    ∃ s' f', run singleListStep ops s = some s' ∧ run fifoStep ops f = some f' ∧
      AllLinked s' f' := by
  induction ops with
  | nil => exact fun s f h _ => ⟨s, f, rfl, rfl, h⟩
  | cons op ops ih =>
      intro s f h hmeets
      rcases hmeets with ⟨hop, hrest⟩
      rcases singleListStep_linked h hop with ⟨s₁, f₁, hstep, hfifo, h₁, _⟩
      rw [hfifo] at hrest
      rcases ih s₁ f₁ h₁ hrest with ⟨s', f', hrun, hfifos, h'⟩
      refine ⟨s', f', ?_, ?_, h'⟩
      · rw [run, hstep]
        exact hrun
      · rw [run, hfifo]
        exact hfifos

/-- Every list that has been made is its waiting line, whatever has been done with the
    others, and `single_list_pop` returned what waited longest, or the null pointer
    where nothing did. The next operation changes one list. -/
theorem lists_refine (node : Addr → SingleLinkedNode) (list : Addr → SingleList)
    (ops : List ListOp) (hprovided : Meets fifoStep Provided ops Fifos.start) :
    ∃ s f, run singleListStep ops (Lists.start node list) = some s ∧
      run fifoStep ops Fifos.start = some f ∧
      (∀ a ∈ f.made, IsFifo s.node (s.list a) (f.queue a)) ∧ s.popped = f.popped ∧
      ∀ op, Provided f op → ∃ s', singleListStep op s = some s' ∧ Others op.list f s s' := by
  have hstart : AllLinked (Lists.start node list) Fifos.start :=
    ⟨fun _ ha => absurd ha List.not_mem_nil, fun _ ha => absurd ha List.not_mem_nil, rfl⟩
  rcases run_linked ops _ _ hstart hprovided with ⟨s, f, hrun, hfifos, h⟩
  refine ⟨s, f, hrun, hfifos, fun a ha => linked_isFifo (h.linked a ha), h.popped,
    fun op hop => ?_⟩
  rcases singleListStep_linked h hop with ⟨s', _, hstep, _, _, hothers⟩
  exact ⟨s', hstep, hothers⟩

end Sequences

/-- Two lists; the first is emptied and filled again with the node it had, whose link
    had led to the second node. -/
def emptyAndRefill : List ListOp :=
  [.newList 100, .newList 200, .push 100 1 7, .push 100 2 8, .push 200 3 9, .pop 100, .pop 100,
    .pop 100, .push 100 1 6, .push 200 2 5]

theorem lists_refine_emptied :
    ∃ s f, run singleListStep emptyAndRefill
        (Lists.start (fun _ => ⟨4, 4⟩) (fun _ => ⟨4, 4⟩)) = some s ∧
      run fifoStep emptyAndRefill Fifos.start = some f ∧
      (∀ a ∈ f.made, IsFifo s.node (s.list a) (f.queue a)) ∧ s.popped = f.popped ∧
      ∀ op, Provided f op → ∃ s', singleListStep op s = some s' ∧ Others op.list f s s' :=
  lists_refine _ _ emptyAndRefill (by decide)

end NextLevelRTOS
