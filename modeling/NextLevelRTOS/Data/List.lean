import Mathlib.Logic.Function.Basic

/-!
# Singly Linked Lists

The lists of `data/list.c`, which a task keeps for its children.

A pointer is an address and the null pointer is address zero. Each kind of
heap object has a store of its own, a function from addresses to objects;
a store says what is written at an address, not whether the chunk there is
still in use, which is the allocator's business.

Two functions write through what `allocate` answered without stopping on
the null answer: `new_list` and `single_list_push` report the panic and carry
on. A write through the null pointer has no successor, so these functions
return `none` there. `single_list_pop` reads through the head of a list that
says it is not empty, and returns `none` when that is the null pointer. The size
is a number here: as many nodes as an `int` cannot count do not fit in memory.

## Main definitions

* `Addr`, `NULL`: Pointers.
* `SingleLinkedNode`, `SingleList`: The two structures of `data/list.h`.
* `newList`: An empty list in a new chunk.
* `lastNode`: The loop that looks for the end of the chain.
* `singleListPush`: Appending a datum.
* `singleListPop`: Taking the first node off.
* `SingleList.contents`: The data pointers from the head on.

## Theorems

* `singleListPush_none`: A push fails exactly when there is no memory.
-/

namespace NextLevelRTOS

/-- A pointer. -/
abbrev Addr := Nat

/-- The null pointer. -/
def NULL : Addr := 0

/-- `SingleLinkedNode_t` -/
structure SingleLinkedNode where
  next : Addr
  data : Addr
  deriving DecidableEq, Repr

/-- `List_t` -/
structure SingleList where
  size : Nat
  head : Addr
  deriving DecidableEq, Repr

/-- `new_list`, given what `allocate(sizeof(List_t))` answered. -/
def newList (list : Addr) (lists : Addr → SingleList) : Option (Addr → SingleList) :=
  if list = NULL then none
  else some (Function.update lists list { size := 0, head := NULL })

/-- The search for the end of the chain, `while (q->next != NULL)`. A chain of
    `n` nodes is left after fewer than `n` steps. -/
def lastNode (nodes : Addr → SingleLinkedNode) : Nat → Addr → Addr
  | 0, q => q
  | n + 1, q => if (nodes q).next = NULL then q else lastNode nodes n (nodes q).next

/-- `single_list_push`, given what `allocate(sizeof(SingleLinkedNode_t))`
    answered. -/
def singleListPush (newNode : Addr) (nodes : Addr → SingleLinkedNode) (list : SingleList)
    (data : Addr) : Option ((Addr → SingleLinkedNode) × SingleList) :=
  if newNode = NULL then none
  else
    let nodes := Function.update nodes newNode { next := NULL, data := data }
    if list.size = 0 then
      some (nodes, { size := list.size + 1, head := newNode })
    else
      let q := lastNode nodes list.size list.head
      some (Function.update nodes q { nodes q with next := newNode },
        { list with size := list.size + 1 })

/-- `single_list_pop`: the node, and the list without it. -/
def singleListPop (nodes : Addr → SingleLinkedNode) (list : SingleList) :
    Option (Addr × SingleList) :=
  if list.size = 0 then some (NULL, list)
  else if list.head = NULL then none
  else
    let requestedNode := list.head
    some (requestedNode, { size := list.size - 1, head := (nodes list.head).next })

/-- The data pointers met from `q` on, for at most `n` nodes. -/
def chainData (nodes : Addr → SingleLinkedNode) : Nat → Addr → List Addr
  | 0, _ => []
  | n + 1, q => if q = NULL then [] else (nodes q).data :: chainData nodes n (nodes q).next

/-- The data pointers of a list, from its head on. -/
def SingleList.contents (list : SingleList) (nodes : Addr → SingleLinkedNode) : List Addr :=
  chainData nodes list.size list.head

theorem singleListPush_none (newNode : Addr) (nodes : Addr → SingleLinkedNode)
    (list : SingleList) (data : Addr) :
    singleListPush newNode nodes list data = none ↔ newNode = NULL := by
  unfold singleListPush
  by_cases h : newNode = NULL
  · rw [if_pos h]
    exact iff_of_true rfl h
  · rw [if_neg h]
    by_cases hsize : list.size = 0
    · simp only [hsize, if_true, reduceCtorEq, h]
    · simp only [hsize, if_false, reduceCtorEq, h]

end NextLevelRTOS
