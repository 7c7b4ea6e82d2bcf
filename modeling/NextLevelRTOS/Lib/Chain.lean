import Mathlib.Data.List.Nodup
import Mathlib.Logic.Relation

/-!
# Chains

Singly linked nodes that end in a null node. Only the links are given, by a
function; what the null node itself links to is never read.

That links lead to the null node at all is the whole content of `Chain`. They
are a function, so there is only one way to go, and a chain cannot visit a node
twice: it would have to go on from there in two different ways. So a chain has
no duplicates, its members are what can be reached, and no member is reached
from itself.

A chain is changed behind its last member only, by `chain_snoc`, or cut at the
front, which changes no link. Changing links elsewhere leaves it as it is.

## Main definitions

* `Chain`: The nodes that lead to the null node.
* `Link`: A node that is not null links to another.
* `Reaches`: Following links.

## Theorems

* `chain_congr`: A chain depends on the links of its members only.
* `chain_drop`: A chain from a later member.
* `chain_unique`: There is one chain from each node at most.
* `chain_nodup`: A chain does not visit a node twice.
* `reaches_iff`: What is reached from the beginning of a chain.
* `chain_acyclic`: No member of a chain is reached from itself.
* `chain_snoc`: A node behind the last member.
-/

namespace LinkedChain

universe u

variable {α : Type u}

/-- The nodes met from `a` on, where the links lead to `null`. -/
def Chain (next : α → α) (null : α) : α → List α → Prop
  | a, [] => a = null
  | a, x :: l => a = x ∧ x ≠ null ∧ Chain next null (next x) l

/-- A node that is not null links to another. -/
def Link (next : α → α) (null a b : α) : Prop := a ≠ null ∧ next a = b

/-- `b` is met when links are followed from `a`. -/
def Reaches (next : α → α) (null : α) : α → α → Prop :=
  Relation.ReflTransGen (Link next null)

variable {next next' : α → α} {null a b x : α} {l m : List α}

theorem chain_congr (h : Chain next null a l) (hnext : ∀ y ∈ l, next' y = next y) :
    Chain next' null a l := by
  induction l generalizing a with
  | nil => exact h
  | cons y l ih =>
      rcases h with ⟨ha, hy, hrest⟩
      refine ⟨ha, hy, ?_⟩
      rw [hnext y List.mem_cons_self]
      exact ih hrest fun z hz => hnext z (List.mem_cons_of_mem y hz)

theorem chain_drop (h : Chain next null a (l ++ x :: m)) : Chain next null x (x :: m) := by
  induction l generalizing a with
  | nil =>
      rcases h with ⟨rfl, hx, hrest⟩
      exact ⟨rfl, hx, hrest⟩
  | cons y l ih => exact ih h.2.2

theorem chain_ne (h : Chain next null a l) (hx : x ∈ l) : x ≠ null := by
  rcases List.append_of_mem hx with ⟨s, t, rfl⟩
  exact (chain_drop h).2.1

theorem chain_start_ne (h : Chain next null a l) (hl : l ≠ []) : a ≠ null := by
  cases l with
  | nil => exact absurd rfl hl
  | cons x l =>
      rw [h.1]
      exact h.2.1

/-- Two chains from the same node have the same members. -/
theorem chain_unique (h : Chain next null a l) (h' : Chain next null a m) : l = m := by
  induction l generalizing a m with
  | nil =>
      cases m with
      | nil => rfl
      | cons y m => exact absurd (h'.1.symm.trans h) h'.2.1
  | cons x l ih =>
      cases m with
      | nil => exact absurd (h.1.symm.trans h') h.2.1
      | cons y m =>
          obtain rfl : x = y := h.1.symm.trans h'.1
          rw [ih h.2.2 h'.2.2]

/-- A node met twice would begin two chains of different lengths. -/
theorem chain_nodup (h : Chain next null a l) : l.Nodup := by
  induction l generalizing a with
  | nil => exact List.nodup_nil
  | cons x l ih =>
      refine List.nodup_cons.mpr ⟨fun hx => ?_, ih h.2.2⟩
      rcases List.append_of_mem hx with ⟨s, t, hl⟩
      have hfront : Chain next null x (x :: l) := ⟨rfl, h.2⟩
      have hback : Chain next null x (x :: t) := by
        have hrest := h.2.2
        rw [hl] at hrest
        exact chain_drop hrest
      have hlength := congrArg List.length (chain_unique hfront hback)
      rw [hl] at hlength
      simp only [List.length_cons, List.length_append] at hlength
      omega

theorem reaches_of_mem (h : Chain next null a l) (hx : x ∈ l) : Reaches next null a x := by
  induction l generalizing a with
  | nil => exact absurd hx List.not_mem_nil
  | cons y l ih =>
      rcases h with ⟨rfl, ha, hrest⟩
      rcases List.mem_cons.mp hx with rfl | hx
      · exact Relation.ReflTransGen.refl
      · exact Relation.ReflTransGen.head ⟨ha, rfl⟩ (ih hrest hx)

theorem reaches_null (h : Chain next null a l) : Reaches next null a null := by
  induction l generalizing a with
  | nil =>
      rw [show a = null from h]
      exact Relation.ReflTransGen.refl
  | cons y l ih =>
      rcases h with ⟨rfl, ha, hrest⟩
      exact Relation.ReflTransGen.head ⟨ha, rfl⟩ (ih hrest)

-- The other direction follows the links: the chain from the next node is the tail.
theorem mem_of_reaches (h : Chain next null a l) (hreaches : Reaches next null a b) :
    b ∈ l ∨ b = null := by
  induction hreaches using Relation.ReflTransGen.head_induction_on generalizing l with
  | refl =>
      cases l with
      | nil => exact Or.inr h
      | cons y l =>
          rw [h.1]
          exact Or.inl List.mem_cons_self
  | head hlink _ ih =>
      cases l with
      | nil => exact absurd h hlink.1
      | cons y l =>
          rcases h with ⟨rfl, _, hrest⟩
          rw [hlink.2] at hrest
          exact (ih hrest).imp_left (List.mem_cons_of_mem _)

/-- The nodes met from the beginning of a chain are its members. -/
theorem reaches_iff (h : Chain next null a l) (hb : b ≠ null) :
    Reaches next null a b ↔ b ∈ l :=
  ⟨fun hreaches => (mem_of_reaches h hreaches).resolve_right hb, reaches_of_mem h⟩

/-- Going round would lead to a member that has been left behind. -/
theorem chain_acyclic (h : Chain next null a l) (hx : x ∈ l) :
    ¬ Relation.TransGen (Link next null) x x := by
  intro hcycle
  rcases List.append_of_mem hx with ⟨s, t, rfl⟩
  have hfront := chain_drop h
  rcases Relation.TransGen.head'_iff.mp hcycle with ⟨y, hlink, hback⟩
  have hrest := hfront.2.2
  rw [hlink.2] at hrest
  have hmem := (mem_of_reaches hrest hback).resolve_right hlink.1
  exact (List.nodup_cons.mp (chain_nodup hfront)).1 hmem

/-- The links end at the last member. -/
theorem chain_last (h : Chain next null a (l ++ [x])) : next x = null :=
  (chain_drop h).2.2

/-- A node behind the last member. -/
theorem chain_snoc {n : α} (h : Chain next null a (l ++ [x])) (hl : ∀ y ∈ l, next' y = next y)
    (hx : next' x = n) (hn : n ≠ null) (hend : next' n = null) :
    Chain next' null a (l ++ [x] ++ [n]) := by
  induction l generalizing a with
  | nil =>
      refine ⟨h.1, h.2.1, ?_⟩
      rw [hx]
      exact ⟨rfl, hn, hend⟩
  | cons y l ih =>
      rcases h with ⟨ha, hy, hrest⟩
      refine ⟨ha, hy, ?_⟩
      rw [hl y List.mem_cons_self]
      exact ih hrest fun z hz => hl z (List.mem_cons_of_mem y hz)

end LinkedChain
