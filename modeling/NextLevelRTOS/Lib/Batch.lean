import Mathlib.Data.List.Nodup

/-!
# Lines Served as a Whole

A waiting line that takes what is offered as long as fewer than `capacity` items
wait, and that is served by taking everything that waits, in order.

What was served and what waits is always what was accepted, so nothing accepted is
lost, served twice or out of order.

## Main definitions

* `Line`: What waits, and what has been accepted and served so far.
* `Line.offer`, `Line.serve`: The two operations.
* `Line.Fair`: The invariant.

## Theorems

* `offer_fair`, `serve_fair`: The operations keep it.
* `offer_accepted_iff`: An offer is accepted exactly if there is room.
-/

namespace Batch

universe u

variable {α : Type u}

/-- A waiting line with its history. -/
structure Line (α : Type u) where
  waiting : List α
  accepted : List α
  served : List α

/-- Something is offered. -/
def Line.offer (capacity : Nat) (a : α) (q : Line α) : Line α :=
  if q.waiting.length < capacity then
    { q with waiting := q.waiting ++ [a], accepted := q.accepted ++ [a] }
  else q

/-- All that waits is served. -/
def Line.serve (q : Line α) : Line α :=
  { q with waiting := [], served := q.served ++ q.waiting }

/-- The items accepted are distinct, and each was served or waits, in order. -/
structure Line.Fair (capacity : Nat) (q : Line α) : Prop where
  balanced : q.served ++ q.waiting = q.accepted
  bounded : q.waiting.length ≤ capacity
  distinct : q.accepted.Nodup

section Fair

variable {capacity : Nat} {q : Line α} {a : α}

theorem offer_room (h : q.waiting.length < capacity) :
    q.offer capacity a = { q with
      waiting := q.waiting ++ [a]
      accepted := q.accepted ++ [a] } :=
  if_pos h

theorem offer_full (h : ¬ q.waiting.length < capacity) : q.offer capacity a = q := if_neg h

theorem offer_fair (h : q.Fair capacity) (hnew : a ∉ q.accepted) :
    (q.offer capacity a).Fair capacity := by
  by_cases hroom : q.waiting.length < capacity
  · rw [offer_room hroom]
    refine ⟨?_, ?_, ?_⟩
    · change q.served ++ (q.waiting ++ [a]) = q.accepted ++ [a]
      rw [← List.append_assoc, h.balanced]
    · change (q.waiting ++ [a]).length ≤ capacity
      rw [List.length_append, List.length_singleton]
      exact hroom
    · change (q.accepted ++ [a]).Nodup
      rw [← List.concat_eq_append]
      exact h.distinct.concat hnew
  · rw [offer_full hroom]
    exact h

theorem serve_fair (h : q.Fair capacity) : q.serve.Fair capacity :=
  ⟨(List.append_nil _).trans h.balanced, Nat.zero_le _, h.distinct⟩

/-- What is new is accepted exactly if there is room. -/
theorem offer_accepted_iff (hnew : a ∉ q.accepted) :
    a ∈ (q.offer capacity a).accepted ↔ q.waiting.length < capacity := by
  by_cases hroom : q.waiting.length < capacity
  · rw [offer_room hroom]
    exact iff_of_true (List.mem_append_right _ List.mem_cons_self) hroom
  · rw [offer_full hroom]
    exact iff_of_false hnew hroom

theorem fair_prefix (h : q.Fair capacity) : q.served <+: q.accepted := ⟨q.waiting, h.balanced⟩

theorem fair_waiting (h : q.Fair capacity) :
    q.accepted.length - q.served.length = q.waiting.length := by
  rw [← h.balanced, List.length_append, Nat.add_sub_cancel_left]

end Fair

end Batch
