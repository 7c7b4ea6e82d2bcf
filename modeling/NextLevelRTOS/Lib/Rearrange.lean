import Mathlib.Data.List.Nodup
import Mathlib.Logic.Equiv.Basic

/-!
# Rearranged Arrays

An array is a function from indices. Rearranging some of its cells is composing
it with a permutation of the indices that fixes all the others, so what two
programs rearrange one after the other is rearranged by the composition, and an
exchange of two cells is the smallest case. Read off along a list of exactly
the cells concerned, the two arrays hold the same values in some order.

## Main definitions

* `Rearranged`: One array is another with some cells rearranged.

## Theorems

* `rearranged_trans`: One rearrangement after the other.
* `rearranged_exchange`: An exchange of two cells.
* `rearranged_source`: Every value comes from a cell that was rearranged.
* `rearranged_perm`: The values are the same.
-/

namespace Rearrange

universe u

variable {α : Type u} {P Q : Nat → Prop} {A B C : Nat → α}

/-- `B` is `A` with the cells in `P` rearranged. -/
def Rearranged (P : Nat → Prop) (A B : Nat → α) : Prop :=
  ∃ σ : Equiv.Perm Nat, (∀ x, ¬ P x → σ x = x) ∧ B = A ∘ σ

theorem rearranged_refl (P : Nat → Prop) (A : Nat → α) : Rearranged P A A :=
  ⟨Equiv.refl Nat, fun _ _ => rfl, rfl⟩

theorem rearranged_trans (h : Rearranged P A B) (h' : Rearranged P B C) : Rearranged P A C := by
  rcases h with ⟨σ, hσ, rfl⟩
  rcases h' with ⟨τ, hτ, rfl⟩
  refine ⟨τ.trans σ, fun x hx => ?_, rfl⟩
  rw [Equiv.trans_apply, hτ x hx, hσ x hx]

theorem rearranged_mono (h : Rearranged P A B) (hPQ : ∀ x, P x → Q x) : Rearranged Q A B := by
  rcases h with ⟨σ, hσ, rfl⟩
  exact ⟨σ, fun x hx => hσ x fun hP => hx (hPQ x hP), rfl⟩

/-- An exchange of two cells. -/
theorem rearranged_exchange {a b : Nat} (ha : P a) (hb : P b)
    (hB : ∀ x, B x = if x = b then A a else if x = a then A b else A x) :
    Rearranged P A B := by
  refine ⟨Equiv.swap b a, fun x hx => ?_, ?_⟩
  · exact Equiv.swap_apply_of_ne_of_ne (fun hc => hx (hc ▸ hb)) (fun hc => hx (hc ▸ ha))
  · funext x
    rw [hB x, Function.comp_apply, Equiv.swap_apply_def]
    split
    · rfl
    · split
      · rfl
      · rfl

-- A permutation that fixes what is not in `P` stays in `P`.
theorem perm_mem_iff {σ : Equiv.Perm Nat} (hσ : ∀ x, ¬ P x → σ x = x) (x : Nat) :
    P (σ x) ↔ P x := by
  constructor
  · intro h
    by_contra hx
    rw [hσ x hx] at h
    exact hx h
  · intro h
    by_contra hx
    have hfix : σ x = x := σ.injective (hσ (σ x) hx)
    rw [hfix] at hx
    exact hx h

/-- Every value comes from a cell that was rearranged. -/
theorem rearranged_source (h : Rearranged P A B) {x : Nat} (hx : P x) : ∃ y, P y ∧ B x = A y := by
  rcases h with ⟨σ, hσ, rfl⟩
  exact ⟨σ x, (perm_mem_iff hσ x).mpr hx, rfl⟩

/-- Along a list of the cells concerned, the values are the same. -/
theorem rearranged_perm (h : Rearranged P A B) {l : List Nat} (hnodup : l.Nodup)
    (hl : ∀ x, x ∈ l ↔ P x) : (l.map B).Perm (l.map A) := by
  rcases h with ⟨σ, hσ, rfl⟩
  rw [← List.map_map]
  refine List.Perm.map A ((List.perm_ext_iff_of_nodup (hnodup.map σ.injective) hnodup).mpr ?_)
  intro x
  rw [List.mem_map, hl]
  constructor
  · rintro ⟨y, hy, rfl⟩
    exact (perm_mem_iff hσ y).mpr ((hl y).mp hy)
  · intro hx
    -- The cell whose value moved here is concerned, too.
    refine ⟨σ.symm x, (hl _).mpr ?_, σ.apply_symm_apply x⟩
    rw [← perm_mem_iff hσ, σ.apply_symm_apply]
    exact hx

end Rearrange
