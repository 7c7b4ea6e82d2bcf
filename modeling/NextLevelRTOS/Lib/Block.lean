import Mathlib.Tactic.Common

/-!
# Blocks of Memory

Memory as a function from word addresses, and blocks of `n` consecutive words
that are stored and loaded at once, the way a processor saves registers to a
stack. Addresses are integers: a stack pointer may be moved below anything
without leaving the type, and arithmetic on addresses is linear.

Everything here is a frame fact. A block that was stored is read back, and a
store is invisible to whoever reads elsewhere.

## Main definitions

* `store`: A block is stored.
* `load`: A block is loaded.

## Theorems

* `load_store`: A block that was stored is read back.
* `store_outside`: Words outside the block keep their value.
* `load_store_apart`: A block apart from the one stored is unchanged.
* `load_congr`: A load depends on the words of the block only.
-/

namespace Block

universe u

variable {α : Type u} {n : Nat}

/-- The block `b` is stored at `base`. -/
def store (mem : Int → α) (base : Int) (b : Fin n → α) : Int → α := fun a =>
  if h : base ≤ a ∧ a < base + n then b ⟨(a - base).toNat, by omega⟩ else mem a

/-- The block of `n` words at `base`. -/
def load (n : Nat) (mem : Int → α) (base : Int) : Fin n → α := fun i => mem (base + i.val)

/-- A block that was stored is read back. -/
theorem load_store (mem : Int → α) (base : Int) (b : Fin n → α) :
    load n (store mem base b) base = b := by
  funext i
  have hi := i.isLt
  have hin : base ≤ base + (i.val : Int) ∧ base + (i.val : Int) < base + n := by omega
  rw [load, store, dif_pos hin]
  congr 1
  exact Fin.ext (by simp only; omega)

/-- Words outside the block keep their value. -/
theorem store_outside (mem : Int → α) {base a : Int} (b : Fin n → α)
    (h : a < base ∨ base + n ≤ a) : store mem base b a = mem a :=
  dif_neg (by omega)

theorem load_congr {mem mem' : Int → α} {base : Int}
    (h : ∀ i : Fin n, mem' (base + i.val) = mem (base + i.val)) :
    load n mem' base = load n mem base :=
  funext h

/-- A block apart from the one stored is unchanged. -/
theorem load_store_apart {m : Nat} (mem : Int → α) {base base' : Int} (b : Fin n → α)
    (h : base' + m ≤ base ∨ base + n ≤ base') :
    load m (store mem base b) base' = load m mem base' :=
  load_congr fun i => store_outside mem b (by have hi := i.isLt; omega)

end Block
