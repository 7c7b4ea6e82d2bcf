import NextLevelRTOS.Memory.Entry

/-!
# Quicksort

The sort of `data/quicksort.c`, over an array of words and any comparator.
The indices are signed as in the source: the loop of `make_partition` starts
with `i` one below the range, and the first recursive call may be given an
upper bound below its lower one.

The recursion has no bound in the source. It ends because the pivot's final
position lies in the range, so both parts are shorter than the range itself.

## Main definitions

* `swapi`: Exchange two words.
* `partitionRounds`: The loop of `make_partition`.
* `makePartition`: The pivot's position and the array it leaves.
* `quicksortR`, `quicksort`: The sort.

## Theorems

* `partitionRounds_bounds`: The loop advances `i` by one a round at most.
* `makePartition_bounds`: The pivot ends up in the range.
* `quicksort_ordered`: A range that is in order stays as it is.
* `quicksortR_frame`, `quicksortR_agree`: The sort reads and writes its range.
-/

namespace NextLevelRTOS

/-- `swapi` -/
def swapi (A : Nat → Word) (a b : Nat) : Nat → Word :=
  fun k => if k = b then A a else if k = a then A b else A k

section Sorting

variable (comparator : Word → Word → Int)

/-- What is left of the loop over `j`, with `n` rounds to go. -/
def partitionRounds (pivot : Word) : Nat → Int → Int → (Nat → Word) → Int × (Nat → Word)
  | 0, _, i, A => (i, A)
  | n + 1, j, i, A =>
    if comparator (A j.toNat) pivot = 0 ∨ comparator (A j.toNat) pivot = -1 then
      partitionRounds pivot n (j + 1) (i + 1) (swapi A (i + 1).toNat j.toNat)
    else
      partitionRounds pivot n (j + 1) i A

/-- `make_partition` -/
def makePartition (A : Nat → Word) (lo hi : Int) : Int × (Nat → Word) :=
  let r := partitionRounds comparator (A hi.toNat) (hi - lo).toNat lo (lo - 1) A
  (r.1 + 1, swapi r.2 (r.1 + 1).toNat hi.toNat)

theorem partitionRounds_bounds (pivot : Word) (n : Nat) :
    ∀ (j i : Int) (A : Nat → Word), i ≤ (partitionRounds comparator pivot n j i A).1 ∧
      (partitionRounds comparator pivot n j i A).1 ≤ i + n := by
  induction n with
  | zero =>
      intro j i A
      simp only [partitionRounds]
      omega
  | succ n ih =>
      intro j i A
      rw [partitionRounds]
      split
      · rcases ih (j + 1) (i + 1) (swapi A (i + 1).toNat j.toNat) with ⟨hlow, hhigh⟩
        omega
      · rcases ih (j + 1) i A with ⟨hlow, hhigh⟩
        omega

/-- The pivot ends up in the range. -/
theorem makePartition_bounds (A : Nat → Word) {lo hi : Int} (h : lo < hi) :
    lo ≤ (makePartition comparator A lo hi).1 ∧ (makePartition comparator A lo hi).1 ≤ hi := by
  rcases partitionRounds_bounds comparator (A hi.toNat) (hi - lo).toNat lo (lo - 1) A with
    ⟨hlow, hhigh⟩
  simp only [makePartition]
  omega

/-- `quicksortR` -/
def quicksortR (A : Nat → Word) (lo hi : Int) : Nat → Word :=
  if h : lo ≥ hi ∨ lo < 0 then A
  else
    let p := makePartition comparator A lo hi
    quicksortR (quicksortR p.2 lo (p.1 - 1)) (p.1 + 1) hi
termination_by (hi - lo + 1).toNat
decreasing_by
  all_goals
    have hlt : lo < hi := by omega
    have hbounds := makePartition_bounds comparator A hlt
    omega

theorem quicksortR_end {A : Nat → Word} {lo hi : Int} (h : lo ≥ hi ∨ lo < 0) :
    quicksortR comparator A lo hi = A := by
  rw [quicksortR, dif_pos h]

theorem quicksortR_step {A : Nat → Word} {lo hi : Int} (h : ¬ (lo ≥ hi ∨ lo < 0)) :
    quicksortR comparator A lo hi = quicksortR comparator
      (quicksortR comparator (makePartition comparator A lo hi).2 lo
        ((makePartition comparator A lo hi).1 - 1))
      ((makePartition comparator A lo hi).1 + 1) hi := by
  rw [quicksortR, dif_neg h]

/-- `quicksort` -/
def quicksort (A : Nat → Word) (lo hi : Int) : Nat → Word := quicksortR comparator A lo hi

theorem swapi_self (A : Nat → Word) (a : Nat) : swapi A a a = A := by
  funext k
  rw [swapi]
  by_cases hk : k = a
  · rw [if_pos hk, hk]
  · rw [if_neg hk, if_neg hk]

/-- The comparator puts no word of the range behind a later one. -/
def Ordered (A : Nat → Word) (lo hi : Int) : Prop :=
  ∀ i j : Int, lo ≤ i → i < j → j ≤ hi →
    comparator (A i.toNat) (A j.toNat) = 0 ∨ comparator (A i.toNat) (A j.toNat) = -1

/-- As long as every word goes to the left, `i` is one behind `j` and every word
    is exchanged with itself. -/
theorem partitionRounds_ordered {A : Nat → Word} (pivot : Word) (n : Nat) :
    ∀ j : Int, (∀ i, j ≤ i → i < j + n →
      comparator (A i.toNat) pivot = 0 ∨ comparator (A i.toNat) pivot = -1) →
      partitionRounds comparator pivot n j (j - 1) A = (j - 1 + n, A) := by
  induction n with
  | zero =>
      intro j _
      rw [partitionRounds, Int.natCast_zero, Int.add_zero]
  | succ n ih =>
      intro j h
      have hround := ih (j + 1) fun i hlow hhigh => h i (by omega) (by omega)
      rw [partitionRounds, if_pos (h j (Int.le_refl j) (by omega)), Int.sub_add_cancel, swapi_self]
      rw [Int.add_sub_cancel] at hround
      rw [hround]
      refine Prod.ext ?_ rfl
      change j + (n : Int) = j - 1 + ((n + 1 : Nat) : Int)
      omega

/-- A range that is in order stays as it is. -/
theorem quicksort_ordered {A : Nat → Word} {lo hi : Int} (h : Ordered comparator A lo hi) :
    quicksort comparator A lo hi = A := by
  unfold quicksort
  -- Induction on the length of the range: the pivot is the last word of it.
  generalize hn : (hi - lo + 1).toNat = n
  induction n generalizing hi with
  | zero => exact quicksortR_end comparator (Or.inl (by omega))
  | succ n ih =>
      by_cases hend : lo ≥ hi ∨ lo < 0
      · exact quicksortR_end comparator hend
      · rw [quicksortR_step comparator hend]
        have hlt : lo < hi := by omega
        have hrounds := partitionRounds_ordered comparator (A hi.toNat) (hi - lo).toNat lo
          fun i hlow hhigh => h i hi hlow (by omega) (Int.le_refl hi)
        have hpartition : makePartition comparator A lo hi = (hi, A) := by
          simp only [makePartition, hrounds]
          rw [show lo - 1 + ((hi - lo).toNat : Int) + 1 = hi by omega, swapi_self]
        rw [hpartition]
        change quicksortR comparator (quicksortR comparator A lo (hi - 1)) (hi + 1) hi = A
        have hsorted : quicksortR comparator A lo (hi - 1) = A :=
          ih (fun i j hlow hij hhigh => h i j hlow hij (by omega)) (by omega)
        rw [hsorted]
        exact quicksortR_end comparator (Or.inl (by omega))

/-! ### What the sort reads and writes -/

-- The exchanges stay between the boundary and the last word looked at.
theorem partitionRounds_frame (pivot : Word) (n : Nat) : ∀ (j i : Int) (A : Nat → Word) (x : Nat),
    0 ≤ i + 1 → i < j → ((x : Int) ≤ i ∨ j + n ≤ x) →
      (partitionRounds comparator pivot n j i A).2 x = A x := by
  induction n with
  | zero => exact fun j i A x _ _ _ => rfl
  | succ n ih =>
      intro j i A x hi hij hx
      rw [partitionRounds]
      split
      · rw [ih (j + 1) (i + 1) _ x (by omega) (by omega) (by omega), swapi, if_neg (by omega),
          if_neg (by omega)]
      · exact ih (j + 1) i A x hi (by omega) (by omega)

-- `make_partition` leaves what is outside the range.
theorem makePartition_frame (A : Nat → Word) {lo hi : Int} (hlo : 0 ≤ lo) (h : lo < hi) (x : Nat)
    (hx : (x : Int) < lo ∨ hi < x) : (makePartition comparator A lo hi).2 x = A x := by
  have hbounds := makePartition_bounds comparator A h
  simp only [makePartition] at hbounds ⊢
  rw [swapi, if_neg (by omega), if_neg (by omega)]
  exact partitionRounds_frame comparator _ _ _ _ _ x (by omega) (by omega) (by omega)

theorem quicksortR_frame (A : Nat → Word) (lo hi : Int) (x : Nat)
    (hx : (x : Int) < lo ∨ hi < x) : quicksortR comparator A lo hi x = A x := by
  generalize hn : (hi - lo + 1).toNat = n
  induction n using Nat.strong_induction_on generalizing A lo hi with
  | _ n ih =>
      by_cases hend : lo ≥ hi ∨ lo < 0
      · rw [quicksortR_end comparator hend]
      · rw [quicksortR_step comparator hend]
        have hbounds := makePartition_bounds comparator A (show lo < hi by omega)
        rw [ih _ (by omega) _ _ _ (by omega) rfl, ih _ (by omega) _ _ _ (by omega) rfl]
        exact makePartition_frame comparator A (by omega) (by omega) x hx

/-- In the range both arrays hold the same words, all with a property. -/
def AgreeOn (P : Word → Prop) (lo hi : Int) (A B : Nat → Word) : Prop :=
  ∀ x : Nat, lo ≤ x → (x : Int) ≤ hi → A x = B x ∧ P (A x)

section Agree

variable {P : Word → Prop} {lo hi : Int} {A B : Nat → Word}

theorem AgreeOn.swapi (h : AgreeOn P lo hi A B) {a b : Nat} (ha : lo ≤ a ∧ (a : Int) ≤ hi)
    (hb : lo ≤ b ∧ (b : Int) ≤ hi) : AgreeOn P lo hi (swapi A a b) (swapi B a b) := by
  intro x hlow hhigh
  simp only [NextLevelRTOS.swapi]
  split
  · exact h a ha.1 ha.2
  · split
    · exact h b hb.1 hb.2
    · exact h x hlow hhigh

theorem partitionRounds_agree (pivot : Word) (hlo : 0 ≤ lo) (n : Nat) :
    ∀ (j i : Int) (A B : Nat → Word), lo ≤ i + 1 → i < j → j + n ≤ hi + 1 → AgreeOn P lo hi A B →
      (partitionRounds comparator pivot n j i A).1 = (partitionRounds comparator pivot n j i B).1 ∧
        AgreeOn P lo hi (partitionRounds comparator pivot n j i A).2
          (partitionRounds comparator pivot n j i B).2 := by
  induction n with
  | zero => exact fun j i A B _ _ _ h => ⟨rfl, h⟩
  | succ n ih =>
      intro j i A B hi hij hj h
      rw [partitionRounds, partitionRounds, ← (h j.toNat (by omega) (by omega)).1]
      split
      · exact ih (j + 1) (i + 1) _ _ (by omega) (by omega) (by omega)
          (h.swapi (by omega) (by omega))
      · exact ih (j + 1) i _ _ hi (by omega) (by omega) h

theorem makePartition_agree (hlo : 0 ≤ lo) (hlt : lo < hi) (h : AgreeOn P lo hi A B) :
    (makePartition comparator A lo hi).1 = (makePartition comparator B lo hi).1 ∧
      AgreeOn P lo hi (makePartition comparator A lo hi).2
        (makePartition comparator B lo hi).2 := by
  have hbounds := makePartition_bounds comparator A hlt
  have hrounds := partitionRounds_agree comparator (A hi.toNat) hlo (hi - lo).toNat lo (lo - 1) A B
    (by omega) (by omega) (by omega) h
  simp only [makePartition] at hbounds ⊢
  rw [← (h hi.toNat (by omega) (by omega)).1, ← hrounds.1]
  exact ⟨rfl, hrounds.2.swapi (by omega) (by omega)⟩

end Agree

/-- What the sort leaves in its range depends on nothing else, and no word of it is
    new. -/
theorem quicksortR_agree {P : Word → Prop} {A B : Nat → Word} {lo hi : Int}
    (h : AgreeOn P lo hi A B) :
    AgreeOn P lo hi (quicksortR comparator A lo hi) (quicksortR comparator B lo hi) := by
  generalize hn : (hi - lo + 1).toNat = n
  induction n using Nat.strong_induction_on generalizing A B lo hi with
  | _ n ih =>
      by_cases hend : lo ≥ hi ∨ lo < 0
      · rw [quicksortR_end comparator hend, quicksortR_end comparator hend]
        exact h
      · rw [quicksortR_step comparator hend, quicksortR_step comparator hend]
        have hbounds := makePartition_bounds comparator A (show lo < hi by omega)
        rcases makePartition_agree comparator (by omega) (by omega) h with ⟨hpivot, hparts⟩
        rw [← hpivot]
        generalize (makePartition comparator A lo hi).1 = p at hbounds ⊢
        -- The first call leaves the pivot and what is behind it.
        have hfirst : AgreeOn P lo hi
            (quicksortR comparator (makePartition comparator A lo hi).2 lo (p - 1))
            (quicksortR comparator (makePartition comparator B lo hi).2 lo (p - 1)) := by
          intro x hlow hhigh
          by_cases hx : (x : Int) ≤ p - 1
          · exact ih _ (by omega) (fun y hy hyp => hparts y hy (by omega)) rfl x hlow hx
          · rw [quicksortR_frame comparator _ lo (p - 1) x (Or.inr (by omega)),
              quicksortR_frame comparator _ lo (p - 1) x (Or.inr (by omega))]
            exact hparts x hlow hhigh
        intro x hlow hhigh
        by_cases hx : p + 1 ≤ x
        · exact ih _ (by omega) (fun y hy hyp => hfirst y (by omega) hyp) rfl x hx hhigh
        · rw [quicksortR_frame comparator _ (p + 1) hi x (Or.inl (by omega)),
            quicksortR_frame comparator _ (p + 1) hi x (Or.inl (by omega))]
          exact hfirst x hlow hhigh

end Sorting

end NextLevelRTOS
