import NextLevelRTOS.Data.Quicksort
import NextLevelRTOS.Lib.Rearrange

/-!
# What the Sort Achieves

For any comparator that is a total preorder with the values -1, 0 and 1, the
sort leaves the words of its range in order, in the range, and all of them.

The loop of `make_partition` keeps the words looked at so far in two groups:
up to `i` those that do not belong behind the pivot, and from there on those
that do. The exchange at the end puts the pivot between the two. Each group is
then sorted by itself, and since sorting only rearranges it, its words stay on
their side of the pivot.

The indices are followed with their signs, as an index one below the range is
computed and must not be used.

## Main definitions

* `TotalPreorder`: A comparator that compares.
* `intComparator`: The comparator of `data/quicksort.c`.
* `quicksortRAccesses`: The indices that the sort reads and writes.
* `Sorts`: What a sort is for.
* `ComparesBy`: A comparator that compares keys.

## Theorems

* `makePartition_parts`: The pivot stands between the two groups.
* `quicksortR_rearranged`: The sort rearranges its range.
* `quicksortR_ordered`: The sort leaves the range in order.
* `quicksortRAccesses_inside`: The sort looks at nothing but its range.
* `quicksort_sorts`: The sort does what it is for.
* `ComparesBy.ascend`, `ComparesBy.stays`: Sorting by a key.
-/

namespace NextLevelRTOS

open Rearrange

/-- A comparator with three values, one of which says which word goes first. -/
structure TotalPreorder (comparator : Word → Word → Int) : Prop where
  range : ∀ a b, comparator a b = -1 ∨ comparator a b = 0 ∨ comparator a b = 1
  antisymm : ∀ a b, comparator b a = -comparator a b
  trans : ∀ a b c, comparator a b ≤ 0 → comparator b c ≤ 0 → comparator a c ≤ 0

/-- `int_comparator` -/
def intComparator (a b : Word) : Int :=
  if a.toInt > b.toInt then 1 else if a.toInt < b.toInt then -1 else 0

section Accesses

variable (comparator : Word → Word → Int)

/-- The indices of what is left of the loop over `j`, with `n` rounds to go. -/
def partitionAccesses (pivot : Word) : Nat → Int → Int → (Nat → Word) → List Int
  | 0, _, _, _ => []
  | n + 1, j, i, A =>
    if comparator (A j.toNat) pivot = 0 ∨ comparator (A j.toNat) pivot = -1 then
      j :: (i + 1) :: partitionAccesses pivot n (j + 1) (i + 1) (swapi A (i + 1).toNat j.toNat)
    else
      j :: partitionAccesses pivot n (j + 1) i A

/-- The indices of `make_partition`. -/
def makePartitionAccesses (A : Nat → Word) (lo hi : Int) : List Int :=
  hi :: partitionAccesses comparator (A hi.toNat) (hi - lo).toNat lo (lo - 1) A ++
    [(makePartition comparator A lo hi).1, hi]

/-- The indices of `quicksortR`. -/
def quicksortRAccesses (A : Nat → Word) (lo hi : Int) : List Int :=
  if _h : lo ≥ hi ∨ lo < 0 then []
  else
    let p := makePartition comparator A lo hi
    makePartitionAccesses comparator A lo hi ++ quicksortRAccesses p.2 lo (p.1 - 1) ++
      quicksortRAccesses (quicksortR comparator p.2 lo (p.1 - 1)) (p.1 + 1) hi
termination_by (hi - lo + 1).toNat
decreasing_by
  all_goals
    have hlt : lo < hi := by omega
    have hbounds := makePartition_bounds comparator A hlt
    omega

/-- The indices of `quicksort`. -/
def quicksortAccesses (A : Nat → Word) (lo hi : Int) : List Int :=
  quicksortRAccesses comparator A lo hi

end Accesses

/-- The range `lo..hi` of an array. -/
def indices (lo hi : Int) : List Nat := List.range' lo.toNat (hi - lo + 1).toNat

/-- `B` is what a sort of `A` between `lo` and `hi` is for, and the sort looks at
    nothing else. -/
structure Sorts (comparator : Word → Word → Int) (A : Nat → Word) (lo hi : Int)
    (B : Nat → Word) : Prop where
  permutes : ((indices lo hi).map B).Perm ((indices lo hi).map A)
  outside : ∀ x : Nat, (x : Int) < lo ∨ hi < x → B x = A x
  inside : ∀ x ∈ quicksortAccesses comparator A lo hi, lo ≤ x ∧ x ≤ hi
  ordered : ∀ i, lo ≤ i → i < hi → comparator (B i.toNat) (B (i + 1).toNat) ≠ 1

section Sorting

variable (comparator : Word → Word → Int)

/-- An index of the range. -/
def Within (lo hi : Int) (x : Nat) : Prop := lo ≤ x ∧ (x : Int) ≤ hi

theorem mem_indices {lo hi : Int} (hlo : 0 ≤ lo) (x : Nat) :
    x ∈ indices lo hi ↔ Within lo hi x := by
  rw [indices, List.mem_range'_1, Within]
  omega

/-! ### The loop -/

theorem swapi_rearranged {lo hi : Int} (A : Nat → Word) {a b : Nat} (ha : Within lo hi a)
    (hb : Within lo hi b) : Rearranged (Within lo hi) A (swapi A a b) :=
  rearranged_exchange ha hb fun _ => rfl

theorem partitionRounds_rearranged (pivot : Word) {lo : Int} (hi : Int) (hlo : 0 ≤ lo) (n : Nat) :
    ∀ (j i : Int) (A : Nat → Word), lo ≤ i + 1 → i < j → j + n ≤ hi + 1 →
      Rearranged (Within lo hi) A (partitionRounds comparator pivot n j i A).2 := by
  induction n with
  | zero => exact fun j i A _ _ _ => rearranged_refl _ A
  | succ n ih =>
      intro j i A hi' hij hj
      rw [partitionRounds]
      split
      · refine rearranged_trans (swapi_rearranged A ?_ ?_)
          (ih (j + 1) (i + 1) _ (by omega) (by omega) (by omega))
        · exact ⟨by omega, by omega⟩
        · exact ⟨by omega, by omega⟩
      · exact ih (j + 1) i A hi' (by omega) (by omega)

theorem makePartition_rearranged (A : Nat → Word) {lo hi : Int} (hlo : 0 ≤ lo) (h : lo < hi) :
    Rearranged (Within lo hi) A (makePartition comparator A lo hi).2 := by
  have hbounds := makePartition_bounds comparator A h
  have hrounds := partitionRounds_rearranged comparator (A hi.toNat) hi hlo
    (hi - lo).toNat lo (lo - 1) A (by omega) (by omega) (by omega)
  simp only [makePartition] at hbounds ⊢
  refine rearranged_trans hrounds (swapi_rearranged _ ?_ ?_)
  · exact ⟨by omega, by omega⟩
  · exact ⟨by omega, by omega⟩

/-- The words looked at so far: up to `i` those that stay before the pivot, and
    from there up to `j` those that go behind it. -/
structure Parted (pivot : Word) (lo i j : Int) (A : Nat → Word) : Prop where
  left : ∀ x, lo ≤ x → x ≤ i → comparator (A x.toNat) pivot = 0 ∨ comparator (A x.toNat) pivot = -1
  right : ∀ x, i < x → x < j →
    ¬ (comparator (A x.toNat) pivot = 0 ∨ comparator (A x.toNat) pivot = -1)

theorem partitionRounds_parted (pivot : Word) {lo : Int} (hlo : 0 ≤ lo) (n : Nat) :
    ∀ (j i : Int) (A : Nat → Word), lo ≤ i + 1 → i < j → Parted comparator pivot lo i j A →
      Parted comparator pivot lo (partitionRounds comparator pivot n j i A).1 (j + n)
        (partitionRounds comparator pivot n j i A).2 := by
  induction n with
  | zero =>
      intro j i A _ _ h
      rw [Int.natCast_zero, Int.add_zero]
      exact h
  | succ n ih =>
      intro j i A hi hij h
      -- The induction is on the rounds left; `j` counts up as they go down.
      have hround : j + 1 + (n : Int) = j + ((n + 1 : Nat) : Int) := by omega
      rw [partitionRounds, ← hround]
      split
      · rename_i hleft
        refine ih (j + 1) (i + 1) _ (by omega) (by omega) ⟨fun x hlow hhigh => ?_,
          fun x hlow hhigh => ?_⟩
        · -- The word at `j` comes to the end of the left group.
          rw [swapi]
          by_cases hx : x = i + 1
          · rw [hx]
            by_cases hj : (i + 1).toNat = j.toNat
            · rw [if_pos hj, hj]
              exact hleft
            · rw [if_neg hj, if_pos rfl]
              exact hleft
          · rw [if_neg (by omega), if_neg (by omega)]
            exact h.left x hlow (by omega)
        · -- The first word of the right group becomes its last.
          rw [swapi]
          by_cases hx : x = j
          · rw [hx, if_pos rfl]
            exact h.right (i + 1) (by omega) (by omega)
          · rw [if_neg (by omega), if_neg (by omega)]
            exact h.right x (by omega) (by omega)
      · rename_i hright
        refine ih (j + 1) i A hi (by omega) ⟨h.left, fun x hlow hhigh => ?_⟩
        -- The right group grows by the word at `j`.
        by_cases hx : x = j
        · rw [hx]
          exact hright
        · exact h.right x hlow (by omega)

/-- The pivot stands between the two groups. -/
theorem makePartition_parts (A : Nat → Word) {lo hi : Int} (hlo : 0 ≤ lo) (h : lo < hi) :
    let p := makePartition comparator A lo hi
    p.2 p.1.toNat = A hi.toNat ∧
      (∀ x, lo ≤ x → x < p.1 →
        comparator (p.2 x.toNat) (A hi.toNat) = 0 ∨ comparator (p.2 x.toNat) (A hi.toNat) = -1) ∧
      ∀ x, p.1 < x → x ≤ hi →
        ¬ (comparator (p.2 x.toNat) (A hi.toNat) = 0 ∨
          comparator (p.2 x.toNat) (A hi.toNat) = -1) := by
  have hbounds := makePartition_bounds comparator A h
  have hparted := partitionRounds_parted comparator (A hi.toNat) hlo (hi - lo).toNat lo (lo - 1) A
    (by omega) (by omega) ⟨fun x hlow hhigh => absurd hlow (by omega),
      fun x hlow hhigh => absurd hlow (by omega)⟩
  -- The rounds do not touch the pivot, which stands behind the range.
  have hlast := partitionRounds_frame comparator (A hi.toNat) (hi - lo).toNat lo (lo - 1) A
    hi.toNat (by omega) (by omega) (by omega)
  rw [show lo + ((hi - lo).toNat : Int) = hi by omega] at hparted
  simp only [makePartition] at hbounds ⊢
  generalize partitionRounds comparator (A hi.toNat) (hi - lo).toNat lo (lo - 1) A = r at *
  -- Last the pivot changes places with the first word of the right group.
  refine ⟨?_, fun x hlow hhigh => ?_, fun x hlow hhigh => ?_⟩
  · rw [swapi]
    by_cases hend : (r.1 + 1).toNat = hi.toNat
    · rw [if_pos hend, hend, hlast]
    · rw [if_neg hend, if_pos rfl, hlast]
  · rw [swapi, if_neg (by omega), if_neg (by omega)]
    exact hparted.left x hlow (by omega)
  · rw [swapi]
    by_cases hx : x = hi
    · rw [hx, if_pos rfl]
      exact hparted.right (r.1 + 1) (by omega) (by omega)
    · rw [if_neg (by omega), if_neg (by omega)]
      exact hparted.right x (by omega) (by omega)

/-! ### The recursion -/

/-- The sort rearranges its range. -/
theorem quicksortR_rearranged (A : Nat → Word) (lo hi : Int) :
    Rearranged (Within lo hi) A (quicksortR comparator A lo hi) := by
  generalize hn : (hi - lo + 1).toNat = n
  induction n using Nat.strong_induction_on generalizing A lo hi with
  | _ n ih =>
      by_cases hend : lo ≥ hi ∨ lo < 0
      · rw [quicksortR_end comparator hend]
        exact rearranged_refl _ A
      · rw [quicksortR_step comparator hend]
        have hbounds := makePartition_bounds comparator A (show lo < hi by omega)
        have hpartition := makePartition_rearranged comparator A (show 0 ≤ lo by omega)
          (show lo < hi by omega)
        generalize makePartition comparator A lo hi = p at hbounds hpartition ⊢
        have hfirst : Rearranged (Within lo hi) p.2 (quicksortR comparator p.2 lo (p.1 - 1)) :=
          rearranged_mono (ih _ (by omega) _ _ _ rfl) fun x hx => ⟨hx.1, by have := hx.2; omega⟩
        have hsecond : Rearranged (Within lo hi) (quicksortR comparator p.2 lo (p.1 - 1))
            (quicksortR comparator (quicksortR comparator p.2 lo (p.1 - 1)) (p.1 + 1) hi) :=
          rearranged_mono (ih _ (by omega) _ _ _ rfl) fun x hx => ⟨by have := hx.1; omega, hx.2⟩
        exact rearranged_trans hpartition (rearranged_trans hfirst hsecond)

/-- `make_partition` reads and writes inside the range it was given. -/
theorem partitionAccesses_inside (pivot : Word) {lo hi : Int} (n : Nat) :
    ∀ (j i : Int) (A : Nat → Word), lo ≤ i + 1 → i < j → j + n ≤ hi + 1 →
      ∀ x ∈ partitionAccesses comparator pivot n j i A, lo ≤ x ∧ x ≤ hi := by
  induction n with
  | zero => exact fun j i A _ _ _ x hx => absurd hx List.not_mem_nil
  | succ n ih =>
      intro j i A hi hij hj x hx
      rw [partitionAccesses] at hx
      split at hx
      · rcases List.mem_cons.mp hx with rfl | hx
        · exact ⟨by omega, by omega⟩
        · rcases List.mem_cons.mp hx with rfl | hx
          · exact ⟨by omega, by omega⟩
          · exact ih (j + 1) (i + 1) _ (by omega) (by omega) (by omega) x hx
      · rcases List.mem_cons.mp hx with rfl | hx
        · exact ⟨by omega, by omega⟩
        · exact ih (j + 1) i A hi (by omega) (by omega) x hx

theorem makePartitionAccesses_inside (A : Nat → Word) {lo hi : Int} (h : lo < hi) :
    ∀ x ∈ makePartitionAccesses comparator A lo hi, lo ≤ x ∧ x ≤ hi := by
  intro x hx
  have hbounds := makePartition_bounds comparator A h
  rcases List.mem_append.mp hx with hx | hx
  · rcases List.mem_cons.mp hx with rfl | hx
    · exact ⟨by omega, Int.le_refl _⟩
    · exact partitionAccesses_inside comparator (A hi.toNat) (hi - lo).toNat lo (lo - 1) A
        (by omega) (by omega) (by omega) x hx
  · simp only [List.mem_cons, List.not_mem_nil, or_false] at hx
    rcases hx with rfl | rfl
    · exact hbounds
    · exact ⟨by omega, Int.le_refl _⟩

theorem quicksortRAccesses_inside (A : Nat → Word) (lo hi : Int) :
    ∀ x ∈ quicksortRAccesses comparator A lo hi, lo ≤ x ∧ x ≤ hi := by
  generalize hn : (hi - lo + 1).toNat = n
  induction n using Nat.strong_induction_on generalizing A lo hi with
  | _ n ih =>
      intro x hx
      rw [quicksortRAccesses] at hx
      by_cases hend : lo ≥ hi ∨ lo < 0
      · rw [dif_pos hend] at hx
        exact absurd hx List.not_mem_nil
      · rw [dif_neg hend] at hx
        have hbounds := makePartition_bounds comparator A (show lo < hi by omega)
        rcases List.mem_append.mp hx with hx | hx
        · rcases List.mem_append.mp hx with hx | hx
          · exact makePartitionAccesses_inside comparator A (by omega) x hx
          · have hfirst := ih _ (by omega) _ lo _ rfl x hx
            exact ⟨hfirst.1, by omega⟩
        · have hsecond := ih _ (by omega) _ _ hi rfl x hx
          exact ⟨by omega, hsecond.2⟩

variable {comparator}

/-- What is not behind the pivot and what is are in order. -/
theorem TotalPreorder.across (h : TotalPreorder comparator) {a b pivot : Word}
    (ha : comparator a pivot = 0 ∨ comparator a pivot = -1)
    (hb : ¬ (comparator b pivot = 0 ∨ comparator b pivot = -1)) :
    comparator a b = 0 ∨ comparator a b = -1 := by
  have hback := h.antisymm b pivot
  have hle := h.trans a pivot b (by omega) (by have := h.range b pivot; omega)
  rcases h.range a b with hab | hab | hab
  · exact Or.inr hab
  · exact Or.inl hab
  · omega

theorem TotalPreorder.behind (h : TotalPreorder comparator) {b pivot : Word}
    (hb : ¬ (comparator b pivot = 0 ∨ comparator b pivot = -1)) :
    comparator pivot b = 0 ∨ comparator pivot b = -1 := by
  have hback := h.antisymm b pivot
  rcases h.range b pivot with hc | hc | hc <;> omega

/-- The sort leaves its range in order. -/
theorem quicksortR_ordered (h : TotalPreorder comparator) (A : Nat → Word) {lo : Int}
    (hlo : 0 ≤ lo) (hi : Int) : Ordered comparator (quicksortR comparator A lo hi) lo hi := by
  generalize hn : (hi - lo + 1).toNat = n
  induction n using Nat.strong_induction_on generalizing A lo hi with
  | _ n ih =>
      by_cases hend : lo ≥ hi ∨ lo < 0
      · exact fun i j hlow hij hhigh => absurd hend (by omega)
      · have hlt : lo < hi := by omega
        have hbounds := makePartition_bounds comparator A hlt
        have hparts := makePartition_parts comparator A hlo hlt
        rw [quicksortR_step comparator hend]
        generalize makePartition comparator A lo hi = p at hbounds hparts ⊢
        rcases hparts with ⟨hpivot, hleft, hright⟩
        -- What the two calls leave: each sorts its part and leaves the rest.
        set B := quicksortR comparator p.2 lo (p.1 - 1) with hB
        set C := quicksortR comparator B (p.1 + 1) hi with hC
        have hCB : ∀ x : Int, 0 ≤ x → x ≤ p.1 → C x.toNat = B x.toNat := fun x hx hxp =>
          quicksortR_frame comparator B (p.1 + 1) hi x.toNat (Or.inl (by omega))
        have hCpivot : C p.1.toNat = A hi.toNat := by
          rw [hCB p.1 (by omega) (Int.le_refl _), hB,
            quicksortR_frame comparator p.2 lo (p.1 - 1) p.1.toNat (Or.inr (by omega)), hpivot]
        have hCleft : ∀ x, lo ≤ x → x < p.1 → comparator (C x.toNat) (A hi.toNat) = 0 ∨
            comparator (C x.toNat) (A hi.toNat) = -1 := fun x hlow hx => by
          rcases rearranged_source (quicksortR_rearranged comparator p.2 lo (p.1 - 1))
            (show Within lo (p.1 - 1) x.toNat from ⟨by omega, by omega⟩) with ⟨y, hy, hxy⟩
          have hyp := hleft y hy.1 (by have := hy.2; omega)
          rw [hCB x (by omega) (by omega), hB, hxy]
          exact hyp
        have hCright : ∀ x, p.1 < x → x ≤ hi → ¬ (comparator (C x.toNat) (A hi.toNat) = 0 ∨
            comparator (C x.toNat) (A hi.toNat) = -1) := fun x hx hhigh => by
          rcases rearranged_source (quicksortR_rearranged comparator B (p.1 + 1) hi)
            (show Within (p.1 + 1) hi x.toNat from ⟨by omega, by omega⟩) with ⟨y, hy, hxy⟩
          have hylow := hy.1
          have hyp := hright y (by omega) hy.2
          rw [hC, hxy, hB, quicksortR_frame comparator p.2 lo (p.1 - 1) y (Or.inr (by omega))]
          exact hyp
        intro i j hlow hij hhigh
        by_cases hjp : j < p.1
        · have hsorted := ih _ (by omega) p.2 hlo (p.1 - 1) rfl i j hlow hij (by omega)
          rw [hCB i (by omega) (by omega), hCB j (by omega) (by omega)]
          exact hsorted
        · by_cases hip : p.1 < i
          · exact ih _ (by omega) B (by omega) hi rfl i j (by omega) hij hhigh
          · -- One of the two is the pivot, or they are on its two sides.
            by_cases hj : j = p.1
            · rw [hj, hCpivot]
              exact hCleft i hlow (by omega)
            · by_cases hi' : i = p.1
              · rw [hi', hCpivot]
                exact h.behind (hCright j (by omega) hhigh)
              · exact h.across (hCleft i hlow (by omega)) (hCright j (by omega) hhigh)

/-- What is in the range afterwards is what was there before. -/
theorem quicksort_permutes (A : Nat → Word) {lo : Int} (hlo : 0 ≤ lo) (hi : Int) :
    ((indices lo hi).map (quicksort comparator A lo hi)).Perm ((indices lo hi).map A) :=
  rearranged_perm (quicksortR_rearranged comparator A lo hi) List.nodup_range' (mem_indices hlo)

/-- The sort does what it is for. -/
theorem quicksort_sorts (h : TotalPreorder comparator) (A : Nat → Word) {lo : Int}
    (hlo : 0 ≤ lo) (hi : Int) : Sorts comparator A lo hi (quicksort comparator A lo hi) where
  permutes := quicksort_permutes A hlo hi
  outside := quicksortR_frame comparator A lo hi
  inside := quicksortRAccesses_inside comparator A lo hi
  ordered i hlow hhigh := by
    rcases quicksortR_ordered h A hlo hi i (i + 1) hlow (by omega) (by omega) with hc | hc
    · exact fun hone => absurd (hc.symm.trans hone) (by decide)
    · exact fun hone => absurd (hc.symm.trans hone) (by decide)

end Sorting

/-! ### Comparing by a key -/

/-- The comparator compares what `key` makes of the words. -/
def ComparesBy (comparator : Word → Word → Int) (key : Word → Int) : Prop :=
  ∀ a b, comparator a b = if key a > key b then 1 else if key a < key b then -1 else 0

section Keys

variable {comparator : Word → Word → Int} {key : Word → Int}

theorem ComparesBy.total (h : ComparesBy comparator key) : TotalPreorder comparator where
  range a b := by
    rw [h a b]
    split_ifs <;> omega
  antisymm a b := by
    rw [h a b, h b a]
    split_ifs <;> omega
  trans a b c := by
    rw [h a b, h b c, h a c]
    split_ifs <;> omega

theorem ComparesBy.le_iff (h : ComparesBy comparator key) (a b : Word) :
    (comparator a b = 0 ∨ comparator a b = -1) ↔ key a ≤ key b := by
  rw [h a b]
  by_cases hgt : key a > key b
  · rw [if_pos hgt]
    exact iff_of_false (by decide) (by omega)
  · rw [if_neg hgt]
    refine iff_of_true ?_ (by omega)
    split_ifs <;> decide

/-- The first `n` words come in the order of their keys. -/
def KeysAscend (key : Word → Int) (A : Nat → Word) (n : Nat) : Prop :=
  ∀ i, i + 1 < n → key (A i) ≤ key (A (i + 1))

-- From neighbours to any two.
theorem KeysAscend.le {A : Nat → Word} {n : Nat} (h : KeysAscend key A n) {i j : Nat}
    (hij : i ≤ j) (hj : j < n) : key (A i) ≤ key (A j) := by
  induction j, hij using Nat.le_induction with
  | base => exact Int.le_refl _
  | succ j _ ih => exact Int.le_trans (ih (by omega)) (h j hj)

/-- The sort puts the first `n` words in the order of their keys. -/
theorem ComparesBy.ascend (h : ComparesBy comparator key) (A : Nat → Word) (n : Nat) :
    KeysAscend key (quicksort comparator A 0 ((n : Int) - 1)) n := by
  intro i hi
  have hordered := quicksortR_ordered h.total A (Int.le_refl 0) ((n : Int) - 1) i (i + 1)
    (by omega) (by omega) (by omega)
  exact (h.le_iff _ _).mp hordered

/-- What is in this order is left in place. -/
theorem ComparesBy.stays (h : ComparesBy comparator key) {A : Nat → Word} {n : Nat}
    (hA : KeysAscend key A n) : quicksort comparator A 0 ((n : Int) - 1) = A := by
  refine quicksort_ordered comparator fun i j hlow hij hhigh => (h.le_iff _ _).mpr ?_
  exact hA.le (by omega) (by omega)

end Keys

theorem intComparator_key : ComparesBy intComparator BitVec.toInt := fun _ _ => rfl

/-- Seven words, some of them twice. -/
theorem quicksort_sorts_sevenWords :
    let A := fun x => BitVec.ofNat 32 (x * x % 7)
    Sorts intComparator A 0 6 (quicksort intComparator A 0 6) :=
  quicksort_sorts intComparator_key.total _ (by decide) 6

end NextLevelRTOS
