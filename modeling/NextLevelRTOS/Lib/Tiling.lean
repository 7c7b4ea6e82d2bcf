import Mathlib.Algebra.BigOperators.Intervals
import Mathlib.Algebra.BigOperators.Ring.Finset
import Mathlib.Algebra.Order.BigOperators.Group.Finset

/-!
# Tilings

Segments laid end to end from zero on. Segment `i` has length `len i` and
starts where the one before it ends, so its start is a partial sum, and
everything about a tiling is a fact about partial sums of lengths: the starts
increase, two different segments do not overlap, and a common divisor of the
lengths divides every start.

## Main definitions

* `start`: Where a segment begins.

## Theorems

* `start_succ`: A segment begins where the one before it ends.
* `start_congr`: The start depends on the segments before only.
* `start_add`: A tiling goes on behind a segment as it would from zero.
* `start_merge`: Merging segments leaves the starts behind them.
* `start_eq_of_empty`: Empty segments take no room.
* `segments_apart`: A later segment begins after an earlier one ends.
* `segments_disjoint`: Two segments do not overlap.
* `start_injective`: Segments that are not empty start at different places.
* `start_dvd`: A common divisor of the lengths divides the start.
-/

namespace Tiling

/-- Where segment `i` begins. -/
def start (len : ℕ → ℕ) (i : ℕ) : ℕ := ∑ j ∈ Finset.range i, len j

theorem start_zero (len : ℕ → ℕ) : start len 0 = 0 := Finset.sum_range_zero len

theorem start_succ (len : ℕ → ℕ) (i : ℕ) : start len (i + 1) = start len i + len i :=
  Finset.sum_range_succ len i

theorem start_congr {len len' : ℕ → ℕ} {i : ℕ} (h : ∀ j < i, len j = len' j) :
    start len i = start len' i :=
  Finset.sum_congr rfl fun j hj => h j (Finset.mem_range.mp hj)

/-- From segment `i` on, a tiling is another tiling, moved. -/
theorem start_add (len : ℕ → ℕ) (i n : ℕ) :
    start len (i + n) = start len i + start (fun j => len (i + j)) n :=
  Finset.sum_range_add len i n

/-- Segment `b` takes the room of itself and the `d` segments behind it, and the
    others close up. They start where they did. -/
theorem start_merge {len len' : ℕ → ℕ} {b d n : ℕ} (hbefore : ∀ i < b, len' i = len i)
    (hat : start len b + len' b = start len (b + 1 + d))
    (hafter : ∀ i, b < i → i < n → len' i = len (i + d)) {i : ℕ} (hb : b < i) (hn : i ≤ n) :
    start len' i = start len (i + d) := by
  induction i, hb using Nat.le_induction with
  | base => rw [start_succ, start_congr hbefore, hat]
  | succ i hi ih =>
      rw [start_succ, ih (Nat.le_of_succ_le hn), hafter i hi hn, Nat.add_right_comm, start_succ]

theorem start_mono (len : ℕ → ℕ) {i j : ℕ} (h : i ≤ j) : start len i ≤ start len j :=
  Finset.sum_le_sum_of_subset (Finset.range_subset_range.mpr h)

theorem start_eq_of_empty {len : ℕ → ℕ} {i j : ℕ} (h : i ≤ j)
    (hempty : ∀ m, i ≤ m → m < j → len m = 0) : start len j = start len i := by
  induction j, h using Nat.le_induction with
  | base => rfl
  | succ j hij ih =>
      rw [start_succ, hempty j hij (Nat.lt_succ_self j), Nat.add_zero]
      exact ih fun m hm hlt => hempty m hm (Nat.lt_succ_of_lt hlt)

/-- A later segment begins after an earlier one ends. -/
theorem segments_apart (len : ℕ → ℕ) {i j : ℕ} (h : i < j) :
    start len i + len i ≤ start len j := by
  rw [← start_succ]
  exact start_mono len h

theorem segments_disjoint (len : ℕ → ℕ) {i j : ℕ} (h : i ≠ j) :
    start len i + len i ≤ start len j ∨ start len j + len j ≤ start len i := by
  rcases Nat.lt_or_gt_of_ne h with hij | hji
  · exact Or.inl (segments_apart len hij)
  · exact Or.inr (segments_apart len hji)

theorem start_injective {len : ℕ → ℕ} {k i j : ℕ} (hpos : ∀ m < k, 0 < len m) (hi : i < k)
    (hj : j < k) (h : start len i = start len j) : i = j := by
  -- Were they different, one of them would end where it starts.
  by_contra hne
  have hposi := hpos i hi
  have hposj := hpos j hj
  rcases segments_disjoint len hne with hd | hd
  · omega
  · omega

theorem start_dvd {len : ℕ → ℕ} {d i : ℕ} (h : ∀ j < i, d ∣ len j) : d ∣ start len i :=
  Finset.dvd_sum fun j hj => h j (Finset.mem_range.mp hj)

end Tiling
