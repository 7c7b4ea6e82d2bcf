import NextLevelRTOS.Data.Sorting
import NextLevelRTOS.Memory.Accesses

/-!
# The Order of the Table

The two comparators of `memory.c` and what a sort of the table with them
achieves. `size_comparator` cuts the size out of an entry before it compares.
`offset_comparator` shifts the entry, which arrives as an `int`, so an offset
from 32768 on counts as negative and its entry goes to the front. `allocate`
and `deallocate` take the offset as the unsigned number it is.

The first entry of a table that is used at all has offset 0. So the two orders
are the same on a table exactly if all its offsets are small.

## Main definitions

* `sizeComparator`: The comparator that nothing uses yet.
* `OrdersOffsets`, `OrdersSizes`: What the two sorts are for.

## Theorems

* `offsetComparator_key`, `sizeComparator_key`: What the comparators compare.
* `table_ordered_iff`: When the sort by offsets does what it is for.
-/

namespace NextLevelRTOS

open Machine Allocator

/-- `size_comparator`: the sizes are unsigned. -/
def sizeComparator (a b : Word) : Int :=
  let sizeA := (a &&& 0xFFFE#32) >>> 1
  let sizeB := (b &&& 0xFFFE#32) >>> 1
  if sizeA > sizeB then 1 else if sizeA < sizeB then -1 else 0

/-- The sort of the used entries puts them in the order of their offsets, and
    leaves them where they are if they are in this order. -/
structure OrdersOffsets (m : Allocator) : Prop where
  ordered : KeysAscend (fun w => (baseOffset w : Int)) m.sortedTable.mem m.usedEntries
  stays : KeysAscend (fun w => (baseOffset w : Int)) m.mem m.usedEntries → m.sortedTable.mem = m.mem

/-- The sort of `n` entries by their sizes does. -/
structure OrdersSizes (A : Nat → Word) (n : Nat) : Prop where
  ordered : KeysAscend (fun w => (chunkSize w : Int))
    (quicksort sizeComparator A 0 ((n : Int) - 1)) n
  stays : KeysAscend (fun w => (chunkSize w : Int)) A n →
    quicksort sizeComparator A 0 ((n : Int) - 1) = A

theorem sizeComparator_key : ComparesBy sizeComparator fun w => (chunkSize w : Int) := by
  intro a b
  simp only [sizeComparator, gt_iff_lt, BitVec.lt_def, sizeField_toNat, Int.ofNat_lt]

/-- The offset as the comparator sees it. -/
theorem offsetComparator_key : ComparesBy offsetComparator fun w => w.toInt / 65536 :=
  fun _ _ => rfl

/-- The upper half of the range counts as negative. -/
theorem signedOffset_eq (w : Word) :
    w.toInt / 65536 =
      if baseOffset w < 32768 then (baseOffset w : Int) else baseOffset w - 65536 := by
  have hw := w.isLt
  rw [baseOffset, BitVec.toInt_eq_toNat_cond]
  split_ifs <;> omega

/-- If a small and a large offset are sorted together, the large one comes first. -/
theorem not_ordersOffsets {m : Allocator} {k i : Nat} (h : Packed m k) (hi : i < k)
    (hlarge : ¬ baseOffset (m.mem i) < 32768) : ¬ OrdersOffsets m := by
  intro hm
  have hused := usedEntries_eq h
  have hsorted : m.sortedTable.mem = quicksort offsetComparator m.mem 0 ((k : Int) - 1) := by
    rw [sortedTable, hused]
  have hperm : ((indices 0 ((k : Int) - 1)).map m.sortedTable.mem).Perm
      ((indices 0 ((k : Int) - 1)).map m.mem) := by
    rw [hsorted]
    exact quicksort_permutes m.mem (Int.le_refl 0) _
  have hrange : ∀ x, x ∈ indices 0 ((k : Int) - 1) ↔ x < k := fun x => by
    rw [mem_indices (Int.le_refl 0), Within]
    omega
  -- Both entries are still there.
  have hfind : ∀ x < k, ∃ y < k, m.sortedTable.mem y = m.mem x := fun x hx => by
    rcases List.mem_map.mp (hperm.mem_iff.mpr (List.mem_map_of_mem ((hrange x).mpr hx))) with
      ⟨y, hy, heq⟩
    exact ⟨y, (hrange y).mp hy, heq⟩
  rcases hfind i hi with ⟨x, hx, hxi⟩
  rcases hfind 0 (by omega) with ⟨y, hy, hy0⟩
  have hzero : baseOffset (m.mem 0) = 0 := by
    rw [h.offset 0 (by omega), Tiling.start_zero]
  have hord := hm.ordered
  rw [hused] at hord
  have hsigned := offsetComparator_key.ascend m.mem k
  rw [← hsorted] at hsigned
  rcases Nat.le_total x y with hxy | hxy
  · have hle := hord.le hxy hy
    rw [hxi, hy0, hzero] at hle
    omega
  · have hle := hsigned.le hxy hx
    rw [hxi, hy0, signedOffset_eq, signedOffset_eq, hzero, if_neg hlarge, if_pos (by decide)] at hle
    have hlt := baseOffset_lt (m.mem i)
    omega

theorem ordersOffsets_of_small {m : Allocator} {k : Nat} (h : Packed m k)
    (hsmall : ∀ i < k, baseOffset (m.mem i) < 32768) : OrdersOffsets m := by
  have hsorted : m.sortedTable = m := sortedTable_packed h hsmall
  have hoffset := start_of_positive h hsmall
  refine ⟨?_, fun _ => by rw [hsorted]⟩
  rw [hsorted, usedEntries_eq h]
  intro i hi
  change (baseOffset (m.mem i) : Int) ≤ baseOffset (m.mem (i + 1))
  rw [hoffset i (by omega), hoffset (i + 1) hi]
  exact Int.ofNat_le.mpr (Tiling.start_mono _ (Nat.le_succ i))

/-- On every reachable table the sort by offsets does what it is for exactly if
    no offset is in the upper half of the range; the sort by sizes always does. -/
theorem table_ordered_iff {raw : Allocator} {startOsSection ramSize : Word} {es : List Request}
    {s : Client} (hrun : run clientStep es (initialClient raw startOsSection ramSize) = some s) :
    (OrdersOffsets s.heap ↔ ∀ i < s.heap.usedEntries, baseOffset (s.heap.mem i) < 32768) ∧
      ∀ (A : Nat → Word) (n : Nat), OrdersSizes A n := by
  rcases packed_reachable hrun with ⟨k, h⟩
  refine ⟨⟨fun hm i hi => ?_, fun hsmall => ?_⟩, fun A n => ?_⟩
  · rw [usedEntries_eq h] at hi
    by_contra hlarge
    exact not_ordersOffsets h hi hlarge hm
  · rw [usedEntries_eq h] at hsmall
    exact ordersOffsets_of_small h hsmall
  · exact ⟨sizeComparator_key.ascend A n, sizeComparator_key.stays⟩

theorem table_ordered_iff_fillAndFree :
    Ends clientStep fillAndFree freshClient fun s => OrdersOffsets s.heap := by
  have hends : Ends clientStep fillAndFree freshClient fun s =>
      ∀ i < s.heap.usedEntries, baseOffset (s.heap.mem i) < 32768 := by decide +kernel
  rcases hends with ⟨s, hrun, hsmall⟩
  exact ⟨s, hrun, (table_ordered_iff hrun).1.mpr hsmall⟩

/-- Three chunks of the largest size: the third begins at 65520. -/
def threeLarge : List Request :=
  [Request.allocate 7#32 32760, Request.allocate 7#32 32760, Request.allocate 7#32 32760]

theorem table_misordered :
    Ends clientStep threeLarge freshClient fun s => ¬ OrdersOffsets s.heap := by
  have hends : Ends clientStep threeLarge freshClient fun s =>
      s.heap.usedEntries = 3 ∧ ¬ baseOffset (s.heap.mem 2) < 32768 := by decide +kernel
  rcases hends with ⟨s, hrun, hused, hlarge⟩
  rcases packed_reachable hrun with ⟨k, h⟩
  rw [usedEntries_eq h] at hused
  exact ⟨s, hrun, not_ordersOffsets h (by omega) hlarge⟩

end NextLevelRTOS
