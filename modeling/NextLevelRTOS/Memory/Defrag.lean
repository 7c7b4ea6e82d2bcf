import Mathlib.Data.Nat.Count
import NextLevelRTOS.Memory.Bounds

/-!
# Defragmentation

`defrag` sorts the used entries by their offsets and then merges every free
entry with the free ones behind it, entry by entry and in place: the sizes are
added up in the first, and what is behind the others moves up.

The search for the last used entry is made once. After a merge the last of the
entries it has found are unused, and an unused entry looks like a free chunk of
32767 bytes. So a later merge that reaches the end of the used entries takes
them in. What moves up comes from behind the table when more entries are merged
away than there are unused ones. The sum of the sizes is written into the
fifteen bits of `chunk_size`, and what does not fit goes into the offset. The
sort compares offsets with their sign.

A table on which none of this happens is compacted: the occupied entries are
what they were, the used entries tile the memory as before, the rest is unused
and no two free entries are neighbours. One round of the loop keeps an
invariant, `Compacting`, between the table it began with and the one it works
on.

## Main definitions

* `usedEntries`: How many entries are used.
* `occupiedEntries`: The occupied entries in order.
* `Compacted`: What `defrag` is for.
* `Mergeable`: The condition on a table.
* `Compacting`: The invariant of the loop.

## Theorems

* `relocate_eq`: What moves up.
* `mergeAt_eq`: What a round does.
* `compacting_round`: A round keeps the invariant.
* `defrag_compacts`: A table that meets the condition is compacted.
* `defrag_takes_unused`: A merge that takes an unused entry in.
-/

namespace NextLevelRTOS

open Machine

namespace Allocator

/-- How many entries of the table are used. -/
def usedEntries (m : Allocator) : Nat := Nat.count (fun i => m.mem i ≠ unused) numOfSlots

/-- The occupied ones of the `n` entries from `i` on. -/
def occupiedFrom (m : Allocator) (i n : Nat) : List Word :=
  ((List.range n).map fun j => m.mem (i + j)).filter isOccupied

/-- The occupied entries of the table. -/
def occupiedEntries (m : Allocator) : List Word := m.occupiedFrom 0 numOfSlots

theorem occupiedFrom_add (m : Allocator) (i n r : Nat) :
    m.occupiedFrom i (n + r) = m.occupiedFrom i n ++ m.occupiedFrom (i + n) r := by
  rw [occupiedFrom, List.range_add, List.map_append, List.filter_append, List.map_map]
  refine congrArg _ (congrArg _ (List.map_congr_left fun j _ => ?_))
  rw [Function.comp_apply, Nat.add_assoc]

theorem occupiedFrom_congr {m m' : Allocator} {i i' n : Nat}
    (h : ∀ j < n, m.mem (i + j) = m'.mem (i' + j)) : m.occupiedFrom i n = m'.occupiedFrom i' n :=
  congrArg _ (List.map_congr_left fun j hj => h j (List.mem_range.mp hj))

theorem occupiedFrom_free {m : Allocator} {i n : Nat}
    (h : ∀ j < n, isOccupied (m.mem (i + j)) = false) : m.occupiedFrom i n = [] := by
  refine List.filter_eq_nil_iff.mpr fun w hw => ?_
  rcases List.mem_map.mp hw with ⟨j, hj, rfl⟩
  rw [h j (List.mem_range.mp hj)]
  exact Bool.false_ne_true

end Allocator

open Allocator

/-- What `defrag` is for: from the table of `m` to that of `m'` the occupied
    entries and the total size are the same, the used entries come first and
    tile the memory, and no two neighbours are free. -/
structure Compacted (m m' : Allocator) : Prop where
  occupied : m'.occupiedEntries.Perm m.occupiedEntries
  total : m'.usedBytes = m.usedBytes
  tiled : ∃ k ≤ numOfSlots, (∀ i < k, m'.mem i ≠ unused) ∧
    (∀ i < k, baseOffset (m'.mem i) = Tiling.start m'.sizes i) ∧
    (∀ i, k ≤ i → i < numOfSlots → m'.mem i = unused) ∧
    ∀ i, i + 1 < k → isOccupied (m'.mem i) = true ∨ isOccupied (m'.mem (i + 1)) = true

/-- All entries from `i` to below `j` are free. -/
def FreeRun (m : Allocator) (i j : Nat) : Prop :=
  ∀ n, i ≤ n → n < j → isOccupied (m.mem n) = false

instance (m : Allocator) (i j : Nat) : Decidable (FreeRun m i j) :=
  decidable_of_iff (∀ n < j, i ≤ n → isOccupied (m.mem n) = false)
    ⟨fun h n hlow hhigh => h n hhigh hlow, fun h n hhigh hlow => h n hlow hhigh⟩

/-- The condition on a table with `k` used entries. -/
structure Mergeable (m : Allocator) (k : Nat) : Prop where
  /-- Nobody is inside the allocator. -/
  released : m.mutex ≠ locked
  /-- The sort sees no negative offset. -/
  positive : ∀ i < k, baseOffset (m.mem i) < 32768
  /-- Free neighbours fit into one entry. -/
  fits : ∀ i j, i < j → j ≤ k → FreeRun m i j →
    Tiling.start m.sizes j < Tiling.start m.sizes i + 32768
  /-- There are as many unused entries as one merge frees. -/
  spare : ∀ i j, i < j → j ≤ k → FreeRun m i j → j - i - 1 ≤ numOfSlots - k
  /-- Nothing has been merged before a merge reaches the last used entry. -/
  last : isOccupied (m.mem (k - 1)) = false → ∀ i, i + 1 < k → FreeRun m i (i + 2) → FreeRun m i k

instance (m : Allocator) (k : Nat) : Decidable (Mergeable m k) :=
  decidable_of_iff (m.mutex ≠ locked ∧ (∀ i < k, baseOffset (m.mem i) < 32768) ∧
      (∀ j ≤ k, ∀ i < j, FreeRun m i j →
        Tiling.start m.sizes j < Tiling.start m.sizes i + 32768 ∧ j - i - 1 ≤ numOfSlots - k) ∧
      (isOccupied (m.mem (k - 1)) = false →
        ∀ i < k, i + 1 < k → FreeRun m i (i + 2) → FreeRun m i k))
    ⟨fun ⟨hreleased, hpos, hrun, hlast⟩ => ⟨hreleased, hpos,
      fun i j hij hj hfree => (hrun j hj i hij hfree).1,
      fun i j hij hj hfree => (hrun j hj i hij hfree).2,
      fun hfree i hi => hlast hfree i (Nat.lt_of_succ_lt hi) hi⟩,
    fun h => ⟨h.released, h.positive,
      fun j hj i hij hfree => ⟨h.fits i j hij hj hfree, h.spare i j hij hj hfree⟩,
      fun hfree i _ => h.last hfree i⟩⟩

/-! ### One round -/

section Round

variable {m : Allocator}

theorem freeEnd_spec (mem : Nat → Word) (highestUsedEntry : Int) (n : Nat) :
    ∀ b, b ≤ freeEnd mem highestUsedEntry n b ∧ freeEnd mem highestUsedEntry n b ≤ b + n ∧
      (∀ i, b ≤ i → i < freeEnd mem highestUsedEntry n b →
        isOccupied (mem i) = false ∧ (i : Int) ≤ highestUsedEntry) ∧
      (freeEnd mem highestUsedEntry n b = b + n ∨
        isOccupied (mem (freeEnd mem highestUsedEntry n b)) = true ∨
        (freeEnd mem highestUsedEntry n b : Int) > highestUsedEntry) := by
  -- One round: the search stops here, or goes on behind this entry.
  induction n with
  | zero => exact fun b => ⟨le_refl b, le_refl b, fun i hlow hhigh => by
      rw [freeEnd] at hhigh; omega, Or.inl rfl⟩
  | succ n ih =>
      intro b
      rw [freeEnd]
      by_cases hstop : isOccupied (mem b) = true ∨ (b : Int) > highestUsedEntry
      · rw [if_pos hstop]
        exact ⟨le_refl b, Nat.le_add_right b _, fun i hlow hhigh => by omega, Or.inr hstop⟩
      · rw [if_neg hstop]
        rcases ih (b + 1) with ⟨hlow, hhigh, hfree, hend⟩
        refine ⟨by omega, by omega, fun i hi hlt => ?_, ?_⟩
        · rcases Nat.eq_or_lt_of_le hi with rfl | hgt
          · rw [not_or] at hstop
            exact ⟨Bool.eq_false_iff.mpr hstop.1, by omega⟩
          · exact hfree i hgt hlt
        · rcases hend with hend | hend
          · exact Or.inl (by omega)
          · exact Or.inr hend

/-- What is behind moves up, as long as it is in the memory. -/
theorem relocate_eq (n : Nat) : ∀ (new old : Nat) (m : Allocator), new ≤ old →
    old + n ≤ m.ramWords → relocate n new old m =
      some { m with
        mem := fun i => if new ≤ i ∧ i < new + n then m.mem (i - new + old) else m.mem i } := by
  induction n with
  | zero =>
      intro new old m _ _
      have hmem : (fun i => if new ≤ i ∧ i < new + 0 then m.mem (i - new + old) else m.mem i) =
          m.mem := by
        funext i
        rw [if_neg (by omega)]
      rw [relocate, hmem]
  | succ n ih =>
      intro new old m hle hram
      have hram' : old + 1 + n ≤ (m.store new (m.mem old)).ramWords := by
        change old + 1 + n ≤ m.ramWords
        omega
      rw [relocate, if_pos (by omega), ih (new + 1) (old + 1) _ (by omega) hram']
      refine congrArg some ?_
      simp only [Allocator.store, Allocator.mk.injEq, true_and, and_true]
      funext i
      -- The words still to be read are behind those already written.
      by_cases hi : i = new
      · rw [if_neg (by omega), if_pos (by omega), hi, Function.update_self, Nat.sub_self,
          Nat.zero_add]
      · by_cases hin : new + 1 ≤ i ∧ i < new + 1 + n
        · rw [if_pos hin, if_pos (by omega), Function.update_of_ne (by omega)]
          exact congrArg m.mem (by omega)
        · rw [if_neg hin, if_neg (by omega), Function.update_of_ne hi]

/-- The sum of the sizes is taken in a word. -/
theorem foldl_size (f : Nat → Nat) (n : Nat) :
    (List.range n).foldl (fun newSize k => newSize + BitVec.ofNat 32 (f k)) 0#32 =
      BitVec.ofNat 32 (Tiling.start f n) := by
  induction n with
  | zero => rw [List.range_zero, List.foldl_nil, Tiling.start_zero]
  | succ n ih =>
      rw [List.range_succ, List.foldl_append, ih, List.foldl_cons, List.foldl_nil,
        Tiling.start_succ, BitVec.ofNat_add]

/-- What a merge writes: the bits of the size that do not fit go into the
    offset. -/
theorem merged_fields (w x : Word) :
    baseOffset ((w &&& 0xFFFF0000#32) ||| (x <<< 1)) = baseOffset w ||| (x <<< 1).toNat / 65536 ∧
      chunkSize ((w &&& 0xFFFF0000#32) ||| (x <<< 1)) = chunkSize (x <<< 1) ∧
      isOccupied ((w &&& 0xFFFF0000#32) ||| (x <<< 1)) = false := by
  -- The shifted size has no lowest bit, so the entry stays free.
  have heven : (x <<< 1).toNat % 2 ^ 1 = 0 := by
    rw [BitVec.toNat_shiftLeft, Nat.shiftLeft_eq]
    omega
  have hor : ((w &&& 0xFFFF0000#32) ||| (x <<< 1)).toNat =
      baseOffset w * 2 ^ 16 ||| (x <<< 1).toNat := by
    rw [BitVec.toNat_or, clearLow_toNat]
    rfl
  refine ⟨?_, ?_, ?_⟩
  · rw [baseOffset, hor, show (65536 : Nat) = 2 ^ 16 by rfl, Nat.or_div_two_pow,
      Nat.mul_div_cancel _ (by decide)]
  · have hclear : baseOffset w * 2 ^ 16 % 2 ^ 16 = 0 := Nat.mul_mod_left _ _
    have hlow : (baseOffset w * 2 ^ 16 ||| (x <<< 1).toNat) % 2 ^ 16 =
        (x <<< 1).toNat % 2 ^ 16 := by
      rw [Nat.or_mod_two_pow, hclear, Nat.zero_or]
    rw [chunkSize, chunkSize, hor]
    omega
  · have hclear : baseOffset w * 2 ^ 16 % 2 ^ 1 = 0 := by omega
    have hlow : (baseOffset w * 2 ^ 16 ||| (x <<< 1).toNat) % 2 ^ 1 = 0 := by
      rw [Nat.or_mod_two_pow, hclear, heven, Nat.zero_or]
    rw [isOccupied, hor, decide_eq_false_iff_not]
    omega

/-- Writing a size that fits below an offset, as a raw word. -/
theorem orSize_eq {w : Word} {size : Nat} (hsize : size < 32768) :
    (w &&& 0xFFFF0000#32) ||| (BitVec.ofNat 32 size <<< 1) = pack (baseOffset w) size false := by
  have hlow : (BitVec.ofNat 32 size <<< 1).toNat = size * 2 := by
    rw [BitVec.toNat_shiftLeft, BitVec.toNat_ofNat, Nat.mod_eq_of_lt (by omega),
      Nat.shiftLeft_eq, Nat.mod_eq_of_lt (by omega)]
  rcases merged_fields w (BitVec.ofNat 32 size) with ⟨hoffset, hchunk, hfree⟩
  refine entry_ext ?_ ?_ ?_
  · rw [hoffset, hlow, baseOffset_pack, Nat.mod_eq_of_lt (baseOffset_lt w),
      Nat.div_eq_of_lt (by omega), Nat.or_zero]
  · rw [hchunk, chunkSize_pack, chunkSize, hlow, Nat.mul_div_cancel _ (by decide)]
  · rw [hfree, isOccupied_pack]

/-- What a round does with a free entry before the last used one: it takes in
    all entries up to `j`, and what is behind them moves up. -/
theorem mergeAt_eq {b k : Nat} (hfree : isOccupied (m.mem b) = false) (hused : m.mem b ≠ unused)
    (hb : b + 1 < k) : ∃ j, b < j ∧ j ≤ k ∧ FreeRun m b j ∧
      (j = k ∨ isOccupied (m.mem j) = true) ∧
      mergeAt b ((k : Int) - 1) m = if j = b + 1 then some m else
        relocate (k - 1 - b) (b + 1) j (m.store b ((m.mem b &&& 0xFFFF0000#32) |||
          (BitVec.ofNat 32 (Tiling.start (fun i => m.sizes (b + i)) (j - b)) <<< 1))) := by
  have hremaining : ((k : Int) - 1 - b).toNat = k - 1 - b := by omega
  rcases freeEnd_spec m.mem ((k : Int) - 1) (k - 1 - b + 1) (b + 1) with ⟨hlow, hhigh, hrun, hend⟩
  set j := freeEnd m.mem ((k : Int) - 1) (k - 1 - b + 1) (b + 1) with hj
  -- The search stops one place behind the last used entry.
  have hjk : j ≤ k := by
    by_contra hc
    have hlast := (hrun (j - 1) (by omega) (by omega)).2
    omega
  refine ⟨j, hlow, hjk, fun n hbn hnj => ?_, ?_, ?_⟩
  · rcases Nat.eq_or_lt_of_le hbn with rfl | hgt
    · exact hfree
    · exact (hrun n hgt hnj).1
  · rcases hend with hend | hocc | hpast
    · exact Or.inl (by omega)
    · exact Or.inr hocc
    · exact Or.inl (by omega)
  · have hcond : ¬ isOccupied (m.mem b) = true ∧ m.mem b ≠ unused := by
      rw [hfree]
      exact ⟨Bool.false_ne_true, hused⟩
    have hsum := foldl_size (fun i => m.sizes (b + i)) (j - b)
    simp only [mergeAt, hremaining, ← hj]
    rw [if_pos hcond, ← hsum]
    rfl

/-- A merge of the entries from `b` to below `j`. -/
structure Merged (m : Allocator) (b j k : Nat) (m' : Allocator) : Prop where
  ram : m'.ramWords = m.ramWords
  before : ∀ i < b, m'.mem i = m.mem i
  at_b : m'.mem b = (m.mem b &&& 0xFFFF0000#32) |||
    (BitVec.ofNat 32 (Tiling.start (fun i => m.sizes (b + i)) (j - b)) <<< 1)
  moved : ∀ i, b < i → i < k → m'.mem i = m.mem (i + (j - b - 1))
  behind : ∀ i, k ≤ i → m'.mem i = m.mem i

/-- If the words that move up can be read, they are inside the memory. -/
theorem relocate_inside (n : Nat) : ∀ (new old : Nat) (m m' : Allocator), 0 < n →
    relocate n new old m = some m' → old + n ≤ m.ramWords := by
  induction n with
  | zero => exact fun new old m m' hn => absurd hn (lt_irrefl 0)
  | succ n ih =>
      intro new old m m' _ h
      rw [relocate] at h
      by_cases hram : old < m.ramWords
      · rw [if_pos hram] at h
        rcases Nat.eq_zero_or_pos n with rfl | hn
        · omega
        · have hrest : old + 1 + n ≤ (m.store new (m.mem old)).ramWords := ih _ _ _ _ hn h
          change old + 1 + n ≤ m.ramWords at hrest
          omega
      · rw [if_neg hram] at h
        exact absurd h (by simp only [reduceCtorEq, not_false_eq_true])

theorem merged_of_relocate {m' : Allocator} {b j k : Nat} (hbj : b < j) (hb : b + 1 < k)
    (h : relocate (k - 1 - b) (b + 1) j (m.store b ((m.mem b &&& 0xFFFF0000#32) |||
      (BitVec.ofNat 32 (Tiling.start (fun i => m.sizes (b + i)) (j - b)) <<< 1))) = some m') :
    Merged m b j k m' := by
  have hram := relocate_inside _ _ _ _ _ (by omega) h
  rw [relocate_eq _ _ _ _ hbj hram, Option.some.injEq] at h
  subst h
  -- The entries before `b`, `b` itself, those that move down, and those behind them.
  refine ⟨rfl, fun i hi => ?_, ?_, fun i hlow hhigh => ?_, fun i hk => ?_⟩
  · change (if b + 1 ≤ i ∧ i < b + 1 + (k - 1 - b) then _ else _) = _
    rw [if_neg (by omega)]
    exact Function.update_of_ne (by omega) _ _
  · change (if b + 1 ≤ b ∧ b < b + 1 + (k - 1 - b) then _ else _) = _
    rw [if_neg (by omega)]
    exact Function.update_self ..
  · change (if b + 1 ≤ i ∧ i < b + 1 + (k - 1 - b) then _ else _) = _
    rw [if_pos (by omega), show i - (b + 1) + j = i + (j - b - 1) by omega]
    exact Function.update_of_ne (by omega) _ _
  · change (if b + 1 ≤ i ∧ i < b + 1 + (k - 1 - b) then _ else _) = _
    rw [if_neg (by omega)]
    exact Function.update_of_ne (by omega) _ _

theorem merge_eq {b j k : Nat} (hbj : b < j) (hb : b + 1 < k)
    (hram : j + (k - 1 - b) ≤ m.ramWords) :
    ∃ m', relocate (k - 1 - b) (b + 1) j (m.store b ((m.mem b &&& 0xFFFF0000#32) |||
        (BitVec.ofNat 32 (Tiling.start (fun i => m.sizes (b + i)) (j - b)) <<< 1))) = some m' ∧
      Merged m b j k m' :=
  have heq := relocate_eq (k - 1 - b) (b + 1) j (m.store b _) hbj hram
  ⟨_, heq, merged_of_relocate hbj hb heq⟩

/-- A merge takes a free run out, so the occupied entries behind it move up. -/
theorem Merged.occupiedFrom {m' : Allocator} {b j k n : Nat} (h : Merged m b j k m') (hbj : b < j)
    (hfree : FreeRun m b j) (hn : b + 1 + n ≤ k) :
    m'.occupiedFrom 0 (b + 1 + n) = m.occupiedFrom 0 (j + n) := by
  have hrun : m.occupiedFrom (0 + b) (j - b) = [] :=
    occupiedFrom_free fun i hi => hfree _ (by omega) (by omega)
  have hone : m'.occupiedFrom (0 + b) 1 = [] := occupiedFrom_free fun i hi => by
    rw [show 0 + b + i = b by omega, h.at_b]
    exact (merged_fields _ _).2.2
  have hfront : m'.occupiedFrom 0 b = m.occupiedFrom 0 b :=
    occupiedFrom_congr fun i hi => h.before _ (by omega)
  have hrest : m'.occupiedFrom (0 + (b + 1)) n = m.occupiedFrom (0 + j) n :=
    occupiedFrom_congr fun i hi => by
      rw [h.moved _ (by omega) (by omega)]
      exact congrArg m.mem (by omega)
  have hsplit : m.occupiedFrom 0 j = m.occupiedFrom 0 b := by
    rw [show j = b + (j - b) by omega, occupiedFrom_add, hrun, List.append_nil]
  rw [occupiedFrom_add, occupiedFrom_add, hone, hfront, hrest, List.append_nil,
    occupiedFrom_add m 0 j n, hsplit]

end Round

/-! ### The loop -/

/-- The loop is about to look at entry `b`. Of the `k` entries of `m₀` that were
    used, `k - c` have been merged away. The used entries of `m` are the first
    `c`; from `b` on they are still the entries of `m₀`. -/
structure Compacting (m₀ m : Allocator) (k b c : Nat) : Prop where
  ram : m.ramWords = m₀.ramWords
  le : c ≤ k
  offset : ∀ i < c, baseOffset (m.mem i) = Tiling.start m.sizes i
  rounded : ∀ i < c, 8 ∣ m.sizes i
  rest : ∀ i, c ≤ i → i < numOfSlots → m.mem i = unused
  total : Tiling.start m.sizes c = Tiling.start m₀.sizes k
  occupied : m.occupiedFrom 0 c = m₀.occupiedFrom 0 k
  apart : ∀ i < b, i + 1 < c → isOccupied (m.mem i) = true ∨ isOccupied (m.mem (i + 1)) = true
  suffix : ∀ i, b ≤ i → i < c → m.mem i = m₀.mem (i + (k - c))
  behind : ∀ i, numOfSlots ≤ i → m.mem i = m₀.mem i
  /-- Nothing has changed before the first merge. -/
  same : c = k → ∀ i < k, m.mem i = m₀.mem i

namespace Compacting

variable {m₀ m : Allocator} {k b c : Nat}

theorem used (h : Compacting m₀ m k b c) {i : Nat} (hi : i < c) : m.mem i ≠ unused := by
  intro hc
  have hdvd := h.rounded i hi
  rw [Allocator.sizes, hc, unused_fields.2.1] at hdvd
  exact absurd hdvd (by decide)

/-- The loop goes on without a merge. -/
theorem next (h : Compacting m₀ m k b c)
    (hapart : b + 1 < c → isOccupied (m.mem b) = true ∨ isOccupied (m.mem (b + 1)) = true) :
    Compacting m₀ m k (b + 1) c :=
  { h with
    apart := fun i hi hc => by
      rcases Nat.lt_succ_iff_lt_or_eq.mp hi with hlt | rfl
      · exact h.apart i hlt hc
      · exact hapart hc
    suffix := fun i hi hc => h.suffix i (Nat.le_of_succ_le hi) hc }

/-- A free run of the working table is one of the old table. -/
theorem freeRun (h : Compacting m₀ m k b c) {i j : Nat} (hb : b ≤ i) (hj : j ≤ c)
    (hrun : FreeRun m i j) : FreeRun m₀ (i + (k - c)) (j + (k - c)) := by
  intro n hlow hhigh
  have hmem := h.suffix (n - (k - c)) (by omega) (by omega)
  rw [Nat.sub_add_cancel (by omega)] at hmem
  rw [← hmem]
  exact hrun _ (by omega) (by omega)

theorem sum_run (h : Compacting m₀ m k b c) {j : Nat} (hbj : b ≤ j) (hj : j ≤ c) :
    Tiling.start m₀.sizes (b + (k - c)) + Tiling.start (fun i => m.sizes (b + i)) (j - b) =
      Tiling.start m₀.sizes (j + (k - c)) := by
  have hcongr : Tiling.start (fun i => m.sizes (b + i)) (j - b) =
      Tiling.start (fun i => m₀.sizes (b + (k - c) + i)) (j - b) := by
    refine Tiling.start_congr fun i hi => ?_
    rw [Allocator.sizes, Allocator.sizes, h.suffix (b + i) (by omega) (by omega),
      Nat.add_right_comm]
  rw [hcongr, ← Tiling.start_add, show b + (k - c) + (j - b) = j + (k - c) by omega]

/-- A merge of the entries from `b` to below `j`. -/
theorem merge (h : Compacting m₀ m k b c) (hk : k < numOfSlots) {m' : Allocator} {j : Nat}
    (hbj : b + 1 < j) (hjc : j ≤ c) (hb : b + 1 < k) (hfree : FreeRun m b j)
    (hend : j = k ∨ isOccupied (m.mem j) = true) (hmerged : Merged m b j k m')
    (hsize : Tiling.start (fun i => m.sizes (b + i)) (j - b) < 32768)
    (hspare : j - b - 1 ≤ numOfSlots - k) :
    Compacting m₀ m' k (b + 1) (c - (j - b - 1)) := by
  set d := j - b - 1 with hd
  set size := Tiling.start (fun i => m.sizes (b + i)) (j - b) with hsizedef
  have hle := h.le
  have hboff : baseOffset (m.mem b) < 65536 := baseOffset_lt _
  have hfits : m'.mem b = pack (baseOffset (m.mem b)) size false :=
    hmerged.at_b.trans (orSize_eq hsize)
  have hbefore : ∀ i < b, m'.sizes i = m.sizes i := fun i hi => by
    rw [Allocator.sizes, hmerged.before i hi]
    rfl
  have hatb : m'.sizes b = size := by
    rw [Allocator.sizes, hfits, chunkSize_pack, Nat.mod_eq_of_lt hsize]
  have hmoved : ∀ i, b < i → i < k → m'.sizes i = m.sizes (i + d) := fun i hlow hhigh => by
    rw [Allocator.sizes, hmerged.moved i hlow hhigh]
    rfl
  have hsum : Tiling.start m.sizes b + m'.sizes b = Tiling.start m.sizes (b + 1 + d) := by
    rw [hatb, hsizedef, ← Tiling.start_add, show b + (j - b) = b + 1 + d by omega]
  have hstart : ∀ i, b < i → i ≤ k → Tiling.start m'.sizes i = Tiling.start m.sizes (i + d) :=
    fun i hlow hhigh => Tiling.start_merge hbefore hsum hmoved hlow hhigh
  have hstartb : ∀ i ≤ b, Tiling.start m'.sizes i = Tiling.start m.sizes i :=
    fun i hi => Tiling.start_congr fun n hn => hbefore n (Nat.lt_of_lt_of_le hn hi)
  refine ⟨hmerged.ram.trans h.ram, by omega, fun i hi => ?_, fun i hi => ?_, fun i hlow hhigh => ?_,
    ?_, ?_, fun i hi hc => ?_, fun i hlow hhigh => ?_, fun i hi => ?_, fun hc => absurd hc ?_⟩
  -- Offsets: before, at and behind the merged entry.
  · rcases Nat.lt_trichotomy i b with hlt | rfl | hgt
    · rw [hmerged.before i hlt, h.offset i (by omega), hstartb i (by omega)]
    · rw [hfits, baseOffset_pack, Nat.mod_eq_of_lt hboff, h.offset i (by omega),
        hstartb i (le_refl i)]
    · rw [hmerged.moved i hgt (by omega), h.offset (i + d) (by omega), hstart i hgt (by omega)]
  · rcases Nat.lt_trichotomy i b with hlt | rfl | hgt
    · rw [hbefore i hlt]
      exact h.rounded i (by omega)
    · rw [hatb]
      exact Tiling.start_dvd fun n hn => h.rounded (i + n) (by omega)
    · rw [hmoved i hgt (by omega)]
      exact h.rounded (i + d) (by omega)
  · by_cases hik : i < k
    · rw [hmerged.moved i (by omega) hik]
      exact h.rest (i + d) (by omega) (by omega)
    · rw [hmerged.behind i (Nat.le_of_not_lt hik)]
      exact h.rest i (by omega) hhigh
  · rw [hstart _ (by omega) (by omega), Nat.sub_add_cancel (by omega), h.total]
  -- The occupied entries are those before the run and those behind it.
  · rw [show c - d = b + 1 + (c - j) by omega, hmerged.occupiedFrom (by omega) hfree (by omega),
      show j + (c - j) = c by omega, h.occupied]
  · rcases Nat.lt_trichotomy i b with hlt | rfl | hgt
    · rw [hmerged.before i hlt]
      by_cases hib : i + 1 = b
      -- The merged entry is as free as the first of the run was.
      · have hpair := h.apart i hlt (by omega)
        rw [hib, hfree b (le_refl b) (by omega)] at hpair
        exact Or.inl (hpair.resolve_right Bool.false_ne_true)
      · rw [hmerged.before (i + 1) (by omega)]
        exact h.apart i hlt (by omega)
    · rcases hend with hend | hocc
      · omega
      · rw [hmerged.moved (i + 1) (by omega) (by omega), show i + 1 + d = j by omega]
        exact Or.inr hocc
    · omega
  · rw [hmerged.moved i (by omega) (by omega), h.suffix (i + d) (by omega) (by omega)]
    exact congrArg m₀.mem (by omega)
  · rw [hmerged.behind i (by omega), h.behind i hi]
  · omega

end Compacting

/-- If there is a merge at `b`, it ends with the used entries, what it adds up
    fits, and it frees no more entries than are unused. -/
def Harmless (m₀ m : Allocator) (k b c : Nat) : Prop :=
  ∀ j, b < j → j ≤ k → FreeRun m b j → (j = k ∨ isOccupied (m.mem j) = true) →
    j ≤ c ∧ Tiling.start m₀.sizes (j + (k - c)) < Tiling.start m₀.sizes (b + (k - c)) + 32768 ∧
      j - b - 1 ≤ numOfSlots - k

/-- From one entry of the old table to the next, or over a whole free run. -/
def Advance (m₀ : Allocator) (k i i' : Nat) : Prop :=
  i' = i + 1 ∨ (i + 1 < i' ∧ FreeRun m₀ i i' ∧ (i' = k ∨ isOccupied (m₀.mem i') = true))

/-- A harmless round keeps the invariant. -/
theorem compacting_round {m₀ m : Allocator} {k b c : Nat} (hk : k < numOfSlots)
    (hram : numOfSlots ≤ m₀.ramWords) (h : Compacting m₀ m k b c) (hb : b + 1 < k)
    (hharmless : b < c → isOccupied (m.mem b) = false → Harmless m₀ m k b c) :
    ∃ m' c', mergeAt b ((k : Int) - 1) m = some m' ∧ Compacting m₀ m' k (b + 1) c' ∧ c' ≤ c ∧
      (b < c → Advance m₀ k (b + (k - c)) (b + 1 + (k - c'))) := by
  -- Three kinds of round leave the table as it is.
  have hskip : ¬ (¬ isOccupied (m.mem b) = true ∧ m.mem b ≠ unused) →
      mergeAt b ((k : Int) - 1) m = some m := fun hc => by simp only [mergeAt, if_neg hc]
  have hone : Advance m₀ k (b + (k - c)) (b + 1 + (k - c)) :=
    Or.inl (Nat.add_right_comm b 1 (k - c))
  by_cases hbc : b < c
  · cases hocc : isOccupied (m.mem b) with
    | true =>
        exact ⟨m, c, hskip fun hc => hc.1 hocc, h.next fun _ => Or.inl hocc, le_refl c,
          fun _ => hone⟩
    | false =>
        -- A free entry: the run it begins ends at `j`.
        rcases mergeAt_eq hocc (h.used hbc) hb with ⟨j, hbj, hjk, hfree, hend, heq⟩
        rcases hharmless hbc hocc j hbj hjk hfree hend with ⟨hjc, hfits, hspare⟩
        have hle := h.le
        by_cases hj : j = b + 1
        · rw [if_pos hj] at heq
          refine ⟨m, c, heq, h.next fun hbc => ?_, le_refl c, fun _ => hone⟩
          rcases hend with hend | hocc
          · omega
          · exact Or.inr (by rwa [← hj])
        · rw [if_neg hj] at heq
          have hsum := h.sum_run (Nat.le_of_lt hbj) hjc
          have hramj := h.ram
          rcases merge_eq (m := m) hbj hb (by omega) with ⟨m', hmerge, hmerged⟩
          -- The next entry to look at is the one behind the run.
          have hpos : b + 1 + (k - (c - (j - b - 1))) = j + (k - c) := by omega
          refine ⟨m', c - (j - b - 1), heq.trans hmerge, h.merge hk (by omega) hjc hb hfree hend
            hmerged (by omega) hspare, Nat.sub_le c _, fun _ => Or.inr ?_⟩
          rw [hpos]
          refine ⟨by omega, h.freeRun (le_refl b) hjc hfree, ?_⟩
          rcases hend with hend | hocc
          · exact Or.inl (by omega)
          · by_cases hjc' : j = c
            · exact Or.inl (by omega)
            · rw [← h.suffix j (Nat.le_of_lt hbj) (by omega)]
              exact Or.inr hocc
  -- What has been merged away is unused.
  · have hunused := h.rest b (by omega) (by omega)
    exact ⟨m, c, hskip fun hc => hc.2 hunused, h.next fun hc => absurd hc (by omega), le_refl c,
      fun hc => absurd hc hbc⟩

/-- Unless nothing has been merged, the last used entry is occupied, or the
    merge has reached it. -/
def Ahead (m₀ : Allocator) (k b c : Nat) : Prop :=
  c < k → b < c → isOccupied (m₀.mem (k - 1)) = true

/-- On a table that meets the condition every round is harmless. -/
theorem mergeable_harmless {m₀ m : Allocator} {k b c : Nat} (hcond : Mergeable m₀ k)
    (h : Compacting m₀ m k b c) (hahead : Ahead m₀ k b c) (hbc : b < c) : Harmless m₀ m k b c := by
  intro j hbj hjk hfree _
  have hle := h.le
  -- If something has been merged, an occupied entry is ahead.
  have hjc : j ≤ c := by
    by_cases hck : c < k
    · by_contra hc
      have hlast := hahead hck hbc
      rw [show k - 1 = c - 1 + (k - c) by omega, ← h.suffix (c - 1) (by omega) (by omega),
        hfree (c - 1) (by omega) (by omega)] at hlast
      exact Bool.noConfusion hlast
    · omega
  have hrun := h.freeRun (le_refl b) hjc hfree
  have hspare := hcond.spare _ _ (by omega) (by omega) hrun
  exact ⟨hjc, hcond.fits _ _ (by omega) (by omega) hrun, by omega⟩

theorem mergeable_ahead {m₀ m : Allocator} {k b c c' : Nat} (hcond : Mergeable m₀ k)
    (h : Compacting m₀ m k b c) (hahead : Ahead m₀ k b c) (hle : c' ≤ c)
    (hadvance : b < c → Advance m₀ k (b + (k - c)) (b + 1 + (k - c'))) : Ahead m₀ k (b + 1) c' := by
  intro hck hbc
  have hlek := h.le
  by_cases hc : c < k
  · exact hahead hc (by omega)
  · rcases hadvance (by omega) with heq | ⟨hlong, hfree, hend⟩
    · omega
    -- The first merge: were the last entry free, the run would reach it.
    · by_contra hlast
      rw [show c = k by omega, Nat.sub_self, Nat.add_zero] at hfree hlong
      have hpair : FreeRun m₀ b (b + 2) := fun n hlow hhigh => hfree n hlow (by omega)
      have hall := hcond.last (Bool.eq_false_iff.mpr hlast) b (by omega) hpair
      rcases hend with hend | hocc
      · omega
      · rw [hall _ (by omega) (by omega)] at hocc
        exact Bool.noConfusion hocc

/-- The loop ends, with the invariant for all entries. -/
theorem compacting_rounds {m₀ : Allocator} {k : Nat} (hcond : Mergeable m₀ k)
    (hk : k < numOfSlots) (hram : numOfSlots ≤ m₀.ramWords) (n : Nat) :
    ∀ (b c : Nat) (m : Allocator), b + n + 1 = k → Compacting m₀ m k b c → Ahead m₀ k b c →
      ∃ m' c', mergeRounds ((k : Int) - 1) n b m = some m' ∧ Compacting m₀ m' k (b + n) c' := by
  induction n with
  | zero => exact fun b c m _ h _ => ⟨m, c, rfl, h⟩
  | succ n ih =>
      intro b c m hn h hahead
      rcases compacting_round hk hram h (by omega)
        fun hbc _ => mergeable_harmless hcond h hahead hbc with
        ⟨m₁, c₁, hround, h₁, hle, hadvance⟩
      rcases ih (b + 1) c₁ m₁ (by omega) h₁ (mergeable_ahead hcond h hahead hle hadvance) with
        ⟨m', c', hrounds, h'⟩
      refine ⟨m', c', ?_, ?_⟩
      · rw [mergeRounds, hround]
        exact hrounds
      · rwa [show b + (n + 1) = b + 1 + n by omega]

theorem start_of_positive {m : Allocator} {k : Nat} (h : Packed m k)
    (hpos : ∀ i < k, baseOffset (m.mem i) < 32768) :
    ∀ i < k, baseOffset (m.mem i) = Tiling.start m.sizes i := by
  intro i
  induction i with
  | zero =>
      intro hi
      rw [h.offset 0 hi, Tiling.start_zero]
  | succ i ih =>
      intro hi
      have hprev := ih (by omega)
      have hlow := hpos i (by omega)
      have hsize : m.sizes i < 32768 := chunkSize_lt _
      rw [h.offset (i + 1) hi, Tiling.start_succ]
      exact Nat.mod_eq_of_lt (by omega)

/-- Words with small offsets are compared as the offsets are. -/
theorem offsetComparator_le {a b : Word} (ha : baseOffset a < 32768) (hb : baseOffset b < 32768)
    (h : baseOffset a ≤ baseOffset b) : offsetComparator a b = 0 ∨ offsetComparator a b = -1 := by
  have hint : ∀ w : Word, baseOffset w < 32768 → w.toInt / 65536 = baseOffset w := by
    intro w hw
    rw [baseOffset] at hw ⊢
    rw [BitVec.toInt_eq_toNat_of_lt (by omega)]
    rfl
  simp only [offsetComparator, hint a ha, hint b hb]
  by_cases hlt : (baseOffset a : Int) < baseOffset b
  · rw [if_neg (by omega), if_pos hlt]
    exact Or.inr rfl
  · rw [if_neg (by omega), if_neg hlt]
    exact Or.inl rfl

theorem firstUnused_packed {m : Allocator} {k : Nat} (h : Packed m k) (hk : k < numOfSlots)
    (n : Nat) : ∀ i, i ≤ k → k < i + n → m.firstUnused n i = some k := by
  induction n with
  | zero => intro i hik hkn; omega
  | succ n ih =>
      intro i hik hkn
      rw [firstUnused]
      rcases Nat.eq_or_lt_of_le hik with rfl | hlt
      · rw [if_pos (h.rest i (le_refl i) hk)]
      · have hused : m.mem i ≠ unused := fun hc => h.used hlt (by rw [hc]; exact unused_fields.2.1)
        rw [if_neg hused]
        exact ih (i + 1) hlt (by omega)

/-- When the search has found an entry, what remains is the sort and the loop. -/
theorem defrag_found {m : Allocator} {r1 : Word} {index : Nat} (hreleased : m.mutex ≠ locked)
    (hfound : ({ m with mutex := r1 } : Allocator).firstUnused m.ramWords 0 = some index) :
    m.defrag r1 = (mergeRounds ((index : Int) - 1) ((index : Int) - 1).toNat 0
      { m with mem := quicksort offsetComparator m.mem 0 ((index : Int) - 1), mutex := r1 }).map
        releaseMutex := by
  rw [defrag, lockMutex_free r1 hreleased]
  simp only [hfound]
  cases mergeRounds ((index : Int) - 1) ((index : Int) - 1).toNat 0
      { m with mem := quicksort offsetComparator m.mem 0 ((index : Int) - 1), mutex := r1 } with
  | none => rfl
  | some m' => rfl

/-- `defrag` of a table with `k` used entries is the sort and the loop. -/
theorem defrag_sorted {m : Allocator} {k : Nat} (h : Packed m k) (hk : k < numOfSlots)
    (hram : numOfSlots ≤ m.ramWords) (hreleased : m.mutex ≠ locked) (r1 : Word) :
    m.defrag r1 = (mergeRounds ((k : Int) - 1) (k - 1) 0
      { m with mem := quicksort offsetComparator m.mem 0 ((k : Int) - 1), mutex := r1 }).map
        releaseMutex := by
  have hfirst : ({ m with mutex := r1 } : Allocator).firstUnused m.ramWords 0 = some k :=
    firstUnused_packed (m := { m with mutex := r1 }) (packed_same h rfl rfl) hk m.ramWords 0
      (Nat.zero_le k) (by omega)
  rw [defrag_found hreleased hfirst, show ((k : Int) - 1).toNat = k - 1 by omega]

/-- The sort leaves a table whose offsets are positive as it is. -/
theorem quicksort_packed {m : Allocator} {k : Nat} (h : Packed m k)
    (hpos : ∀ i < k, baseOffset (m.mem i) < 32768) :
    quicksort offsetComparator m.mem 0 ((k : Int) - 1) = m.mem := by
  have hoffset := start_of_positive h hpos
  have hordered : Ordered offsetComparator m.mem 0 ((k : Int) - 1) := by
    intro i j hlow hij hhigh
    have hi : i.toNat < k := by omega
    have hj : j.toNat < k := by omega
    refine offsetComparator_le (hpos _ hi) (hpos _ hj) ?_
    rw [hoffset _ hi, hoffset _ hj]
    exact Tiling.start_mono m.sizes (by omega)
  exact quicksort_ordered _ hordered

/-- On such a table `defrag` is its loop. -/
theorem defrag_eq {m : Allocator} {k : Nat} (h : Packed m k) (hk : k < numOfSlots)
    (hram : numOfSlots ≤ m.ramWords) (hreleased : m.mutex ≠ locked)
    (hpos : ∀ i < k, baseOffset (m.mem i) < 32768) (r1 : Word) :
    m.defrag r1 =
      (mergeRounds ((k : Int) - 1) (k - 1) 0 { m with mutex := r1 }).map releaseMutex := by
  rw [defrag_sorted h hk hram hreleased, quicksort_packed h hpos]

theorem occupiedEntries_eq {m : Allocator} {k : Nat} (hk : k ≤ numOfSlots)
    (hrest : ∀ i, k ≤ i → i < numOfSlots → m.mem i = unused) :
    m.occupiedEntries = m.occupiedFrom 0 k := by
  have htail : m.occupiedFrom (0 + k) (numOfSlots - k) = [] := occupiedFrom_free fun i hi => by
    rw [hrest _ (by omega) (by omega)]
    exact unused_fields.2.2
  rw [occupiedEntries, show numOfSlots = k + (numOfSlots - k) by omega, occupiedFrom_add, htail,
    List.append_nil]

/-- The invariant of the loop, when the loop is done. -/
theorem Compacting.compacted {m m' : Allocator} {k c : Nat} (h : Packed m k)
    (hc : Compacting m m' k (k - 1) c) : Compacted m m' := by
  have hle := hc.le
  have hbound := h.bound
  refine ⟨?_, ?_, c, by omega, fun i hi => hc.used hi, hc.offset, hc.rest,
    fun i hi => hc.apart i (by omega) hi⟩
  · rw [occupiedEntries_eq h.bound h.rest, occupiedEntries_eq (by omega) hc.rest, hc.occupied]
  · have htotal : m'.usedBytes = Tiling.start m'.sizes c := by
      rw [usedBytes, Tiling.start_eq_of_empty (show c ≤ numOfSlots by omega) fun i hlow hhigh =>
        if_pos (hc.rest i hlow hhigh)]
      exact Tiling.start_congr fun i hi => if_neg (hc.used hi)
    rw [h.usedBytes_eq, ← hc.total, htotal]

/-- The invariant of the loop, when it begins. -/
theorem compacting_start {m : Allocator} {k : Nat} (h : Packed m k)
    (hoffset : ∀ i < k, baseOffset (m.mem i) = Tiling.start m.sizes i) (r1 : Word) :
    Compacting m { m with mutex := r1 } k 0 k :=
  ⟨rfl, le_refl k, hoffset, h.rounded, h.rest, rfl, rfl,
    fun i hi => absurd hi (Nat.not_lt_zero i),
    fun i _ _ => by rw [Nat.sub_self, Nat.add_zero], fun _ _ => rfl, fun _ _ _ => rfl⟩

/-- A table that meets the condition is compacted. -/
theorem defrag_compacts {m : Allocator} {k : Nat} (h : Packed m k) (hk : k < numOfSlots)
    (hram : numOfSlots ≤ m.ramWords) (hcond : Mergeable m k) (r1 : Word) :
    ∃ m', m.defrag r1 = some m' ∧ Compacted m m' := by
  have hoffset := start_of_positive h hcond.positive
  have hstart := compacting_start h hoffset r1
  have hloop : ∃ m' c, mergeRounds ((k : Int) - 1) (k - 1) 0 { m with mutex := r1 } = some m' ∧
      Compacting m m' k (k - 1) c := by
    rcases Nat.eq_zero_or_pos k with rfl | hpos
    · exact ⟨_, 0, rfl, hstart⟩
    · rcases compacting_rounds hcond hk hram (k - 1) 0 k _ (by omega) hstart
        (fun hc => absurd hc (lt_irrefl k)) with ⟨m', c, hrounds, hc⟩
      rw [Nat.zero_add] at hc
      exact ⟨m', c, hrounds, hc⟩
  rcases hloop with ⟨m', c, hrounds, hc⟩
  refine ⟨m'.releaseMutex, ?_, ?_⟩
  · rw [defrag_eq h hk hram hcond.released hcond.positive r1, hrounds]
    rfl
  · rcases hc.compacted h with ⟨hocc, htotal, htiled⟩
    exact ⟨hocc, htotal, htiled⟩

theorem usedEntries_eq {m : Allocator} {k : Nat} (h : Packed m k) : m.usedEntries = k := by
  have hsplit : numOfSlots = k + (numOfSlots - k) := by
    have hbound := h.bound
    omega
  have hused : Nat.count (fun i => m.mem i ≠ unused) k = k :=
    Nat.count_iff_forall.mpr fun i hi hc => h.used hi (by rw [hc]; exact unused_fields.2.1)
  have hrest : Nat.count (fun i => m.mem (k + i) ≠ unused) (numOfSlots - k) = 0 :=
    Nat.count_iff_forall_not.mpr fun i hi hc => hc (h.rest _ (Nat.le_add_right k i) (by omega))
  rw [usedEntries, hsplit, Nat.count_add, hused, hrest, Nat.add_zero]

theorem ramWords_allocated {m m' : Allocator} {r1 p : Word} {size : Nat}
    (h : Allocated m r1 size m' p) : m'.ramWords = m.ramWords := by
  cases h <;> rfl

theorem ramWords_deallocated {m m' : Allocator} {address p : Word}
    (h : Deallocated m address m' p) : m'.ramWords = m.ramWords := by
  cases h <;> rfl

/-- No call changes how large the memory is. -/
theorem ramWords_reachable {raw : Allocator} {startOsSection ramSize : Word} {es : List Request}
    {s : Client} (hrun : run clientStep es (initialClient raw startOsSection ramSize) = some s) :
    s.heap.ramWords = raw.ramWords := by
  refine run_preserves clientStep (fun s => s.heap.ramWords = raw.ramWords)
    (fun s e s' h hstep => ?_) es _ s rfl hrun
  rcases clientStep_heap hstep with ⟨r1, size, p, _, hcall⟩ | ⟨r1, address, p, _, hcall⟩
  · exact (ramWords_allocated hcall).trans h
  · exact (ramWords_deallocated hcall).trans h

/-- Every reachable table with an unused entry that meets the condition is
    compacted. -/
theorem defrag_preserves {raw : Allocator} {startOsSection ramSize r1 : Word} {es : List Request}
    {s : Client} (hram : numOfSlots ≤ raw.ramWords)
    (hrun : run clientStep es (initialClient raw startOsSection ramSize) = some s)
    (hunused : s.heap.usedEntries < numOfSlots) (hcond : Mergeable s.heap s.heap.usedEntries) :
    ∃ m', s.heap.defrag r1 = some m' ∧ Compacted s.heap m' := by
  rcases packed_reachable hrun with ⟨k, h⟩
  rw [usedEntries_eq h] at hunused hcond
  have hwords : numOfSlots ≤ s.heap.ramWords := by rwa [ramWords_reachable hrun]
  exact defrag_compacts h hunused hwords hcond r1

/-- Chunks of 8, 16, 24, 32 and 40 bytes; two pairs of neighbours are given
    back. -/
def freePairs : List Request :=
  [Request.allocate 7#32 8, Request.allocate 7#32 16, Request.allocate 7#32 24,
    Request.allocate 7#32 32, Request.allocate 7#32 40, Request.allocate 7#32 8,
    Request.deallocate 7#32 0x20001108#32, Request.deallocate 7#32 0x20001110#32,
    Request.deallocate 7#32 0x20001138#32, Request.deallocate 7#32 0x20001158#32]

theorem defrag_preserves_freePairs :
    Ends clientStep freePairs freshClient fun s =>
      ∃ m', s.heap.defrag 7#32 = some m' ∧ Compacted s.heap m' := by
  have hends : Ends clientStep freePairs freshClient fun s =>
      s.heap.usedEntries < numOfSlots ∧ Mergeable s.heap s.heap.usedEntries := by decide +kernel
  rcases hends with ⟨s, hrun, hunused, hcond⟩
  exact ⟨s, hrun, defrag_preserves (by decide) hrun hunused hcond⟩

/-- Four chunks; the first two and the last are given back. -/
def freeLast : List Request :=
  [Request.allocate 7#32 8, Request.allocate 7#32 8, Request.allocate 7#32 8,
    Request.allocate 7#32 8, Request.deallocate 7#32 0x20001108#32,
    Request.deallocate 7#32 0x20001110#32, Request.deallocate 7#32 0x20001120#32]

/-- The merge of the first two leaves an unused entry, and the last free entry
    takes it in. -/
theorem defrag_takes_unused :
    Ends clientStep freeLast freshClient fun s => s.heap.usedEntries < numOfSlots ∧
      ¬ ∃ m', s.heap.defrag 7#32 = some m' ∧ Compacted s.heap m' := by
  have hends : Ends clientStep freeLast freshClient fun s => s.heap.usedEntries = 4 ∧
      s.heap.mutex ≠ locked ∧ (∀ i < 4, baseOffset (s.heap.mem i) < 32768) ∧
      numOfSlots ≤ s.heap.ramWords ∧ s.heap.usedBytes = 32 ∧
      (mergeRounds 3 3 0 { s.heap with mutex := 7#32 }).map usedBytes = some 31 := by
    decide +kernel
  rcases hends with ⟨s, hrun, hfour, hreleased, hpos, hram, hbefore, hafter⟩
  rcases packed_reachable hrun with ⟨k, h⟩
  obtain rfl : k = 4 := by rw [← usedEntries_eq h, hfour]
  refine ⟨s, hrun, by rw [hfour]; decide, fun ⟨m', hdefrag, hcompacted⟩ => ?_⟩
  rw [defrag_eq h (by decide) hram hreleased hpos] at hdefrag
  rcases Option.map_eq_some_iff.mp hdefrag with ⟨m₁, hrounds, rfl⟩
  rw [show ((4 : Nat) : Int) - 1 = 3 by rfl] at hrounds
  rw [hrounds, Option.map_some, Option.some.injEq] at hafter
  have htotal : m₁.usedBytes = 32 := hcompacted.total.trans hbefore
  omega

end NextLevelRTOS
