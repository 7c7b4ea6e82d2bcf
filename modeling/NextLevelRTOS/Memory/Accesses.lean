import NextLevelRTOS.Memory.Defrag

/-!
# The Accesses of Defragmentation

Which words of the memory `defrag` reads and writes. The table is the first 64
of them; behind it the heap of the running task begins.

The sort keeps to its range. Of the other loops three never leave the table once
the search has found an unused entry in it; the search itself finds none in a
full table. The loop that moves entries up reads as many words as there are used
entries behind the merged one, beginning with the first it has not merged. So it
leaves the table exactly if a merge frees more entries than are unused.

A merge frees as many entries as there are pairs of free neighbours in its run.
One that reaches the last used entry takes in the entries that the merges before
it have freed, and frees them again.

What a loop does depends only on the words it reads. So as long as it reads the
table alone, the heap has no influence on the table.

## Main definitions

* `defragAccesses`: The words that are read and written.
* `StaysInTable`: `defrag` ends and leaves the heap alone.
* `RunsFit`: The condition on a sorted table.
* `Merging`: The invariant of the loop.

## Theorems

* `mergeRounds_inside`: When the loop stays in the table.
* `staysInTable_of_inside`: If it does, the heap has no influence.
* `defrag_inside_iff`: When `defrag` does.
-/

namespace NextLevelRTOS

open Machine

namespace Allocator

/-- What the search for an unused entry reads, with `n` words of memory to go.
    Behind the last word a read faults. -/
def firstUnusedAccesses (m : Allocator) : Nat → Nat → List Nat
  | 0, index => [index]
  | n + 1, index =>
    index :: if m.mem index = unused then [] else m.firstUnusedAccesses n (index + 1)

/-- What the search for the end of the free entries reads, with `n` words to go. -/
def freeEndAccesses (mem : Nat → Word) (highestUsedEntry : Int) : Nat → Nat → List Nat
  | 0, _ => []
  | n + 1, offsetIndex =>
    offsetIndex ::
      if isOccupied (mem offsetIndex) ∨ (offsetIndex : Int) > highestUsedEntry then []
      else freeEndAccesses mem highestUsedEntry n (offsetIndex + 1)

/-- What the loop that moves `n` words reads and writes. -/
def relocateAccesses (ramWords : Nat) : Nat → Nat → Nat → List Nat
  | 0, _, _ => []
  | n + 1, newLocation, offsetIndex =>
    offsetIndex ::
      if offsetIndex < ramWords then
        newLocation :: relocateAccesses ramWords n (newLocation + 1) (offsetIndex + 1)
      else []

/-- What one round of the loop of `defrag` reads and writes. -/
def mergeAtAccesses (baseIndex : Nat) (highestUsedEntry : Int) (m : Allocator) : List Nat :=
  let entry := m.mem baseIndex
  baseIndex ::
    if ¬ isOccupied entry ∧ entry ≠ unused then
      let remaining := (highestUsedEntry - baseIndex).toNat
      let offsetIndex := freeEnd m.mem highestUsedEntry (remaining + 1) (baseIndex + 1)
      freeEndAccesses m.mem highestUsedEntry (remaining + 1) (baseIndex + 1) ++
        if offsetIndex = baseIndex + 1 then []
        else
          -- the sum of the sizes, the merged entry, and what moves up
          List.range' baseIndex (offsetIndex - baseIndex) ++ baseIndex ::
            relocateAccesses m.ramWords remaining (baseIndex + 1) offsetIndex
    else []

/-- What the loop of `defrag` reads and writes, with `n` rounds to go. -/
def mergeRoundsAccesses (highestUsedEntry : Int) : Nat → Nat → Allocator → List Nat
  | 0, _, _ => []
  | n + 1, baseIndex, m =>
    mergeAtAccesses baseIndex highestUsedEntry m ++
      match mergeAt baseIndex highestUsedEntry m with
      | none => []
      | some m => mergeRoundsAccesses highestUsedEntry n (baseIndex + 1) m

/-- What `defrag` reads and writes beside the sort. -/
def defragAccesses (m : Allocator) (r1 : Word) : List Nat :=
  match m.lockMutex r1 with
  | none => []
  | some m =>
    m.firstUnusedAccesses m.ramWords 0 ++
      match m.firstUnused m.ramWords 0 with
      | none => []
      | some index =>
        let highestUsedEntry : Int := (index : Int) - 1
        let sorted := quicksort offsetComparator m.mem 0 highestUsedEntry
        mergeRoundsAccesses highestUsedEntry highestUsedEntry.toNat 0 { m with mem := sorted }

/-- The table, in front of another heap. -/
def withHeap (m : Allocator) (heap : Nat → Word) : Allocator :=
  { m with mem := fun i => if i < numOfSlots then m.mem i else heap i }

/-- The table as `defrag` sorts it. -/
def sortedTable (m : Allocator) : Allocator :=
  { m with mem := quicksort offsetComparator m.mem 0 ((m.usedEntries : Int) - 1) }

end Allocator

open Allocator

/-- All of the words are in the table. -/
def InTable (accesses : List Nat) : Prop := ∀ i ∈ accesses, i < numOfSlots

/-- `defrag` ends, reads and writes nothing behind the table, and the table it
    leaves is the same whatever is behind. -/
structure StaysInTable (m : Allocator) (r1 : Word) : Prop where
  ends : ∃ m', m.defrag r1 = some m'
  inside : InTable (m.defragAccesses r1)
  heap : ∀ heap, ∃ m' m'', m.defrag r1 = some m' ∧ (m.withHeap heap).defrag r1 = some m'' ∧
    ∀ i < numOfSlots, m''.mem i = m'.mem i

theorem inTable_nil : InTable [] := fun _ hi => absurd hi List.not_mem_nil

theorem inTable_cons {i : Nat} {accesses : List Nat} :
    InTable (i :: accesses) ↔ i < numOfSlots ∧ InTable accesses := List.forall_mem_cons

theorem inTable_append {accesses accesses' : List Nat} :
    InTable (accesses ++ accesses') ↔ InTable accesses ∧ InTable accesses' := List.forall_mem_append

theorem inTable_range {b n : Nat} (h : b + n ≤ numOfSlots) : InTable (List.range' b n) := by
  intro i hi
  rcases List.mem_range'_1.mp hi with ⟨-, hlt⟩
  omega

/-! ### The heap has no influence -/

/-- The memories are equally large and begin with the same table. -/
def SameTable (m m' : Allocator) : Prop :=
  m'.ramWords = m.ramWords ∧ ∀ i < numOfSlots, m'.mem i = m.mem i

section Heap

variable {m m' : Allocator}

theorem SameTable.store (h : SameTable m m') (i : Nat) (w : Word) :
    SameTable (m.store i w) (m'.store i w) := by
  refine ⟨h.1, fun n hn => ?_⟩
  simp only [Allocator.store]
  by_cases hni : n = i
  · rw [hni, Function.update_self, Function.update_self]
  · rw [Function.update_of_ne hni, Function.update_of_ne hni]
    exact h.2 n hn

theorem firstUnused_heap (h : SameTable m m') (n : Nat) : ∀ index,
    InTable (m.firstUnusedAccesses n index) → m'.firstUnused n index = m.firstUnused n index := by
  induction n with
  | zero => exact fun index _ => rfl
  | succ n ih =>
      intro index hinside
      rw [firstUnusedAccesses, inTable_cons] at hinside
      rw [firstUnused, firstUnused, h.2 index hinside.1]
      by_cases hunused : m.mem index = unused
      · rw [if_pos hunused, if_pos hunused]
      · rw [if_neg hunused] at hinside ⊢
        rw [if_neg hunused]
        exact ih (index + 1) hinside.2

theorem freeEnd_heap (h : SameTable m m') (highestUsedEntry : Int) (n : Nat) : ∀ offsetIndex,
    InTable (freeEndAccesses m.mem highestUsedEntry n offsetIndex) →
      freeEnd m'.mem highestUsedEntry n offsetIndex =
        freeEnd m.mem highestUsedEntry n offsetIndex := by
  induction n with
  | zero => exact fun offsetIndex _ => rfl
  | succ n ih =>
      intro offsetIndex hinside
      rw [freeEndAccesses, inTable_cons] at hinside
      rw [freeEnd, freeEnd, h.2 offsetIndex hinside.1]
      by_cases hend : isOccupied (m.mem offsetIndex) = true ∨ (offsetIndex : Int) > highestUsedEntry
      · rw [if_pos hend, if_pos hend]
      · rw [if_neg hend] at hinside ⊢
        rw [if_neg hend]
        exact ih (offsetIndex + 1) hinside.2

/-- As long as it reads the table, the loop that moves entries up does not fault. -/
theorem relocate_heap (n : Nat) : ∀ (newLocation offsetIndex : Nat) (m m' : Allocator),
    SameTable m m' → numOfSlots ≤ m.ramWords →
    InTable (relocateAccesses m.ramWords n newLocation offsetIndex) →
      ∃ m₁ m₁', relocate n newLocation offsetIndex m = some m₁ ∧
        relocate n newLocation offsetIndex m' = some m₁' ∧ SameTable m₁ m₁' := by
  induction n with
  | zero => exact fun _ _ m m' h _ _ => ⟨m, m', rfl, rfl, h⟩
  | succ n ih =>
      intro newLocation offsetIndex m m' h hram hinside
      rw [relocateAccesses, inTable_cons] at hinside
      rcases hinside with ⟨hread, hrest⟩
      have hin : offsetIndex < m.ramWords := Nat.lt_of_lt_of_le hread hram
      rw [if_pos hin, inTable_cons] at hrest
      rw [relocate, relocate, if_pos hin, if_pos (by rwa [h.1]), h.2 offsetIndex hread]
      exact ih _ _ _ _ (h.store newLocation _) hram hrest.2

theorem mergeAt_heap {baseIndex : Nat} {highestUsedEntry : Int} (h : SameTable m m')
    (hram : numOfSlots ≤ m.ramWords)
    (hinside : InTable (mergeAtAccesses baseIndex highestUsedEntry m)) :
    ∃ m₁ m₁', mergeAt baseIndex highestUsedEntry m = some m₁ ∧
      mergeAt baseIndex highestUsedEntry m' = some m₁' ∧ SameTable m₁ m₁' := by
  simp only [mergeAtAccesses, inTable_cons] at hinside
  rcases hinside with ⟨hbase, hinside⟩
  simp only [mergeAt, h.2 baseIndex hbase]
  by_cases hentry : ¬ isOccupied (m.mem baseIndex) = true ∧ m.mem baseIndex ≠ unused
  · simp only [if_pos hentry, inTable_append] at hinside ⊢
    rcases hinside with ⟨hsearch, hinside⟩
    -- Both searches end at the same entry.
    rw [freeEnd_heap h _ _ _ hsearch]
    generalize freeEnd m.mem highestUsedEntry ((highestUsedEntry - baseIndex).toNat + 1)
      (baseIndex + 1) = offsetIndex at hinside ⊢
    by_cases hgap : offsetIndex = baseIndex + 1
    · simp only [if_pos hgap]
      exact ⟨m, m', rfl, rfl, h⟩
    · simp only [if_neg hgap, inTable_append, inTable_cons] at hinside ⊢
      rcases hinside with ⟨hsizes, -, hmove⟩
      -- The sum is taken over entries of the table.
      have hread : ∀ k ∈ List.range (offsetIndex - baseIndex),
          m'.mem (baseIndex + k) = m.mem (baseIndex + k) := by
        intro k hk
        rw [List.mem_range] at hk
        exact h.2 _ (hsizes _ (List.mem_range'_1.mpr ⟨Nat.le_add_right _ _, by omega⟩))
      have hsum : (List.range (offsetIndex - baseIndex)).foldl
          (fun newSize k => newSize + BitVec.ofNat 32 (chunkSize (m'.mem (baseIndex + k)))) 0#32 =
          (List.range (offsetIndex - baseIndex)).foldl
            (fun newSize k => newSize + BitVec.ofNat 32 (chunkSize (m.mem (baseIndex + k)))) 0#32 :=
        List.foldl_ext _ _ _ fun newSize k hk => by rw [hread k hk]
      rw [hsum]
      exact relocate_heap _ _ _ _ _ (h.store baseIndex _) hram hmove
  · simp only [if_neg hentry]
    exact ⟨m, m', rfl, rfl, h⟩

theorem mergeRounds_heap (highestUsedEntry : Int) (n : Nat) :
    ∀ (baseIndex : Nat) (m m' : Allocator), SameTable m m' → numOfSlots ≤ m.ramWords →
      InTable (mergeRoundsAccesses highestUsedEntry n baseIndex m) →
        ∃ m₁ m₁', mergeRounds highestUsedEntry n baseIndex m = some m₁ ∧
          mergeRounds highestUsedEntry n baseIndex m' = some m₁' ∧ SameTable m₁ m₁' := by
  induction n with
  | zero => exact fun _ m m' h _ _ => ⟨m, m', rfl, rfl, h⟩
  | succ n ih =>
      intro baseIndex m m' h hram hinside
      rw [mergeRoundsAccesses, inTable_append] at hinside
      rcases mergeAt_heap h hram hinside.1 with ⟨m₁, m₁', hround, hround', h₁⟩
      have hram₁ : m₁.ramWords = m.ramWords := by
        rcases mergeAt_frame hround with ⟨mem, rfl⟩
        rfl
      simp only [hround] at hinside
      rw [mergeRounds, mergeRounds, hround, hround']
      exact ih (baseIndex + 1) m₁ m₁' h₁ (by rwa [hram₁]) hinside.2

/-- A search that stays in the table finds an unused entry there. -/
theorem firstUnused_inside (n : Nat) : ∀ index, numOfSlots ≤ index + n →
    InTable (m.firstUnusedAccesses n index) → ∃ i < numOfSlots, m.firstUnused n index = some i := by
  induction n with
  | zero =>
      intro index hend hinside
      exact absurd (inTable_cons.mp hinside).1 (Nat.not_lt_of_le hend)
  | succ n ih =>
      intro index hend hinside
      rw [firstUnusedAccesses, inTable_cons] at hinside
      rw [firstUnused]
      by_cases hunused : m.mem index = unused
      · rw [if_pos hunused]
        exact ⟨index, hinside.1, rfl⟩
      · rw [if_neg hunused] at hinside ⊢
        exact ih (index + 1) (by omega) hinside.2

theorem quicksort_heap (h : SameTable m m') {hi : Int} (hhi : hi < numOfSlots) :
    SameTable { m with mem := quicksort offsetComparator m.mem 0 hi }
      { m' with mem := quicksort offsetComparator m'.mem 0 hi } := by
  refine ⟨h.1, fun i hin => ?_⟩
  have hagree : AgreeOn (fun _ => True) 0 hi m'.mem m.mem := fun x _ hx =>
    ⟨h.2 x (by omega), trivial⟩
  by_cases hi' : (i : Int) ≤ hi
  · exact (quicksortR_agree offsetComparator hagree i (by omega) hi').1
  · change quicksortR offsetComparator m'.mem 0 hi i = quicksortR offsetComparator m.mem 0 hi i
    rw [quicksortR_frame offsetComparator _ _ _ _ (Or.inr (by omega)),
      quicksortR_frame offsetComparator _ _ _ _ (Or.inr (by omega))]
    exact h.2 i hin

/-- As long as `defrag` reads the table alone it ends, and the heap has no
    influence on the table. -/
theorem staysInTable_of_inside {r1 : Word} (hram : numOfSlots ≤ m.ramWords)
    (hreleased : m.mutex ≠ locked) (hinside : InTable (m.defragAccesses r1)) :
    StaysInTable m r1 := by
  have hlock : ∀ heap, (m.withHeap heap).mutex ≠ locked := fun heap => hreleased
  have hall : ∀ heap, ∃ m₁ m₁', m.defrag r1 = some m₁ ∧
      (m.withHeap heap).defrag r1 = some m₁' ∧ ∀ i < numOfSlots, m₁'.mem i = m₁.mem i := by
    intro heap
    have hsame : SameTable { m with mutex := r1 } { m.withHeap heap with mutex := r1 } :=
      ⟨rfl, fun i hi => if_pos hi⟩
    simp only [defragAccesses, lockMutex_free r1 hreleased, inTable_append] at hinside
    rcases hinside with ⟨hsearch, hinside⟩
    -- What the scan reads lies in the table, so another heap gives the same index.
    have hfirst := firstUnused_heap hsame m.ramWords 0 hsearch
    rcases firstUnused_inside m.ramWords 0 (by omega) hsearch with ⟨index, hindex, hfound⟩
    simp only [hfound] at hinside hfirst
    have hlast : (index : Int) - 1 < numOfSlots := by omega
    rcases mergeRounds_heap _ _ _ _ _ (quicksort_heap hsame hlast) hram hinside with
      ⟨m₁, m₁', hrounds, hrounds', h₁⟩
    refine ⟨m₁.releaseMutex, m₁'.releaseMutex, ?_, ?_, h₁.2⟩
    · rw [defrag_found hreleased hfound, hrounds]
      rfl
    · rw [defrag_found (m := m.withHeap heap) (hlock heap) hfirst, hrounds']
      rfl
  rcases hall fun _ => 0#32 with ⟨m', -, hdefrag, -⟩
  exact ⟨⟨m', hdefrag⟩, hinside, hall⟩

end Heap

/-! ### When the loops stay in the table -/

/-- The number of pairs of free neighbours among the first `n`. -/
def freeNeighbours (m : Allocator) (n : Nat) : Nat := Nat.count (fun i => FreeRun m i (i + 2)) n

/-- The condition on the entries of a sorted table from `p` on, of which the first
    `k` are used: no run of free entries frees more entries in a merge than are
    unused, and neither do all together if the last used entry is free. -/
structure RunsFitFrom (m : Allocator) (k p : Nat) : Prop where
  spare : ∀ i j, p ≤ i → i < j → j ≤ k → FreeRun m i j → j - i - 1 ≤ numOfSlots - k
  last : p < k → isOccupied (m.mem (k - 1)) = false → freeNeighbours m (k - 1) ≤ numOfSlots - k

/-- The condition on a sorted table. -/
def RunsFit (m : Allocator) (k : Nat) : Prop := RunsFitFrom m k 0

instance (m : Allocator) (k : Nat) : Decidable (RunsFit m k) :=
  decidable_of_iff ((∀ j ≤ k, ∀ i < j, FreeRun m i j → j - i - 1 ≤ numOfSlots - k) ∧
      (0 < k → isOccupied (m.mem (k - 1)) = false →
        Nat.count (fun i => FreeRun m i (i + 2)) (k - 1) ≤ numOfSlots - k))
    ⟨fun ⟨hspare, hlast⟩ => ⟨fun i j _ hij hj => hspare j hj i hij, hlast⟩,
      fun h => ⟨fun j hj i hij => h.spare i j (Nat.zero_le i) hij hj, h.last⟩⟩

section Runs

variable {m : Allocator} {k p q : Nat}

theorem freeNeighbours_succ (m : Allocator) (n : Nat) :
    freeNeighbours m (n + 1) = freeNeighbours m n + if FreeRun m n (n + 2) then 1 else 0 :=
  Nat.count_succ _ n

/-- An occupied entry has no free neighbour. -/
theorem freeNeighbours_occupied (h : isOccupied (m.mem q) = true) :
    freeNeighbours m (q + 1) = freeNeighbours m q := by
  rw [freeNeighbours_succ, if_neg, Nat.add_zero]
  intro hrun
  rw [hrun q (le_refl q) (by omega)] at h
  exact Bool.false_ne_true h

/-- In a free run all but the last have a free neighbour behind them. -/
theorem freeNeighbours_run (hpq : p < q) (hrun : FreeRun m p q) :
    freeNeighbours m (q - 1) = freeNeighbours m p + (q - 1 - p) := by
  obtain ⟨d, rfl⟩ : ∃ d, q = p + d + 1 := ⟨q - p - 1, by omega⟩
  have hall : Nat.count (fun i => FreeRun m (p + i) (p + i + 2)) d = d :=
    Nat.count_iff_forall.mpr fun i hi n hlow hhigh => hrun n (by omega) (by omega)
  rw [Nat.add_sub_cancel, freeNeighbours, Nat.count_add, hall, Nat.add_sub_cancel_left]
  rfl

/-- The last of a run has an occupied one behind it. -/
theorem freeNeighbours_runEnd (hpq : p < q) (hrun : FreeRun m p q)
    (hocc : isOccupied (m.mem q) = true) :
    freeNeighbours m q = freeNeighbours m p + (q - 1 - p) := by
  have hlast : ¬ FreeRun m (q - 1) (q - 1 + 2) := fun hfree => by
    rw [hfree q (by omega) (by omega)] at hocc
    exact Bool.false_ne_true hocc
  have hsucc := freeNeighbours_succ m (q - 1)
  rw [if_neg hlast, Nat.sub_add_cancel (by omega), freeNeighbours_run hpq hrun] at hsucc
  exact hsucc

/-- Behind the used entries there is nothing to merge. -/
theorem runsFitFrom_end (h : k ≤ p) : RunsFitFrom m k p :=
  ⟨fun i j hpi hij hj => by omega, fun hp => by omega⟩

theorem runsFitFrom_occupied (hp : p < k) (hocc : isOccupied (m.mem p) = true) :
    RunsFitFrom m k p ↔ RunsFitFrom m k (p + 1) := by
  constructor
  · exact fun h => ⟨fun i j hi => h.spare i j (by omega), fun hlt => h.last (by omega)⟩
  · intro h
    refine ⟨fun i j hi hij hj hrun => ?_, fun _ hlast => ?_⟩
    · rcases Nat.eq_or_lt_of_le hi with rfl | hlt
      · rw [hrun p (le_refl p) hij] at hocc
        exact absurd hocc Bool.false_ne_true
      · exact h.spare i j hlt hij hj hrun
    · refine h.last ?_ hlast
      by_contra hend
      rw [show k - 1 = p by omega, hocc] at hlast
      exact Bool.noConfusion hlast

/-- A free run that ends before the last used entry. -/
theorem runsFitFrom_run (hpq : p < q) (hqk : q < k) (hrun : FreeRun m p q)
    (hocc : isOccupied (m.mem q) = true) :
    RunsFitFrom m k p ↔ q - p - 1 ≤ numOfSlots - k ∧ RunsFitFrom m k q := by
  constructor
  · exact fun h => ⟨h.spare p q (le_refl p) hpq (by omega) hrun,
      fun i j hi => h.spare i j (by omega), fun _ => h.last (by omega)⟩
  · rintro ⟨hspare, h⟩
    refine ⟨fun i j hi hij hj hfree => ?_, fun _ => h.last hqk⟩
    by_cases hiq : q ≤ i
    · exact h.spare i j hiq hij hj hfree
    -- A run that begins before the occupied entry ends there.
    · have hjq : j ≤ q := by
        by_contra hgt
        rw [hfree q (by omega) (by omega)] at hocc
        exact Bool.false_ne_true hocc
      omega

/-- A free run that ends with the last used entry. -/
theorem runsFitFrom_last (hp : p < k) (hrun : FreeRun m p k) :
    RunsFitFrom m k p ↔ freeNeighbours m (k - 1) ≤ numOfSlots - k := by
  have hcount := freeNeighbours_run hp hrun
  constructor
  · exact fun h => h.last hp (hrun (k - 1) (by omega) (by omega))
  · exact fun h => ⟨fun i j hi hij hj _ => by omega, fun _ _ => h⟩

end Runs

theorem freeEndAccesses_inside (mem : Nat → Word) {highestUsedEntry : Int}
    (hhigh : highestUsedEntry + 1 < numOfSlots) (n : Nat) :
    ∀ offsetIndex : Nat, (offsetIndex : Int) ≤ highestUsedEntry + 1 →
      InTable (freeEndAccesses mem highestUsedEntry n offsetIndex) := by
  induction n with
  | zero => exact fun _ _ => inTable_nil
  | succ n ih =>
      intro offsetIndex hle
      rw [freeEndAccesses, inTable_cons]
      refine ⟨by omega, ?_⟩
      split
      · exact inTable_nil
      · rename_i hgo
        rw [not_or] at hgo
        exact ih (offsetIndex + 1) (by omega)

/-- The loop that moves `n` entries up stays in the table exactly if the last one
    it reads is in the table. -/
theorem relocateAccesses_inside {ramWords : Nat} (hram : numOfSlots ≤ ramWords) (n : Nat) :
    ∀ newLocation offsetIndex, 0 < n → newLocation ≤ offsetIndex →
      (InTable (relocateAccesses ramWords n newLocation offsetIndex) ↔
        offsetIndex + n ≤ numOfSlots) := by
  -- The last word read is the one that lies furthest behind.
  induction n with
  | zero => exact fun _ _ hn => absurd hn (lt_irrefl 0)
  | succ n ih =>
      intro newLocation offsetIndex _ hle
      rw [relocateAccesses, inTable_cons]
      by_cases hin : offsetIndex < numOfSlots
      · rw [if_pos (by omega), inTable_cons]
        rcases Nat.eq_zero_or_pos n with rfl | hn
        · exact iff_of_true ⟨hin, by omega, inTable_nil⟩ (by omega)
        · rw [ih (newLocation + 1) (offsetIndex + 1) hn (by omega)]
          constructor
          · rintro ⟨-, -, hrest⟩
            omega
          · exact fun hrest => ⟨hin, by omega, by omega⟩
      · exact iff_of_false (fun h => hin h.1) (by omega)

section Round

variable {m m₀ : Allocator} {b c k : Nat}

/-- The search for the end of the free entries ends behind the run. -/
theorem freeEnd_eq {j : Nat} (hb : b + 1 < k) (hbj : b < j) (hjk : j ≤ k) (hrun : FreeRun m b j)
    (hend : j = k ∨ isOccupied (m.mem j) = true) :
    freeEnd m.mem ((k : Int) - 1) (k - 1 - b + 1) (b + 1) = j := by
  rcases freeEnd_spec m.mem ((k : Int) - 1) (k - 1 - b + 1) (b + 1) with ⟨hlow, _, hfree, hstop⟩
  generalize freeEnd m.mem ((k : Int) - 1) (k - 1 - b + 1) (b + 1) = e at hlow hfree hstop ⊢
  rcases Nat.lt_trichotomy e j with hlt | heq | hgt
  · rcases hstop with hstop | hocc | hpast
    · omega
    · rw [hrun e (by omega) hlt] at hocc
      exact absurd hocc Bool.false_ne_true
    · omega
  · exact heq
  · rcases hfree j hbj hgt with ⟨hjfree, hjle⟩
    rcases hend with hend | hocc
    · omega
    · rw [hjfree] at hocc
      exact absurd hocc Bool.false_ne_true

/-- A round that finds nothing to merge. -/
theorem mergeAt_skip (h : ¬ (¬ isOccupied (m.mem b) = true ∧ m.mem b ≠ unused))
    (highestUsedEntry : Int) :
    mergeAt b highestUsedEntry m = some m ∧ mergeAtAccesses b highestUsedEntry m = [b] := by
  simp only [mergeAt, mergeAtAccesses]
  exact ⟨if_neg h, congrArg _ (if_neg h)⟩

/-- A merge stays in the table exactly if it frees no more entries than are
    unused. -/
theorem mergeAtAccesses_inside (hk : k < numOfSlots) (hram : numOfSlots ≤ m.ramWords)
    (hb : b + 1 < k) (hfree : isOccupied (m.mem b) = false) (hused : m.mem b ≠ unused) {j : Nat}
    (hbj : b < j) (hjk : j ≤ k) (hrun : FreeRun m b j)
    (hend : j = k ∨ isOccupied (m.mem j) = true) :
    InTable (mergeAtAccesses b ((k : Int) - 1) m) ↔ j - b - 1 ≤ numOfSlots - k := by
  have hentry : ¬ isOccupied (m.mem b) = true ∧ m.mem b ≠ unused := by
    rw [hfree]
    exact ⟨Bool.false_ne_true, hused⟩
  have hremaining : ((k : Int) - 1 - b).toNat = k - 1 - b := by omega
  -- The search for the end of the run never leaves the used entries.
  have hsearch : InTable (freeEndAccesses m.mem ((k : Int) - 1) (k - 1 - b + 1) (b + 1)) :=
    freeEndAccesses_inside m.mem (by omega) _ _ (by omega)
  simp only [mergeAtAccesses, hremaining, freeEnd_eq hb hbj hjk hrun hend, if_pos hentry,
    inTable_cons, inTable_append]
  by_cases hj : j = b + 1
  -- Nothing behind `b` is free, so nothing is relocated.
  · rw [if_pos hj]
    exact iff_of_true ⟨by omega, hsearch, inTable_nil⟩ (by omega)
  · rw [if_neg hj, inTable_append, inTable_cons,
      relocateAccesses_inside hram (k - 1 - b) (b + 1) j (by omega) hbj]
    constructor
    · rintro ⟨-, -, -, -, hmove⟩
      omega
    · exact fun hspare => ⟨by omega, hsearch, inTable_range (by omega), by omega, by omega⟩

/-- The loop is about to look at entry `b`, and has stayed in the table. Of the `k`
    entries of `m₀` that were used, `k - c` have been merged away; from `b` on the
    used ones are still those of `m₀`, and there have been as many free
    neighbours. -/
structure Merging (m₀ m : Allocator) (k b c : Nat) : Prop where
  ram : m.ramWords = m₀.ramWords
  le : c ≤ k
  rest : ∀ i, b ≤ i → c ≤ i → i < numOfSlots → m.mem i = unused
  suffix : ∀ i, b ≤ i → i < c → m.mem i = m₀.mem (i + (k - c))
  merged : b < c → k - c = freeNeighbours m₀ (b + (k - c))

/-- A free run of the working table is one of the sorted table. -/
theorem Merging.freeRun (h : Merging m₀ m k b c) {j : Nat} (hj : j ≤ c) (hrun : FreeRun m b j) :
    FreeRun m₀ (b + (k - c)) (j + (k - c)) := by
  intro n hlow hhigh
  have hmem := h.suffix (n - (k - c)) (by omega) (by omega)
  rw [Nat.sub_add_cancel (by omega)] at hmem
  rw [← hmem]
  exact hrun _ (by omega) (by omega)

/-- A merge that stays in the table. -/
theorem Merging.merge (h : Merging m₀ m k b c) {m' : Allocator} {j : Nat} (hk : k < numOfSlots)
    (hbj : b < j) (hjk : j ≤ k) (hspare : j - b - 1 ≤ numOfSlots - k) (hmerged : Merged m b j k m')
    (hcount : b + 1 < c - (j - b - 1) →
      freeNeighbours m₀ (j + (k - c)) = freeNeighbours m₀ (b + (k - c)) + (j - b - 1)) :
    Merging m₀ m' k (b + 1) (c - (j - b - 1)) := by
  have hle := h.le
  refine ⟨hmerged.ram.trans h.ram, by omega, fun i hb hc hi => ?_, fun i hb hc => ?_, fun hc => ?_⟩
  · by_cases hik : i < k
    · rw [hmerged.moved i hb hik]
      exact h.rest _ (by omega) (by omega) (by omega)
    · rw [hmerged.behind i (Nat.le_of_not_lt hik)]
      exact h.rest i (by omega) (by omega) hi
  · rw [hmerged.moved i hb (by omega), h.suffix _ (by omega) (by omega)]
    exact congrArg m₀.mem (by omega)
  · have hbefore := h.merged (by omega)
    rw [show b + 1 + (k - (c - (j - b - 1))) = j + (k - c) by omega, hcount hc]
    omega

/-- The loop goes on without a merge. -/
theorem Merging.next (h : Merging m₀ m k b c)
    (hcount : b + 1 < c → freeNeighbours m₀ (b + 1 + (k - c)) = freeNeighbours m₀ (b + (k - c))) :
    Merging m₀ m k (b + 1) c :=
  ⟨h.ram, h.le, fun i hb => h.rest i (by omega), fun i hb => h.suffix i (by omega),
    fun hc => by rw [hcount hc]; exact h.merged (by omega)⟩

/-- The round stays in the table and keeps the invariant, and the condition is left
    to the entries that come. -/
def Advances (m₀ m : Allocator) (k b c : Nat) : Prop :=
  InTable (mergeAtAccesses b ((k : Int) - 1) m) ∧
    ∃ m' c', mergeAt b ((k : Int) - 1) m = some m' ∧ Merging m₀ m' k (b + 1) c' ∧
      (RunsFitFrom m₀ k (b + (k - c)) ↔ RunsFitFrom m₀ k (b + 1 + (k - c')))

/-- A round that finds nothing to merge. -/
theorem Merging.advances_skip (hk : b < numOfSlots)
    (hskip : ¬ (¬ isOccupied (m.mem b) = true ∧ m.mem b ≠ unused))
    (hnext : Merging m₀ m k (b + 1) c)
    (hiff : RunsFitFrom m₀ k (b + (k - c)) ↔ RunsFitFrom m₀ k (b + 1 + (k - c))) :
    Advances m₀ m k b c := by
  rcases mergeAt_skip hskip ((k : Int) - 1) with ⟨heq, hacc⟩
  refine ⟨?_, m, c, heq, hnext, hiff⟩
  rw [hacc]
  exact inTable_cons.mpr ⟨hk, inTable_nil⟩

/-- A round over a free run that ends before the last used entry. -/
theorem Merging.advances_run (h : Merging m₀ m k b c) (hk : k < numOfSlots)
    (hram : numOfSlots ≤ m₀.ramWords) (hb : b + 1 < k) (hfree : isOccupied (m.mem b) = false)
    (hused : m.mem b ≠ unused) {j : Nat} (hbj : b < j) (hjc : j < c) (hrun : FreeRun m b j)
    (hocc : isOccupied (m.mem j) = true)
    (hor : InTable (mergeAtAccesses b ((k : Int) - 1) m) ∨ RunsFitFrom m₀ k (b + (k - c))) :
    Advances m₀ m k b c := by
  have hle := h.le
  have hocc₀ : isOccupied (m₀.mem (j + (k - c))) = true := by
    rwa [← h.suffix j (Nat.le_of_lt hbj) hjc]
  have hrun₀ := h.freeRun (Nat.le_of_lt hjc) hrun
  -- The run and what is behind it are two parts of the condition.
  have hiff : RunsFitFrom m₀ k (b + (k - c)) ↔ _ :=
    runsFitFrom_run (by omega) (by omega) hrun₀ hocc₀
  have hcount := freeNeighbours_runEnd (by omega) hrun₀ hocc₀
  rcases mergeAt_eq hfree hused hb with ⟨j', hbj', hjk', hrun', hend', heq⟩
  obtain rfl : j' = j := by
    rw [← freeEnd_eq hb hbj' hjk' hrun' hend', freeEnd_eq hb hbj (by omega) hrun (Or.inr hocc)]
  have hin := mergeAtAccesses_inside hk (by rwa [h.ram]) hb hfree hused hbj hjk' hrun hend'
  have hspare : j' - b - 1 ≤ numOfSlots - k := by
    rcases hor with hinside | hfits
    · exact hin.mp hinside
    · have hspare := (hiff.mp hfits).1
      omega
  refine ⟨hin.mpr hspare, ?_⟩
  by_cases hj : j' = b + 1
  · rw [if_pos hj] at heq
    subst hj
    exact ⟨m, c, heq, h.next fun _ => by omega, hiff.trans (and_iff_right (by omega))⟩
  · rw [if_neg hj] at heq
    rcases merge_eq (m := m) hbj hb (by rw [h.ram]; omega) with ⟨m', hmerge, hmerged⟩
    refine ⟨m', c - (j' - b - 1), heq.trans hmerge,
      h.merge hk hbj hjk' hspare hmerged fun _ => by omega, ?_⟩
    rw [show b + 1 + (k - (c - (j' - b - 1))) = j' + (k - c) by omega]
    exact hiff.trans (and_iff_right (by omega))

/-- A round over a free run that ends with the last used entry: it takes in what has
    been merged away. -/
theorem Merging.advances_last (h : Merging m₀ m k b c) (hk : k < numOfSlots)
    (hram : numOfSlots ≤ m₀.ramWords) (hb : b + 1 < k) (hbc : b < c)
    (hfree : isOccupied (m.mem b) = false) (hused : m.mem b ≠ unused) (hrun : FreeRun m b k)
    (hor : InTable (mergeAtAccesses b ((k : Int) - 1) m) ∨ RunsFitFrom m₀ k (b + (k - c))) :
    Advances m₀ m k b c := by
  have hle := h.le
  have hrun₀ := h.freeRun (le_refl c) fun n hlow hhigh => hrun n hlow (by omega)
  rw [Nat.add_sub_cancel' hle] at hrun₀
  -- All pairs of free neighbours are before the run or in it.
  have hcount := freeNeighbours_run (by omega) hrun₀
  have hbefore := h.merged hbc
  have hiff := runsFitFrom_last (by omega) hrun₀
  rcases mergeAt_eq hfree hused hb with ⟨j, hbj, hjk, hrun', hend, heq⟩
  obtain rfl : j = k := by
    rw [← freeEnd_eq hb hbj hjk hrun' hend, freeEnd_eq hb (by omega) (le_refl k) hrun (Or.inl rfl)]
  have hin := mergeAtAccesses_inside hk (by rwa [h.ram]) hb hfree hused hbj hjk hrun hend
  have hspare : j - b - 1 ≤ numOfSlots - j := by
    rcases hor with hinside | hfits
    · exact hin.mp hinside
    · have hlast := hiff.mp hfits
      omega
  rw [if_neg (by omega)] at heq
  rcases merge_eq (m := m) hbj hb (by rw [h.ram]; omega) with ⟨m', hmerge, hmerged⟩
  exact ⟨hin.mpr hspare, m', _, heq.trans hmerge,
    h.merge hk hbj hjk hspare hmerged fun hc => by omega,
    iff_of_true (hiff.mpr (by omega)) (runsFitFrom_end (by omega))⟩

/-- A round that stays in the table, or meets the condition, does both. -/
theorem merging_round (hk : k < numOfSlots) (hram : numOfSlots ≤ m₀.ramWords)
    (hall : ∀ i < k, m₀.mem i ≠ unused) (h : Merging m₀ m k b c) (hb : b + 1 < k)
    (hor : InTable (mergeAtAccesses b ((k : Int) - 1) m) ∨ RunsFitFrom m₀ k (b + (k - c))) :
    Advances m₀ m k b c := by
  have hle := h.le
  by_cases hbc : c ≤ b
  -- What has been merged away is unused.
  · have hunused := h.rest b (le_refl b) hbc (by omega)
    exact Merging.advances_skip (by omega) (fun hc => hc.2 hunused) (h.next fun hc => by omega)
      (iff_of_true (runsFitFrom_end (by omega)) (runsFitFrom_end (by omega)))
  have hmem := h.suffix b (le_refl b) (by omega)
  by_cases hocc : isOccupied (m.mem b) = true
  · have hocc₀ : isOccupied (m₀.mem (b + (k - c))) = true := by rwa [← hmem]
    refine Merging.advances_skip (by omega) (fun hc => hc.1 hocc) (h.next fun _ => ?_) ?_
    · rw [Nat.add_right_comm]
      exact freeNeighbours_occupied hocc₀
    · rw [Nat.add_right_comm b 1]
      exact runsFitFrom_occupied (by omega) hocc₀
  have hfree := Bool.eq_false_iff.mpr hocc
  have hused : m.mem b ≠ unused := by
    rw [hmem]
    exact hall _ (by omega)
  rcases mergeAt_eq hfree hused hb with ⟨j, hbj, hjk, hrun, hend, -⟩
  by_cases hjc : j < c
  · exact h.advances_run hk hram hb hfree hused hbj hjc hrun (hend.resolve_left (by omega)) hor
  · obtain rfl : j = k := by
      rcases hend with hend | hocc'
      · exact hend
      · by_contra hne
        rw [h.rest j (by omega) (by omega) (by omega), unused_fields.2.2] at hocc'
        exact Bool.false_ne_true hocc'
    exact h.advances_last hk hram hb (by omega) hfree hused hrun hor

end Round

/-- The loop stays in the table exactly if the condition is met. -/
theorem mergeRounds_inside {m₀ : Allocator} {k : Nat} (hk : k < numOfSlots)
    (hram : numOfSlots ≤ m₀.ramWords) (hall : ∀ i < k, m₀.mem i ≠ unused) (n : Nat) :
    ∀ (b c : Nat) (m : Allocator), b + n + 1 = k → Merging m₀ m k b c →
      (InTable (mergeRoundsAccesses ((k : Int) - 1) n b m) ↔ RunsFitFrom m₀ k (b + (k - c))) := by
  induction n with
  | zero =>
      intro b c m hn h
      have hle := h.le
      refine iff_of_true inTable_nil ?_
      by_cases hc : c < k
      · exact runsFitFrom_end (by omega)
      -- Nothing has been merged, so there are no free neighbours.
      · have hnone := h.merged (by omega)
        rw [show b + (k - c) = k - 1 by omega] at hnone ⊢
        exact ⟨fun i j hi hij hj _ => by omega, fun _ _ => by omega⟩
  | succ n ih =>
      intro b c m hn h
      rw [mergeRoundsAccesses, inTable_append]
      constructor
      · rintro ⟨hround, hrest⟩
        rcases merging_round hk hram hall h (by omega) (Or.inl hround) with
          ⟨-, m', c', heq, h', hiff⟩
        simp only [heq] at hrest
        exact hiff.mpr ((ih (b + 1) c' m' (by omega) h').mp hrest)
      · intro hfits
        rcases merging_round hk hram hall h (by omega) (Or.inr hfits) with
          ⟨hround, m', c', heq, h', hiff⟩
        simp only [heq]
        exact ⟨hround, (ih (b + 1) c' m' (by omega) h').mpr (hiff.mp hfits)⟩

/-! ### The whole of it -/

/-- The search reads all words up to the first unused one. -/
theorem mem_firstUnusedAccesses {m : Allocator} {i : Nat} (n : Nat) :
    ∀ index, index ≤ i → i ≤ index + n → (∀ j, index ≤ j → j < i → m.mem j ≠ unused) →
      i ∈ m.firstUnusedAccesses n index := by
  induction n with
  | zero =>
      intro index hlow hhigh _
      rw [show i = index by omega]
      exact List.mem_cons_self
  | succ n ih =>
      intro index hlow hhigh hused
      rw [firstUnusedAccesses]
      rcases Nat.eq_or_lt_of_le hlow with rfl | hlt
      · exact List.mem_cons_self
      · rw [if_neg (hused index (le_refl index) hlt)]
        exact List.mem_cons_of_mem _ (ih (index + 1) hlt (by omega) fun j hj => hused j (by omega))

/-- The search for an unused entry reads no word behind one. -/
theorem firstUnusedAccesses_inside {m : Allocator} {i : Nat} (hi : i < numOfSlots)
    (hunused : m.mem i = unused) (n : Nat) : ∀ index, index ≤ i → i < index + n →
      InTable (m.firstUnusedAccesses n index) := by
  induction n with
  | zero => intro index hlow hhigh; omega
  | succ n ih =>
      intro index hlow hhigh
      rw [firstUnusedAccesses, inTable_cons]
      refine ⟨by omega, ?_⟩
      by_cases hstop : m.mem index = unused
      · rw [if_pos hstop]
        exact inTable_nil
      · rw [if_neg hstop]
        refine ih (index + 1) (Nat.lt_of_le_of_ne hlow fun hc => hstop ?_) (by omega)
        rw [hc, hunused]

section Packed

variable {m : Allocator} {k : Nat}

/-- A table whose offsets are positive is sorted. -/
theorem sortedTable_packed (h : Packed m k) (hpos : ∀ i < k, baseOffset (m.mem i) < 32768) :
    m.sortedTable = m := by
  rw [sortedTable, usedEntries_eq h, quicksort_packed h hpos]

/-- The sort leaves the used entries in front of the others. -/
theorem sortedTable_used (h : Packed m k) :
    (∀ i < k, m.sortedTable.mem i ≠ unused) ∧
      ∀ i, k ≤ i → i < numOfSlots → m.sortedTable.mem i = unused := by
  have hused : AgreeOn (fun w => w ≠ unused) 0 ((k : Int) - 1) m.mem m.mem := fun x _ hx =>
    ⟨rfl, fun hc => h.used (show x < k by omega) (by rw [hc]; exact unused_fields.2.1)⟩
  rw [sortedTable, usedEntries_eq h]
  refine ⟨fun i hi => ?_, fun i hlow hhigh => ?_⟩
  · exact (quicksortR_agree offsetComparator hused i (by omega) (by omega)).2
  · change quicksortR offsetComparator m.mem 0 ((k : Int) - 1) i = unused
    rw [quicksortR_frame offsetComparator _ _ _ _ (Or.inr (by omega))]
    exact h.rest i hlow hhigh

/-- When `defrag` stays in a table with `k` used entries. -/
theorem defragAccesses_inside (h : Packed m k) (hram : numOfSlots ≤ m.ramWords) {r1 : Word}
    (hreleased : m.mutex ≠ locked) :
    InTable (m.defragAccesses r1) ↔ k < numOfSlots ∧ RunsFit m.sortedTable k := by
  rw [defragAccesses, lockMutex_free r1 hreleased]
  simp only [inTable_append]
  by_cases hk : k < numOfSlots
  · have hsearch :
        InTable (({ m with mutex := r1 } : Allocator).firstUnusedAccesses m.ramWords 0) :=
      firstUnusedAccesses_inside (m := { m with mutex := r1 }) hk (h.rest k (le_refl k) hk)
        m.ramWords 0 (Nat.zero_le k) (by omega)
    have hfirst : ({ m with mutex := r1 } : Allocator).firstUnused m.ramWords 0 = some k :=
      firstUnused_packed (m := { m with mutex := r1 }) (packed_same h rfl rfl) hk m.ramWords 0
        (Nat.zero_le k) (by omega)
    rcases sortedTable_used h with ⟨hused, hrest⟩
    simp only [hfirst, and_iff_right hsearch, and_iff_right hk, RunsFit,
      show ((k : Int) - 1).toNat = k - 1 by omega]
    rcases Nat.eq_zero_or_pos k with rfl | hpos
    · exact iff_of_true inTable_nil (runsFitFrom_end (le_refl 0))
    · have hstart : Merging m.sortedTable
          { m with mem := quicksort offsetComparator m.mem 0 ((k : Int) - 1), mutex := r1 }
          k 0 k := by
        have hmem : quicksort offsetComparator m.mem 0 ((k : Int) - 1) = m.sortedTable.mem := by
          rw [sortedTable, usedEntries_eq h]
        rw [hmem]
        exact ⟨rfl, le_refl k, fun i _ => hrest i, fun i _ _ => by rw [Nat.sub_self, Nat.add_zero],
          fun _ => by rw [Nat.sub_self]; rfl⟩
      have hloop := mergeRounds_inside hk (show numOfSlots ≤ m.sortedTable.ramWords from hram) hused
        (k - 1) 0 k _ (by omega) hstart
      rw [Nat.sub_self] at hloop
      exact hloop
  -- In a full table the search goes on behind its end.
  · have hfull : k = numOfSlots := by
      have hbound := h.bound
      omega
    refine iff_of_false (fun hin => ?_) fun hin => hk hin.1
    have hread := hin.1 _ (mem_firstUnusedAccesses (m := { m with mutex := r1 }) m.ramWords 0
      (Nat.zero_le k) (by omega) fun j _ hj hc => h.used hj (by
        rw [show m.mem j = unused from hc]
        exact unused_fields.2.1))
    omega

theorem staysInTable_packed (h : Packed m k) (hram : numOfSlots ≤ m.ramWords) (r1 : Word) :
    StaysInTable m r1 ↔ m.mutex ≠ locked ∧ k < numOfSlots ∧ RunsFit m.sortedTable k := by
  constructor
  · intro hstays
    rcases hstays.ends with ⟨m', hdefrag⟩
    have hreleased := (defrag_cases hdefrag).1
    exact ⟨hreleased, (defragAccesses_inside h hram hreleased).mp hstays.inside⟩
  · rintro ⟨hreleased, hcond⟩
    exact staysInTable_of_inside hram hreleased ((defragAccesses_inside h hram hreleased).mpr hcond)

end Packed

/-- On every reachable table `defrag` ends and stays in the table exactly if nobody
    is inside the allocator, an entry is unused, and in the sorted table no merge
    frees more entries than are unused. -/
theorem defrag_inside_iff {raw : Allocator} {startOsSection ramSize r1 : Word} {es : List Request}
    {s : Client} (hram : numOfSlots ≤ raw.ramWords)
    (hrun : run clientStep es (initialClient raw startOsSection ramSize) = some s) :
    StaysInTable s.heap r1 ↔ s.heap.mutex ≠ locked ∧ s.heap.usedEntries < numOfSlots ∧
      RunsFit s.heap.sortedTable s.heap.usedEntries := by
  rcases packed_reachable hrun with ⟨k, h⟩
  rw [usedEntries_eq h]
  exact staysInTable_packed h (by rwa [ramWords_reachable hrun]) r1

theorem defrag_inside_iff_freePairs :
    Ends clientStep freePairs freshClient fun s => StaysInTable s.heap 7#32 := by
  have hends : Ends clientStep freePairs freshClient fun s => s.heap.mutex ≠ locked ∧
      s.heap.usedEntries = 6 ∧ (∀ i < 6, baseOffset (s.heap.mem i) < 32768) ∧
      RunsFit s.heap 6 := by decide +kernel
  rcases hends with ⟨s, hrun, hreleased, hsix, hpos, hfits⟩
  rcases packed_reachable hrun with ⟨k, h⟩
  obtain rfl : k = 6 := by rw [← usedEntries_eq h, hsix]
  refine ⟨s, hrun, (defrag_inside_iff (by decide) hrun).mpr ⟨hreleased, ?_, ?_⟩⟩
  · rw [hsix]
    decide
  · rw [hsix, sortedTable_packed h hpos]
    exact hfits

/-- All entries are used. -/
def fullTable : List Request := List.replicate numOfSlots (Request.allocate 7#32 8)

/-- 48 chunks, of which the first 40 are given back. -/
def mostlyFreed : List Request :=
  List.replicate 48 (Request.allocate 7#32 8) ++
    (List.range 40).map fun i => Request.deallocate 7#32 (0x20001108#32 + BitVec.ofNat 32 (8 * i))

/-- In a full table the search goes on behind the table. When one run of free
    entries is longer than the unused part of the table, words from behind the
    table move in. -/
theorem defrag_leaves_table :
    (Ends clientStep fullTable freshClient fun s => ¬ StaysInTable s.heap 7#32) ∧
      Ends clientStep mostlyFreed freshClient fun s => ¬ StaysInTable s.heap 7#32 := by
  have hfull : Ends clientStep fullTable freshClient fun s => s.heap.usedEntries = numOfSlots ∧
      numOfSlots ≤ s.heap.ramWords := by decide +kernel
  have hfreed : Ends clientStep mostlyFreed freshClient fun s => s.heap.usedEntries = 48 ∧
      numOfSlots ≤ s.heap.ramWords ∧ (∀ i < 48, baseOffset (s.heap.mem i) < 32768) ∧
      FreeRun s.heap 0 40 := by decide +kernel
  constructor
  · rcases hfull with ⟨s, hrun, hused, hram⟩
    rcases packed_reachable hrun with ⟨k, h⟩
    refine ⟨s, hrun, fun hstays => ?_⟩
    -- The scan finds no unused entry.
    have hunused := ((staysInTable_packed h hram 7#32).mp hstays).2.1
    rw [← usedEntries_eq h, hused] at hunused
    exact lt_irrefl _ hunused
  · rcases hfreed with ⟨s, hrun, hused, hram, hpos, hfree⟩
    rcases packed_reachable hrun with ⟨k, h⟩
    obtain rfl : k = 48 := by rw [← usedEntries_eq h, hused]
    refine ⟨s, hrun, fun hstays => ?_⟩
    -- 39 entries are merged away and only 16 are unused.
    have hfits := ((staysInTable_packed h hram 7#32).mp hstays).2.2
    rw [sortedTable_packed h hpos] at hfits
    exact absurd (hfits.spare 0 40 (le_refl 0) (by decide) (by decide) hfree) (by decide)

end NextLevelRTOS
