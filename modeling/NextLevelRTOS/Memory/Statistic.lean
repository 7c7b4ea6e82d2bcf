import Mathlib.Algebra.BigOperators.Group.Finset.Basic
import Mathlib.Data.BitVec
import Mathlib.Tactic.Ring
import NextLevelRTOS.Memory.Calls

/-!
# The Memory Statistic

`update_memory_statistic` adds up what is allocated: the main stack, what lies
before the table, the table, and the chunks in use. It takes the end of the
memory from the structure it fills, and puts the size of the memory there only
afterwards. So the first report on a structure full of zeros is short by the
size of the memory, and a report is right only on a structure that already
holds this size.

In the end it gives the null pointer back. Nothing happens as long as no chunk
begins at address 0; otherwise a chunk in use is freed by the report.

The sums are those of 32-bit words.

## Main definitions

* `MemoryLifetime`: The structure.
* `updateMemoryStatistic`: The function.
* `reportedBytes`: What it ought to report.
* `FirstFree`: The first entry with an address is free.

## Theorems

* `countAlloced_eq`: The loop adds up the chunks in use.
* `updateMemoryStatistic_eq`: What a call that returns leaves.
* `memory_reported_iff`: When the report is right, and when two reports agree.
-/

namespace NextLevelRTOS

open Machine Allocator

/-- `RAM_START` -/
def RAM_START : Word := 0x20000000#32

/-- `MemoryLifetime_t` -/
structure MemoryLifetime where
  numOfAllocs : Word
  numOfDeallocs : Word
  ramSize : Word
  totalByteAlloced : Word
  totalByteUsed : Word
  deriving DecidableEq

namespace Allocator

/-- The loop of `update_memory_statistic` over `n` entries. -/
def countAlloced (mem : Nat → Word) (n : Nat) (totalByteAlloced : Word) : Word :=
  (List.range n).foldl
    (fun total index =>
      if mem index &&& 1#32 = 1#32 then total + ((mem index &&& 0xFFFE#32) >>> 1) else total)
    totalByteAlloced

/-- `update_memory_statistic`, with the main stack pointer at `msp` and with what
    `deallocate` finds in `r1`. -/
def updateMemoryStatistic (m : Allocator) (r1 msp : Word) (lifetimeInfo : MemoryLifetime) :
    Option (Allocator × MemoryLifetime) :=
  let total := (RAM_START + lifetimeInfo.ramSize) - msp
  let total := total + (m.memTableStart - RAM_START)
  let total := total + BitVec.ofNat 32 (numOfSlots * 4)
  let lifetimeInfo :=
    { lifetimeInfo with
      ramSize := m.mstatLocal.ramSize
      numOfAllocs := m.mstatLocal.numOfAllocs
      numOfDeallocs := m.mstatLocal.numOfDeallocs
      totalByteAlloced := countAlloced m.mem numOfSlots total
      totalByteUsed := 0#32 }
  (m.deallocate r1 0#32).map fun (m, _) => (m, lifetimeInfo)

/-- The stack, the memory before the table, the table, and the chunks in use. -/
def reportedBytes (m : Allocator) (msp : Word) : Word :=
  (RAM_START + m.mstatLocal.ramSize - msp) + (m.memTableStart - RAM_START) +
    BitVec.ofNat 32 (numOfSlots * 4) +
    BitVec.ofNat 32 (∑ i ∈ m.occupiedSet, chunkSize (m.mem i))

end Allocator

/-- The call returns, reports what is allocated, and leaves the table. -/
def ReportsMemory (m : Allocator) (r1 msp : Word) (lifetimeInfo : MemoryLifetime) : Prop :=
  ∃ m' report, m.updateMemoryStatistic r1 msp lifetimeInfo = some (m', report) ∧
    report.totalByteAlloced = m.reportedBytes msp ∧ ∀ i < numOfSlots, m'.mem i = m.mem i

/-- Calls on the two structures return, and what they report is the same. -/
def SameReport (m : Allocator) (r1 msp : Word) (lifetimeInfo lifetimeInfo' : MemoryLifetime) :
    Prop :=
  ∃ m' report, m.updateMemoryStatistic r1 msp lifetimeInfo = some (m', report) ∧
    m.updateMemoryStatistic r1 msp lifetimeInfo' = some (m', report)

/-- The first chunk that begins at the address, if there is one, is free. -/
def FirstFree (m : Allocator) (address : Word) : Prop :=
  ∀ i < numOfSlots, m.BeginsAt address i → (∀ j < i, ¬ m.BeginsAt address j) →
    isOccupied (m.mem i) = false

instance (m : Allocator) (address : Word) : Decidable (FirstFree m address) :=
  inferInstanceAs (Decidable (∀ i < numOfSlots, _ → _ → _))

section Statistic

variable {m m' : Allocator} {r1 msp : Word} {lifetimeInfo lifetimeInfo' : MemoryLifetime}

theorem occupiedBit_iff (w : Word) : w &&& 1#32 = 1#32 ↔ isOccupied w = true := by
  rw [isOccupied, decide_eq_true_eq, ← BitVec.toNat_inj, BitVec.toNat_and,
    show (1#32 : Word).toNat = 1 by rfl, Nat.and_one_is_mod]

/-- The loop adds up the chunks in use. -/
theorem countAlloced_eq (mem : Nat → Word) (n : Nat) (total : Word) :
    countAlloced mem n total = total +
      BitVec.ofNat 32 (∑ i ∈ (Finset.range n).filter fun i => isOccupied (mem i) = true,
        chunkSize (mem i)) := by
  induction n with
  | zero =>
      rw [Finset.range_zero, Finset.filter_empty, Finset.sum_empty, BitVec.add_zero]
      rfl
  | succ n ih =>
      have hround : countAlloced mem (n + 1) total =
          if mem n &&& 1#32 = 1#32 then
            countAlloced mem n total + ((mem n &&& 0xFFFE#32) >>> 1)
          else countAlloced mem n total := by
        rw [countAlloced, List.range_succ, List.foldl_append]
        rfl
      have hsize : (mem n &&& 0xFFFE#32) >>> 1 = BitVec.ofNat 32 (chunkSize (mem n)) := by
        rw [← sizeField_toNat, BitVec.ofNat_toNat, BitVec.setWidth_eq]
      rw [hround, ih, hsize, Finset.range_add_one, Finset.filter_insert]
      -- A used chunk is one more summand, and its size comes out of the entry by mask
      -- and shift.
      by_cases hocc : isOccupied (mem n) = true
      · rw [if_pos ((occupiedBit_iff _).mpr hocc), if_pos hocc, Finset.sum_insert, BitVec.add_assoc,
          ← BitVec.ofNat_add, Nat.add_comm]
        simp only [Finset.mem_filter, Finset.mem_range, lt_self_iff_false, false_and,
          not_false_eq_true]
      · rw [if_neg fun hc => hocc ((occupiedBit_iff _).mp hc), if_neg hocc]

/-- The report of a call that returns, with the size of the memory that was in the
    structure before. -/
def reportOn (m : Allocator) (msp ramSize : Word) : MemoryLifetime :=
  { ramSize := m.mstatLocal.ramSize
    numOfAllocs := m.mstatLocal.numOfAllocs
    numOfDeallocs := m.mstatLocal.numOfDeallocs
    totalByteAlloced := m.reportedBytes msp + (ramSize - m.mstatLocal.ramSize)
    totalByteUsed := 0#32 }

theorem exchange_summand (a x y b c d e : Word) :
    a + x - b + c + d + e = a + y - b + c + d + e + (x - y) := by
  ring

/-- What a call that returns leaves. -/
theorem updateMemoryStatistic_eq (m : Allocator) (r1 msp : Word) (lifetimeInfo : MemoryLifetime) :
    m.updateMemoryStatistic r1 msp lifetimeInfo =
      (m.deallocate r1 0#32).map fun r => (r.1, reportOn m msp lifetimeInfo.ramSize) := by
  have htotal : countAlloced m.mem numOfSlots
      (RAM_START + lifetimeInfo.ramSize - msp + (m.memTableStart - RAM_START) +
        BitVec.ofNat 32 (numOfSlots * 4)) =
      m.reportedBytes msp + (lifetimeInfo.ramSize - m.mstatLocal.ramSize) := by
    rw [countAlloced_eq, reportedBytes, occupiedSet]
    exact exchange_summand ..
  simp only [updateMemoryStatistic, htotal]
  rfl

/-- Two reports on the same allocator differ in the total alone. -/
theorem reportOn_inj {ramSize ramSize' : Word} :
    reportOn m msp ramSize = reportOn m msp ramSize' ↔ ramSize = ramSize' := by
  constructor
  · intro h
    have htotal := congrArg MemoryLifetime.totalByteAlloced h
    exact BitVec.sub_left_inj _ |>.mp (BitVec.add_right_inj _ |>.mp htotal)
  · intro h
    rw [h]

/-- Giving back what begins at an address leaves the table exactly if nothing that
    is in use begins there first. -/
theorem deallocated_mem_iff {address p : Word} (h : Deallocated m address m' p) :
    (∀ i < numOfSlots, m'.mem i = m.mem i) ↔ FirstFree m address := by
  cases h with
  | missed hno => exact iff_of_true (fun _ _ => rfl) fun i hi hat _ => absurd hat.2 (hno i hi)
  | found i hi hat hbefore =>
      constructor
      · intro hsame l hl hlat hlbefore
        -- The entry that was found is the first.
        have hli : l = i := by
          rcases Nat.lt_trichotomy l i with hlt | heq | hgt
          · exact absurd hlat.2 (hbefore l hlt)
          · exact heq
          · exact absurd ⟨hi, hat⟩ (hlbefore i hgt)
        have hentry := hsame i hi
        change Function.update m.mem i _ i = m.mem i at hentry
        rw [Function.update_self] at hentry
        rw [hli, ← hentry, isOccupied_pack]
      · intro hfirst l hl
        have hfree := hfirst i hi ⟨hi, hat⟩ fun j hj hc => hbefore j hj hc.2
        change Function.update m.mem i _ l = m.mem l
        by_cases hli : l = i
        · rw [hli, Function.update_self]
          refine entry_ext ?_ ?_ ?_
          · rw [baseOffset_pack, Nat.mod_eq_of_lt (baseOffset_lt _)]
          · rw [chunkSize_pack, Nat.mod_eq_of_lt (chunkSize_lt _)]
          · rw [isOccupied_pack, hfree]
        · rw [Function.update_of_ne hli]

/-- When the report is right. -/
theorem reportsMemory_iff : ReportsMemory m r1 msp lifetimeInfo ↔
    m.mutex ≠ locked ∧ lifetimeInfo.ramSize = m.mstatLocal.ramSize ∧ FirstFree m 0#32 := by
  constructor
  · rintro ⟨m', report, hcall, htotal, hmem⟩
    rw [updateMemoryStatistic_eq] at hcall
    rcases Option.map_eq_some_iff.mp hcall with ⟨⟨m₁, p⟩, hdealloc, heq⟩
    obtain ⟨rfl, rfl⟩ := Prod.mk.inj heq
    rcases deallocate_cases hdealloc with ⟨hmutex, hdone⟩
    have hzero : lifetimeInfo.ramSize - m.mstatLocal.ramSize = 0#32 :=
      (BitVec.add_right_eq_self).mp htotal
    -- The total is off by the difference of the two sizes.
    have hsize : lifetimeInfo.ramSize = m.mstatLocal.ramSize := by
      rw [← BitVec.sub_add_cancel lifetimeInfo.ramSize m.mstatLocal.ramSize, hzero, BitVec.zero_add]
    exact ⟨hmutex, hsize, (deallocated_mem_iff hdone).mp hmem⟩
  · rintro ⟨hmutex, hsize, hfree⟩
    rcases deallocate_returns r1 0#32 hmutex with ⟨m', result, hcall⟩
    refine ⟨m', reportOn m msp lifetimeInfo.ramSize, ?_, ?_,
      (deallocated_mem_iff (deallocate_cases hcall).2).mpr hfree⟩
    · rw [updateMemoryStatistic_eq, hcall]
      rfl
    · rw [hsize, reportOn, BitVec.sub_self, BitVec.add_zero]

/-- When two reports agree. -/
theorem sameReport_iff : SameReport m r1 msp lifetimeInfo lifetimeInfo' ↔
    m.mutex ≠ locked ∧ lifetimeInfo.ramSize = lifetimeInfo'.ramSize := by
  constructor
  · rintro ⟨m', report, hcall, hcall'⟩
    rw [updateMemoryStatistic_eq] at hcall hcall'
    rcases Option.map_eq_some_iff.mp hcall with ⟨r, hdealloc, heq⟩
    rw [hdealloc, Option.map_some, Option.some.injEq] at hcall'
    have hreports : reportOn m msp lifetimeInfo.ramSize = reportOn m msp lifetimeInfo'.ramSize :=
      congrArg Prod.snd (heq.trans hcall'.symm)
    exact ⟨(deallocate_cases hdealloc).1, reportOn_inj.mp hreports⟩
  · rintro ⟨hmutex, hsize⟩
    rcases deallocate_returns r1 0#32 hmutex with ⟨m', result, hcall⟩
    refine ⟨m', reportOn m msp lifetimeInfo.ramSize, ?_, ?_⟩
    · rw [updateMemoryStatistic_eq, hcall]
      rfl
    · rw [updateMemoryStatistic_eq, hcall, hsize]
      rfl

end Statistic

/-- In every state of the allocator the report is right exactly if nobody holds the
    mutex, the structure holds the size of the memory already, and no chunk in use
    begins at address 0; and two reports agree exactly if nobody does and the
    structures held the same size. -/
theorem memory_reported_iff (m : Allocator) (r1 msp : Word) :
    (∀ lifetimeInfo, ReportsMemory m r1 msp lifetimeInfo ↔
      m.mutex ≠ locked ∧ lifetimeInfo.ramSize = m.mstatLocal.ramSize ∧ FirstFree m 0#32) ∧
    ∀ lifetimeInfo lifetimeInfo', SameReport m r1 msp lifetimeInfo lifetimeInfo' ↔
      m.mutex ≠ locked ∧ lifetimeInfo.ramSize = lifetimeInfo'.ramSize :=
  ⟨fun _ => reportsMemory_iff, fun _ _ => sameReport_iff⟩

/-- A structure full of zeros. -/
def blankMemoryLifetime : MemoryLifetime :=
  { numOfAllocs := 0#32
    numOfDeallocs := 0#32
    ramSize := 0#32
    totalByteAlloced := 0#32
    totalByteUsed := 0#32 }

/-- The first report, as the idle task asks for it. -/
theorem memory_misreported :
    ¬ ReportsMemory freshClient.heap 7#32 0x20010000#32 blankMemoryLifetime := by
  intro h
  have hsize := (reportsMemory_iff.mp h).2.1
  exact absurd hsize (by decide)

end NextLevelRTOS
