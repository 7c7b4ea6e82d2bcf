import NextLevelRTOS.Data.Quicksort
import NextLevelRTOS.Lib.Machine
import NextLevelRTOS.Lib.Tiling

/-!
# The Allocator

`memory.c`: a table of 64 entries at the start of the free memory, and behind
it the memory that is given out. The state is the memory from
`MEM_TABLE_START` on, word by word, with the mutex of the allocator and the
enable bit of the SysTick timer, which `allocate` takes away from the
scheduler while it works.

`lock_mutex` stores whatever the caller has in `r1`, so every call comes with
that register. It spins while the mutex is `locked`, and a call that spins has
no result: one task runs at a time and nobody else releases the mutex.

`defrag` looks for the first unused entry without regard for the end of the
table. A read past the end of the memory is a fault, and a call that faults
has no result either.

`DEBUG` is fixed when the kernel is built, so it is a field that no function
writes. It decides whether allocations and deallocations are counted.

## Main definitions

* `Allocator`: The allocator's state.
* `lockMutex`, `releaseMutex`: The mutex.
* `initAllocator`: An empty table.
* `allocate`, `deallocate`, `defrag`: The functions.
* `Call`, `call`: A call and its result.
* `Fits`, `FirstFit`: Which entry serves a request.
* `Allocated`, `Deallocated`: What a call does that returns.
* `blankMemory`: A memory to start from.

## Theorems

* `findSlot_spec`: What the loop of `allocate` ends with.
* `allocate_cases`: What a call of `allocate` does.
* `deallocate_cases`: What a call of `deallocate` does.
* `defrag_cases`: What a call of `defrag` leaves alone.
-/

namespace NextLevelRTOS

/-- `NUM_OF_SLOTS` -/
def numOfSlots : Nat := 64

/-- The mutex word of a locked mutex. -/
def locked : Word := 1#32

/-- The mutex word of a released mutex. -/
def unlocked : Word := 0#32

/-- `MemoryStatisticLocal_t` -/
structure MemoryStatisticLocal where
  numOfAllocs : Word
  numOfDeallocs : Word
  ramSize : Word
  deriving DecidableEq

namespace MemoryStatisticLocal

/-- `if (DEBUG) mstat_local.num_of_allocs++` -/
def countAlloc (debug : Bool) (stat : MemoryStatisticLocal) : MemoryStatisticLocal :=
  if debug then { stat with numOfAllocs := stat.numOfAllocs + 1#32 } else stat

/-- `if (DEBUG) mstat_local.num_of_deallocs++` -/
def countDealloc (debug : Bool) (stat : MemoryStatisticLocal) : MemoryStatisticLocal :=
  if debug then { stat with numOfDeallocs := stat.numOfDeallocs + 1#32 } else stat

end MemoryStatisticLocal

/-- The state of the allocator. -/
structure Allocator where
  memTableStart : Word
  /-- The words from `MEM_TABLE_START` on, the table first. -/
  mem : Nat → Word
  /-- How many words there are from `MEM_TABLE_START` to the end of the memory. -/
  ramWords : Nat
  mutex : Word
  /-- The enable bit of the SysTick timer. -/
  sysTick : Bool
  mstatLocal : MemoryStatisticLocal
  /-- `DEBUG` -/
  debug : Bool

/-- What the loop of `allocate` finds: a freed chunk, an entry never used with
    the value of `next_useable_chunk`, or nothing. -/
inductive Slot where
  | freed (index : Nat)
  | unused (index next : Nat)
  | full
  deriving DecidableEq

/-- `while ((n % k) != 0) n++` -/
def roundUp (k n : Nat) : Nat := n + (k - n % k) % k

/-- The loop of `allocate` over the table, with `n` entries to go. -/
def findSlot (mem : Nat → Word) (size : Nat) : Nat → Nat → Nat → Slot
  | 0, _, _ => Slot.full
  | n + 1, index, next =>
    if isOccupied (mem index) then
      findSlot mem size n (index + 1) (next + chunkSize (mem index))
    else if chunkSize (mem index) ≠ 0x7FFF ∧ chunkSize (mem index) ≥ size then
      Slot.freed index
    else if chunkSize (mem index) ≥ size then
      Slot.unused index next
    else
      findSlot mem size n (index + 1) (next + chunkSize (mem index))

/-- The loop of `deallocate` over the table, with `n` entries to go. -/
def findEntry (mem : Nat → Word) (addressOffset : Word) : Nat → Nat → Option Nat
  | 0, _ => none
  | n + 1, index =>
    if mem index >>> 16 = addressOffset then some index
    else findEntry mem addressOffset n (index + 1)

/-- `offset_comparator`: the words are signed, and so is the shift. -/
def offsetComparator (a b : Word) : Int :=
  let offsetA := a.toInt / 65536
  let offsetB := b.toInt / 65536
  if offsetA > offsetB then 1 else if offsetA < offsetB then -1 else 0

namespace Allocator

variable (m : Allocator)

/-- `USEABLE_MEM_START`, behind the table. -/
def useableMemStart : Word := m.memTableStart + 256#32

/-- A word is written. -/
def store (i : Nat) (w : Word) : Allocator := { m with mem := Function.update m.mem i w }

/-- `lock_mutex`, with what the caller has in `r1`. -/
def lockMutex (r1 : Word) : Option Allocator :=
  if m.mutex = locked then none else some { m with mutex := r1 }

/-- `release_mutex` -/
def releaseMutex : Allocator := { m with mutex := unlocked }

/-- An allocation is counted. -/
def countAlloc : Allocator := { m with mstatLocal := m.mstatLocal.countAlloc m.debug }

/-- A deallocation is counted. -/
def countDealloc : Allocator := { m with mstatLocal := m.mstatLocal.countDealloc m.debug }

/-- `ST_DISABLE` -/
def stDisable : Allocator := { m with sysTick := false }

/-- `ST_ENABLE` -/
def stEnable : Allocator := { m with sysTick := true }

/-- `init_allocator` -/
def initAllocator (startOsSection ramSize : Word) : Allocator :=
  { m with
    memTableStart := BitVec.ofNat 32 (roundUp 8 startOsSection.toNat)
    mem := fun i => if i < numOfSlots then unused else m.mem i
    mutex := unlocked
    mstatLocal := { m.mstatLocal with ramSize := ramSize } }

/-- The entry of a freed chunk that is given out again: the fields are cleared
    and the old size is put back below the offset. -/
def reused (w : Word) : Word :=
  (pack (baseOffset w) 0 false &&& 0xFFFF0000#32) |||
    ((BitVec.ofNat 32 (chunkSize w) <<< 1) ||| 0x1#32)

/-- The entry of a new chunk. The loop that rounds the size up counts in the
    fifteen bits of the field. -/
def carved (size next : Nat) : Word := pack next (roundUp 8 size % 32768) true

/-- `allocate` -/
def allocate (r1 : Word) (size : Nat) : Option (Allocator × Word) :=
  match m.stDisable.lockMutex r1 with
  | none => none
  | some m =>
    if size = 0 ∨ size > 32768 then some (m, 0#32)
    else
      let size := roundUp 4 size
      match findSlot m.mem size numOfSlots 0 0 with
      | .freed index =>
        let raw := reused (m.mem index)
        some ((m.store index raw).countAlloc.releaseMutex, (raw >>> 16) + m.useableMemStart)
      | .unused index next =>
        let raw := carved size next
        some ((m.store index raw).countAlloc.releaseMutex.stEnable,
          BitVec.ofNat 32 (baseOffset raw) + m.useableMemStart)
      | .full => some (m.releaseMutex.stEnable, 0#32)

/-- `deallocate` -/
def deallocate (r1 address : Word) : Option (Allocator × Word) :=
  match m.lockMutex r1 with
  | none => none
  | some m =>
    match findEntry m.mem (address - m.useableMemStart) numOfSlots 0 with
    | some index =>
      some ((m.countDealloc.store index (m.mem index &&& ~~~1#32)).releaseMutex, 1#32)
    | none => some (m.releaseMutex, 0#32)

/-- The search of `defrag` for an unused entry, with `n` words of memory to go. -/
def firstUnused : Nat → Nat → Option Nat
  | 0, _ => none
  | n + 1, index => if m.mem index = unused then some index else firstUnused n (index + 1)

/-- The end of the free entries from `offsetIndex` on, with `n` words to go. -/
def freeEnd (mem : Nat → Word) (highestUsedEntry : Int) : Nat → Nat → Nat
  | 0, offsetIndex => offsetIndex
  | n + 1, offsetIndex =>
    if isOccupied (mem offsetIndex) ∨ (offsetIndex : Int) > highestUsedEntry then offsetIndex
    else freeEnd mem highestUsedEntry n (offsetIndex + 1)

/-- The words from `offsetIndex` on move to `newLocation`, `n` of them. -/
def relocate : Nat → Nat → Nat → Allocator → Option Allocator
  | 0, _, _, m => some m
  | n + 1, newLocation, offsetIndex, m =>
    if offsetIndex < m.ramWords then
      relocate n (newLocation + 1) (offsetIndex + 1) (m.store newLocation (m.mem offsetIndex))
    else none

/-- One round of the loop of `defrag`. -/
def mergeAt (baseIndex : Nat) (highestUsedEntry : Int) (m : Allocator) : Option Allocator :=
  let entry := m.mem baseIndex
  if ¬ isOccupied entry ∧ entry ≠ unused then
    let remaining := (highestUsedEntry - baseIndex).toNat
    let offsetIndex := freeEnd m.mem highestUsedEntry (remaining + 1) (baseIndex + 1)
    if offsetIndex = baseIndex + 1 then some m
    else
      let newSize := (List.range (offsetIndex - baseIndex)).foldl
        (fun newSize k => newSize + BitVec.ofNat 32 (chunkSize (m.mem (baseIndex + k)))) 0#32
      let merged := (entry &&& 0xFFFF0000#32) ||| (newSize <<< 1)
      relocate remaining (baseIndex + 1) offsetIndex (m.store baseIndex merged)
  else some m

/-- The loop of `defrag`, with `n` rounds to go. -/
def mergeRounds (highestUsedEntry : Int) : Nat → Nat → Allocator → Option Allocator
  | 0, _, m => some m
  | n + 1, baseIndex, m =>
    match mergeAt baseIndex highestUsedEntry m with
    | none => none
    | some m => mergeRounds highestUsedEntry n (baseIndex + 1) m

/-- `defrag` -/
def defrag (r1 : Word) : Option Allocator :=
  match m.lockMutex r1 with
  | none => none
  | some m =>
    match m.firstUnused m.ramWords 0 with
    | none => none
    | some index =>
      let highestUsedEntry : Int := (index : Int) - 1
      let sorted := quicksort offsetComparator m.mem 0 highestUsedEntry
      match mergeRounds highestUsedEntry highestUsedEntry.toNat 0 { m with mem := sorted } with
      | none => none
      | some m => some m.releaseMutex

end Allocator

/-! ### Calls -/

/-- A call of the allocator, with what the caller has in `r1`. -/
inductive Call where
  | allocate (r1 : Word) (size : Nat)
  | deallocate (r1 address : Word)
  | defrag (r1 : Word)
  deriving DecidableEq

/-- What a call leaves and what it returns. `defrag` returns nothing. -/
def Allocator.call (m : Allocator) : Call → Option (Allocator × Word)
  | Call.allocate r1 size => m.allocate r1 size
  | Call.deallocate r1 address => m.deallocate r1 address
  | Call.defrag r1 => (m.defrag r1).map fun m => (m, 0#32)

/-! ### The search for an entry -/

/-- The entry can serve a request of this size. -/
def Fits (size : Nat) (w : Word) : Prop := isOccupied w = false ∧ size ≤ chunkSize w

instance (size : Nat) (w : Word) : Decidable (Fits size w) := inferInstanceAs (Decidable (_ ∧ _))

/-- The first entry of the table that can serve a request of this size. -/
def FirstFit (mem : Nat → Word) (size i : Nat) : Prop :=
  i < numOfSlots ∧ Fits size (mem i) ∧ ∀ j < i, ¬ Fits size (mem j)

instance (mem : Nat → Word) (size i : Nat) : Decidable (FirstFit mem size i) :=
  inferInstanceAs (Decidable (_ ∧ _ ∧ _))

theorem FirstFit.unique {mem : Nat → Word} {size i j : Nat} (hi : FirstFit mem size i)
    (hj : FirstFit mem size j) : i = j := by
  rcases hi with ⟨_, hfiti, hbeforei⟩
  rcases hj with ⟨_, hfitj, hbeforej⟩
  rcases Nat.lt_trichotomy i j with hlt | heq | hgt
  · exact absurd hfiti (hbeforej i hlt)
  · exact heq
  · exact absurd hfitj (hbeforei j hgt)

/-- What the loop of `allocate` ends with. -/
inductive SlotSpec (mem : Nat → Word) (size : Nat) : Slot → Prop
  | freed (i : Nat) : FirstFit mem size i → chunkSize (mem i) ≠ 0x7FFF →
      SlotSpec mem size (Slot.freed i)
  | unused (i : Nat) : FirstFit mem size i → chunkSize (mem i) = 0x7FFF →
      SlotSpec mem size (Slot.unused i (Tiling.start (fun j => chunkSize (mem j)) i))
  | full : (∀ i < numOfSlots, ¬ Fits size (mem i)) → SlotSpec mem size Slot.full

theorem findSlot_from (mem : Nat → Word) (size : Nat) :
    ∀ n index, index + n = numOfSlots → (∀ j < index, ¬ Fits size (mem j)) →
      SlotSpec mem size (findSlot mem size n index
        (Tiling.start (fun j => chunkSize (mem j)) index)) := by
  intro n
  induction n with
  | zero =>
      intro index hlen hbefore
      rw [Nat.add_zero] at hlen
      rw [hlen] at hbefore
      exact SlotSpec.full hbefore
  | succ n ih =>
      intro index hlen hbefore
      -- An entry that does not fit adds its size to the sum, and the loop goes on.
      have hnext : ¬ Fits size (mem index) →
          SlotSpec mem size (findSlot mem size n (index + 1)
            (Tiling.start (fun j => chunkSize (mem j)) index + chunkSize (mem index))) := by
        intro hno
        rw [← Tiling.start_succ (fun j => chunkSize (mem j)) index]
        refine ih (index + 1) (by omega) fun j hj => ?_
        rcases Nat.lt_succ_iff_lt_or_eq.mp hj with hlt | heq
        · exact hbefore j hlt
        · rwa [heq]
      rw [findSlot]
      by_cases hocc : isOccupied (mem index) = true
      · rw [if_pos hocc]
        exact hnext fun hfit => by rw [hfit.1] at hocc; exact absurd hocc (by decide)
      · rw [if_neg hocc]
        by_cases hfits : chunkSize (mem index) ≥ size
        · have hfirst : FirstFit mem size index :=
            ⟨by omega, ⟨Bool.eq_false_iff.mpr hocc, hfits⟩, hbefore⟩
          -- The marker of an unused entry says 32767 bytes, so it fits whatever is asked
          -- for.
          by_cases hused : chunkSize (mem index) = 0x7FFF
          · rw [if_neg (fun hc => hc.1 hused), if_pos hfits]
            exact SlotSpec.unused index hfirst hused
          · rw [if_pos ⟨hused, hfits⟩]
            exact SlotSpec.freed index hfirst hused
        · rw [if_neg (fun hc => hfits hc.2), if_neg hfits]
          exact hnext fun hfit => hfits hfit.2

/-- The loop of `allocate` ends with the first entry that fits, and has summed
    the sizes before it. -/
theorem findSlot_spec (mem : Nat → Word) (size : Nat) :
    SlotSpec mem size (findSlot mem size numOfSlots 0 0) :=
  findSlot_from mem size numOfSlots 0 rfl fun j hj => absurd hj (Nat.not_lt_zero j)

/-- What the loop of `deallocate` ends with. -/
theorem findEntry_from (mem : Nat → Word) (offset : Word) :
    ∀ n index, (∀ i, findEntry mem offset n index = some i →
        index ≤ i ∧ i < index + n ∧ mem i >>> 16 = offset ∧
          ∀ j, index ≤ j → j < i → mem j >>> 16 ≠ offset) ∧
      (findEntry mem offset n index = none →
        ∀ j, index ≤ j → j < index + n → mem j >>> 16 ≠ offset) := by
  intro n
  induction n with
  | zero =>
      intro index
      refine ⟨fun i hfound => ?_, fun _ j hlow hhigh => ?_⟩
      · exact absurd hfound (by simp only [findEntry, reduceCtorEq, not_false_eq_true])
      · omega
  | succ n ih =>
      intro index
      rw [findEntry]
      by_cases hhere : mem index >>> 16 = offset
      · rw [if_pos hhere]
        refine ⟨fun i hfound => ?_, fun hnone => ?_⟩
        · rw [← Option.some.inj hfound]
          exact ⟨le_refl _, by omega, hhere, fun j hlow hhigh => by omega⟩
        · exact absurd hnone (by simp only [reduceCtorEq, not_false_eq_true])
      -- Not this entry, so what is said about the rest holds from here on.
      · rw [if_neg hhere]
        rcases ih (index + 1) with ⟨hsome, hnone⟩
        refine ⟨fun i hfound => ?_, fun hfound j hlow hhigh => ?_⟩
        · rcases hsome i hfound with ⟨hle, hlt, hat, hbefore⟩
          refine ⟨by omega, by omega, hat, fun j hlow hhigh => ?_⟩
          rcases Nat.eq_or_lt_of_le hlow with heq | hgt
          · rwa [← heq]
          · exact hbefore j hgt hhigh
        · rcases Nat.eq_or_lt_of_le hlow with heq | hgt
          · rwa [← heq]
          · exact hnone hfound j hgt (by omega)

/-! ### What a call does -/

namespace Allocator

/-- The address of the memory at an offset. -/
def addressOf (m : Allocator) (offset : Nat) : Word :=
  BitVec.ofNat 32 offset + m.useableMemStart

/-- `allocate` rejects the size. -/
def Rejected (size : Nat) : Prop := size = 0 ∨ size > 32768

instance (size : Nat) : Decidable (Rejected size) := inferInstanceAs (Decidable (_ ∨ _))

theorem reused_eq (w : Word) : reused w = pack (baseOffset w) (chunkSize w) true := by
  rw [reused, orLow_eq (chunkSize_lt w), baseOffset_pack, Nat.mod_eq_of_lt (baseOffset_lt w)]

/-- What a call of `allocate` does that returns. -/
inductive Allocated (m : Allocator) (r1 : Word) (size : Nat) : Allocator → Word → Prop
  | rejected : Rejected size → Allocated m r1 size { m with mutex := r1, sysTick := false } 0#32
  | reuse (i : Nat) : ¬ Rejected size → FirstFit m.mem (roundUp 4 size) i →
      chunkSize (m.mem i) ≠ 0x7FFF →
      Allocated m r1 size
        { m with
          mem := Function.update m.mem i (pack (baseOffset (m.mem i)) (chunkSize (m.mem i)) true)
          mutex := unlocked
          sysTick := false
          mstatLocal := m.mstatLocal.countAlloc m.debug }
        (m.addressOf (baseOffset (m.mem i)))
  | carve (i offset : Nat) : ¬ Rejected size → FirstFit m.mem (roundUp 4 size) i →
      chunkSize (m.mem i) = 0x7FFF →
      offset = Tiling.start (fun j => chunkSize (m.mem j)) i →
      Allocated m r1 size
        { m with
          mem := Function.update m.mem i (carved (roundUp 4 size) offset)
          mutex := unlocked
          sysTick := true
          mstatLocal := m.mstatLocal.countAlloc m.debug }
        (m.addressOf (offset % 65536))
  | full : ¬ Rejected size → (∀ i < numOfSlots, ¬ Fits (roundUp 4 size) (m.mem i)) →
      Allocated m r1 size { m with mutex := unlocked, sysTick := true } 0#32

theorem lockMutex_locked {m : Allocator} (r1 : Word) (h : m.mutex = locked) :
    m.lockMutex r1 = none :=
  if_pos h

theorem lockMutex_free {m : Allocator} (r1 : Word) (h : m.mutex ≠ locked) :
    m.lockMutex r1 = some { m with mutex := r1 } :=
  if_neg h

theorem allocate_cases {m m' : Allocator} {r1 p : Word} {size : Nat}
    (h : m.allocate r1 size = some (m', p)) :
    m.mutex ≠ locked ∧ Allocated m r1 size m' p := by
  by_cases hlock : m.mutex = locked
  · have hspin : m.stDisable.lockMutex r1 = none := lockMutex_locked r1 hlock
    rw [allocate, hspin] at h
    exact absurd h (by simp only [reduceCtorEq, not_false_eq_true])
  · refine ⟨hlock, ?_⟩
    have hfree : m.stDisable.lockMutex r1 = some { m with mutex := r1, sysTick := false } :=
      lockMutex_free r1 hlock
    rw [allocate, hfree] at h
    -- The mutex has been taken by now, and is not given back when the size is rejected.
    by_cases hrej : Rejected size
    · simp only [if_pos (show size = 0 ∨ size > 32768 from hrej), Option.some.injEq,
        Prod.mk.injEq] at h
      rw [← h.1, ← h.2]
      exact Allocated.rejected hrej
    · simp only [if_neg (show ¬ (size = 0 ∨ size > 32768) from hrej)] at h
      have hspec := findSlot_spec m.mem (roundUp 4 size)
      cases hslot : findSlot m.mem (roundUp 4 size) numOfSlots 0 0 with
      | freed i =>
          rw [hslot] at hspec h
          cases hspec with
          | freed _ hfirst hused =>
              simp only [Option.some.injEq, Prod.mk.injEq] at h
              rw [← h.1, ← h.2, shiftRight_eq, reused_eq, baseOffset_pack,
                Nat.mod_eq_of_lt (baseOffset_lt _)]
              exact Allocated.reuse i hrej hfirst hused
      | unused i next =>
          rw [hslot] at hspec h
          cases hspec with
          | unused _ hfirst hused =>
              simp only [Option.some.injEq, Prod.mk.injEq] at h
              rw [← h.1, ← h.2, carved, baseOffset_pack]
              exact Allocated.carve i _ hrej hfirst hused rfl
      | full =>
          rw [hslot] at hspec h
          cases hspec with
          | full hno =>
              simp only [Option.some.injEq, Prod.mk.injEq] at h
              rw [← h.1, ← h.2]
              exact Allocated.full hrej hno

/-- What a call of `deallocate` does that returns. -/
inductive Deallocated (m : Allocator) (address : Word) : Allocator → Word → Prop
  | found (i : Nat) : i < numOfSlots → m.addressOf (baseOffset (m.mem i)) = address →
      (∀ j < i, m.addressOf (baseOffset (m.mem j)) ≠ address) →
      Deallocated m address
        { m with
          mem := Function.update m.mem i (pack (baseOffset (m.mem i)) (chunkSize (m.mem i)) false)
          mutex := unlocked
          mstatLocal := m.mstatLocal.countDealloc m.debug }
        1#32
  | missed : (∀ i < numOfSlots, m.addressOf (baseOffset (m.mem i)) ≠ address) →
      Deallocated m address { m with mutex := unlocked } 0#32

theorem offset_iff (m : Allocator) (address w : Word) :
    w >>> 16 = address - m.useableMemStart ↔ m.addressOf (baseOffset w) = address := by
  rw [shiftRight_eq, addressOf, eq_comm, BitVec.sub_eq_iff_eq_add, eq_comm]

theorem deallocate_cases {m m' : Allocator} {r1 address p : Word}
    (h : m.deallocate r1 address = some (m', p)) :
    m.mutex ≠ locked ∧ Deallocated m address m' p := by
  by_cases hlock : m.mutex = locked
  · rw [deallocate, lockMutex_locked r1 hlock] at h
    exact absurd h (by simp only [reduceCtorEq, not_false_eq_true])
  · refine ⟨hlock, ?_⟩
    rw [deallocate, lockMutex_free r1 hlock] at h
    rcases findEntry_from m.mem (address - m.useableMemStart) numOfSlots 0 with ⟨hsome, hnone⟩
    cases hentry : findEntry m.mem (address - m.useableMemStart) numOfSlots 0 with
    | some i =>
        rcases hsome i hentry with ⟨_, hlt, hat, hbefore⟩
        simp only [show ({ m with mutex := r1 } : Allocator).useableMemStart = m.useableMemStart
          from rfl, hentry, Option.some.injEq, Prod.mk.injEq] at h
        rw [← h.1, ← h.2, clearOccupied_eq]
        refine Deallocated.found i (by omega) ((offset_iff m address _).mp hat) fun j hj hc => ?_
        exact hbefore j (Nat.zero_le j) hj ((offset_iff m address _).mpr hc)
    | none =>
        simp only [show ({ m with mutex := r1 } : Allocator).useableMemStart = m.useableMemStart
          from rfl, hentry, Option.some.injEq, Prod.mk.injEq] at h
        rw [← h.1, ← h.2]
        refine Deallocated.missed fun i hi hc => ?_
        exact hnone hentry i (Nat.zero_le i) (by omega) ((offset_iff m address _).mpr hc)

theorem relocate_frame : ∀ (n newLocation offsetIndex : Nat) (m m' : Allocator),
    relocate n newLocation offsetIndex m = some m' → ∃ mem, m' = { m with mem := mem } := by
  intro n
  induction n with
  | zero =>
      intro newLocation offsetIndex m m' h
      exact ⟨m.mem, (Option.some.inj h).symm⟩
  | succ n ih =>
      intro newLocation offsetIndex m m' h
      rw [relocate] at h
      by_cases hram : offsetIndex < m.ramWords
      · rw [if_pos hram] at h
        rcases ih _ _ _ _ h with ⟨mem, hmem⟩
        exact ⟨mem, hmem⟩
      · rw [if_neg hram] at h
        exact absurd h (by simp only [reduceCtorEq, not_false_eq_true])

theorem mergeAt_frame {baseIndex : Nat} {highestUsedEntry : Int} {m m' : Allocator}
    (h : mergeAt baseIndex highestUsedEntry m = some m') : ∃ mem, m' = { m with mem := mem } := by
  simp only [mergeAt] at h
  split at h
  · split at h
    · exact ⟨m.mem, (Option.some.inj h).symm⟩
    · rcases relocate_frame _ _ _ _ _ h with ⟨mem, hmem⟩
      exact ⟨mem, hmem⟩
  · exact ⟨m.mem, (Option.some.inj h).symm⟩

theorem mergeRounds_frame (highestUsedEntry : Int) : ∀ (n baseIndex : Nat) (m m' : Allocator),
    mergeRounds highestUsedEntry n baseIndex m = some m' → ∃ mem, m' = { m with mem := mem } := by
  intro n
  induction n with
  | zero =>
      intro baseIndex m m' h
      exact ⟨m.mem, (Option.some.inj h).symm⟩
  | succ n ih =>
      intro baseIndex m m' h
      rw [mergeRounds] at h
      cases hround : mergeAt baseIndex highestUsedEntry m with
      | none =>
          rw [hround] at h
          exact absurd h (by simp only [reduceCtorEq, not_false_eq_true])
      | some m₁ =>
          rw [hround] at h
          rcases mergeAt_frame hround with ⟨mem₁, hmem₁⟩
          rcases ih _ _ _ h with ⟨mem, hmem⟩
          exact ⟨mem, by rw [hmem, hmem₁]⟩

/-- A call of `defrag` that returns has locked and released the mutex, and has
    changed nothing else but the memory. -/
theorem defrag_cases {m m' : Allocator} {r1 : Word} (h : m.defrag r1 = some m') :
    m.mutex ≠ locked ∧ ∃ mem, m' = { m with mem := mem, mutex := unlocked } := by
  by_cases hlock : m.mutex = locked
  · rw [defrag, lockMutex_locked r1 hlock] at h
    exact absurd h (by simp only [reduceCtorEq, not_false_eq_true])
  · refine ⟨hlock, ?_⟩
    rw [defrag, lockMutex_free r1 hlock] at h
    simp only at h
    split at h
    · exact absurd h (by simp only [reduceCtorEq, not_false_eq_true])
    · split at h
      · exact absurd h (by simp only [reduceCtorEq, not_false_eq_true])
      · rename_i hrounds
        rcases mergeRounds_frame _ _ _ _ _ hrounds with ⟨mem, hmem⟩
        exact ⟨mem, by rw [← Option.some.inj h, hmem]; rfl⟩

end Allocator

/-- A memory of 64 KiB that holds nothing, with the table 4 KiB from its
    start. -/
def blankMemory : Allocator :=
  { memTableStart := 0x20001000#32
    mem := fun _ => 0#32
    ramWords := 15360
    mutex := unlocked
    sysTick := false
    mstatLocal := { numOfAllocs := 0#32, numOfDeallocs := 0#32, ramSize := 0#32 }
    debug := false }

end NextLevelRTOS
