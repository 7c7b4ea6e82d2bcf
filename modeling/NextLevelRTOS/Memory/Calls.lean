import NextLevelRTOS.Memory.Defrag

/-!
# What One Call Does

What a caller of the allocator is promised, call by call, and when the promise
is kept. `allocate` serves a request from the first entry that fits and changes
no other, with a size that is large enough and a multiple of eight. The one
exception is a request of 32761 to 32764 bytes: an entry that was never used
seems large enough for 32764 bytes, the loop that rounds the size up to 32768
counts in fifteen bits, and the chunk that is handed out has size 0.

`deallocate` looks for the offset alone. It does not ask whether the entry is
occupied, so a chunk that is given back twice is found twice, and since an entry
that was never used has the offset 0, so is the first address of the memory when
nothing was ever allocated. Both times the answer is 1 and the deallocation is
counted, and from then on the counters say less than the table.

Giving a block back and asking for no more than its chunk holds leads to the
first freed chunk that fits, and back to the same table when that is the block's
own. It does so unless an earlier call has left the mutex locked, where the block
is never given back: a call that rejects its size does not release the mutex.

## Main definitions

* `AllocatesOne`: What `allocate` promises.
* `DeallocatesOne`: What `deallocate` promises.
* `FirstOccupied`: The first entry with an address is occupied.
* `occupiedSet`: The occupied entries.
* `Reallocated`: A request served after a block was given back.
* `Reclaims`: A block can be given back and its chunk asked for.

## Theorems

* `allocatesOne_iff`, `deallocatesOne_iff`: When the promises are kept.
* `counted_step`: What a call does to the counters and to the occupied entries.
* `meets_withinFields`: Small requests in a memory that is small enough.
* `deallocate_then_allocate`: A block is given back and its chunk asked for.
-/

namespace NextLevelRTOS

open Machine Allocator

/-! ### One allocation -/

/-- Entry `i`, the first that fits, serves a request. -/
structure Serves (m m' : Allocator) (size i : Nat) : Prop where
  first : FirstFit m.mem (roundUp 4 size) i
  occupied : isOccupied (m'.mem i) = true
  rounded : 8 ∣ chunkSize (m'.mem i)
  large : size ≤ chunkSize (m'.mem i)
  others : ∀ j, j ≠ i → m'.mem j = m.mem j

/-- What `allocate` promises: it returns, and either it returns null and leaves
    the table, or one entry serves the request. -/
def AllocatesOne (m : Allocator) (r1 : Word) (size : Nat) : Prop :=
  ∃ m' p, m.allocate r1 size = some (m', p) ∧
    ((p = 0#32 ∧ ∀ i < numOfSlots, m'.mem i = m.mem i) ∨ ∃ i, Serves m m' size i)

section Allocation

variable {m m' : Allocator} {k : Nat}

theorem allocate_returns (r1 : Word) (size : Nat) (h : m.mutex ≠ locked) :
    ∃ m' p, m.allocate r1 size = some (m', p) := by
  have hfree : m.stDisable.lockMutex r1 = some { m with mutex := r1, sysTick := false } :=
    lockMutex_free r1 h
  simp only [allocate, hfree]
  split
  · exact ⟨_, _, rfl⟩
  · split
    · exact ⟨_, _, rfl⟩
    · exact ⟨_, _, rfl⟩
    · exact ⟨_, _, rfl⟩

/-- An entry that was never used fits every request of up to 32764 bytes. -/
theorem fits_unused {size : Nat} (h : size ≤ 32764) : Fits (roundUp 4 size) unused := by
  refine ⟨unused_fields.2.2, ?_⟩
  rw [unused_fields.2.1]
  exact Nat.le_trans (roundUp_le (by decide) (by decide) h) (by decide)

/-- No used entry fits a request of more than 32760 bytes: sizes are multiples
    of eight. -/
theorem Packed.not_fits (h : Packed m k) {size i : Nat} (hi : i < k) (hlarge : 32760 < size) :
    ¬ Fits (roundUp 4 size) (m.mem i) := by
  intro hfit
  have hle : size ≤ chunkSize (m.mem i) := Nat.le_trans (le_roundUp 4 size) hfit.2
  have hlt := chunkSize_lt (m.mem i)
  have hdvd : 8 ∣ chunkSize (m.mem i) := h.rounded i hi
  omega

/-- The size of a chunk that is carved. -/
theorem chunkSize_carved (size offset : Nat) :
    chunkSize (carved size offset) = roundUp 8 size % 32768 := by
  rw [carved_eq, chunkSize_pack]

/-- A new chunk is large enough unless its size is cut to nothing. -/
theorem le_chunkSize_carved {size : Nat} (offset : Nat) (h : size ≤ 32760) :
    size ≤ chunkSize (carved (roundUp 4 size) offset) := by
  have hround : roundUp 8 (roundUp 4 size) ≤ 32760 :=
    roundUp_le (by decide) (by decide) (roundUp_le (by decide) (by decide) h)
  rw [chunkSize_carved, Nat.mod_eq_of_lt (by omega)]
  exact Nat.le_trans (le_roundUp 4 size) (le_roundUp 8 _)

theorem chunkSize_carved_zero {size : Nat} (offset : Nat) (hlarge : 32760 < size)
    (h : size ≤ 32764) : chunkSize (carved (roundUp 4 size) offset) = 0 := by
  have hfour : 4 ∣ roundUp 4 size := roundUp_dvd (by decide)
  have height : 8 ∣ roundUp 8 (roundUp 4 size) := roundUp_dvd (by decide)
  have hle : roundUp 4 size ≤ 32764 := roundUp_le (by decide) (by decide) h
  have hmore := le_roundUp 4 size
  have hlast := roundUp_lt (k := 8) (n := roundUp 4 size) (by decide)
  have hfirst := le_roundUp 8 (roundUp 4 size)
  rw [chunkSize_carved]
  omega

theorem serves_of_entry {size i : Nat} {w : Word} (hmem : m'.mem = Function.update m.mem i w)
    (hfirst : FirstFit m.mem (roundUp 4 size) i) (hoccupied : isOccupied w = true)
    (hdvd : 8 ∣ chunkSize w) (hlarge : size ≤ chunkSize w) : Serves m m' size i := by
  have hentry : m'.mem i = w := by rw [hmem, Function.update_self]
  refine ⟨hfirst, by rwa [hentry], by rwa [hentry], by rwa [hentry], fun j hj => ?_⟩
  rw [hmem, Function.update_of_ne hj]

/-- A call of `allocate` that carves no chunk of more than 32760 bytes keeps the
    promise. -/
theorem serves_of_allocated (h : Packed m k) {r1 p : Word} {size : Nat}
    (hsize : ∀ i < numOfSlots, FirstFit m.mem (roundUp 4 size) i →
      chunkSize (m.mem i) = 0x7FFF → size ≤ 32760)
    (hcall : Allocated m r1 size m' p) :
    (p = 0#32 ∧ ∀ i < numOfSlots, m'.mem i = m.mem i) ∨ ∃ i, Serves m m' size i := by
  cases hcall with
  | rejected => exact Or.inl ⟨rfl, fun _ _ => rfl⟩
  | full => exact Or.inl ⟨rfl, fun _ _ => rfl⟩
  | reuse i hrej hfirst hused =>
      -- A chunk that is used again keeps its size, a carved one is rounded up twice.
      have hchunk : chunkSize (pack (baseOffset (m.mem i)) (chunkSize (m.mem i)) true) =
          chunkSize (m.mem i) := by
        rw [chunkSize_pack, Nat.mod_eq_of_lt (chunkSize_lt _)]
      refine Or.inr ⟨i, serves_of_entry rfl hfirst (isOccupied_pack _ _ _) ?_ ?_⟩
      · rw [hchunk]
        exact h.rounded i (h.lt_of_used hfirst.1 hused)
      · rw [hchunk]
        exact Nat.le_trans (le_roundUp 4 size) hfirst.2.1.2
  | carve i offset hrej hfirst hunused hoffset =>
      refine Or.inr ⟨i, serves_of_entry rfl hfirst ?_ ?_ ?_⟩
      · rw [carved_eq, isOccupied_pack]
      · have hdvd : 8 ∣ roundUp 8 (roundUp 4 size) := roundUp_dvd (by decide)
        rw [chunkSize_carved]
        omega
      · exact le_chunkSize_carved offset (hsize i hfirst.1 hfirst hunused)

/-- The first entry that was never used is the first that fits a request whose
    size is cut to nothing. -/
theorem Packed.firstFit_large (h : Packed m k) (hk : k < numOfSlots) {size : Nat}
    (hlarge : 32760 < size) (hsmall : size ≤ 32764) : FirstFit m.mem (roundUp 4 size) k := by
  refine ⟨hk, ?_, fun j hj => h.not_fits hj hlarge⟩
  rw [h.rest k (Nat.le_refl k) hk]
  exact fits_unused hsmall

/-- A request whose size is cut to nothing is given an entry with the size 0. -/
theorem chunkSize_allocated_large (h : Packed m k) (hk : k < numOfSlots) {r1 p : Word}
    {size : Nat} (hlarge : 32760 < size) (hsmall : size ≤ 32764)
    (hcall : Allocated m r1 size m' p) : chunkSize (m'.mem k) = 0 := by
  have hfirst := h.firstFit_large hk hlarge hsmall
  have hunused : chunkSize (m.mem k) = 0x7FFF := by
    rw [h.rest k (Nat.le_refl k) hk]
    exact unused_fields.2.1
  cases hcall with
  | rejected hrej => rcases hrej with hzero | hbig <;> omega
  | full _ hno => exact absurd hfirst.2.1 (hno k hk)
  | reuse i _ hi hused =>
      rw [hi.unique hfirst] at hused
      exact absurd hunused hused
  | carve i offset _ hi _ _ =>
      rw [hi.unique hfirst]
      refine Eq.trans (congrArg chunkSize (Function.update_self k _ m.mem)) ?_
      exact chunkSize_carved_zero offset hlarge hsmall

/-- When `allocate` keeps its promise. -/
theorem allocatesOne_iff (h : Packed m k) (r1 : Word) (size : Nat) :
    AllocatesOne m r1 size ↔
      m.mutex ≠ locked ∧ (size ≤ 32760 ∨ 32764 < size ∨ m.usedEntries = numOfSlots) := by
  rw [usedEntries_eq h]
  constructor
  · rintro ⟨m', p, hcall, hserved⟩
    rcases allocate_cases hcall with ⟨hmutex, hdone⟩
    refine ⟨hmutex, ?_⟩
    -- With an entry to carve from and a size just below the limit, the chunk is empty.
    by_contra hcut
    push Not at hcut
    rcases hcut with ⟨hlarge, hsmall, hroom⟩
    have hk : k < numOfSlots := Nat.lt_of_le_of_ne h.bound hroom
    have hchunk := chunkSize_allocated_large h hk hlarge hsmall hdone
    rcases hserved with ⟨_, hsame⟩ | ⟨i, hserves⟩
    · rw [hsame k hk, h.rest k (Nat.le_refl k) hk] at hchunk
      exact absurd hchunk (by decide)
    · obtain rfl := hserves.first.unique (h.firstFit_large hk hlarge hsmall)
      have hle := hserves.large
      omega
  · rintro ⟨hmutex, hsize⟩
    -- A call that gets the mutex returns; what it gave is read off its specification.
    rcases allocate_returns r1 size hmutex with ⟨m', p, hcall⟩
    refine ⟨m', p, hcall, serves_of_allocated h (fun i hi hfirst hunused => ?_)
      (allocate_cases hcall).2⟩
    rcases hsize with hsmall | hbig | hfull
    · exact hsmall
    · -- A larger request is rounded up to more than a field can hold.
      have hfour : 4 ∣ roundUp 4 size := roundUp_dvd (by decide)
      have hle := le_roundUp 4 size
      have hfit := hfirst.2.1.2
      omega
    · have hik := h.firstFit_unused hfirst hunused
      omega

end Allocation

/-- In every reachable state `allocate` keeps its promise unless somebody holds
    the mutex, or the request is one of those whose size is cut to nothing and
    there is an entry that was never used. -/
theorem allocate_one_iff {raw : Allocator} {startOsSection ramSize : Word} {es : List Request}
    {s : Client} (hrun : run clientStep es (initialClient raw startOsSection ramSize) = some s)
    (r1 : Word) (size : Nat) :
    AllocatesOne s.heap r1 size ↔ s.heap.mutex ≠ locked ∧
      (size ≤ 32760 ∨ 32764 < size ∨ s.heap.usedEntries = numOfSlots) := by
  rcases packed_reachable hrun with ⟨k, h⟩
  exact allocatesOne_iff h r1 size

/-- The largest request that is served, in a table with chunks in use and one
    given back. -/
theorem allocate_one_iff_fillAndFree :
    Ends clientStep fillAndFree freshClient fun s => AllocatesOne s.heap 7#32 32760 := by
  have hends : Ends clientStep fillAndFree freshClient fun s => s.heap.mutex ≠ locked := by
    decide +kernel
  rcases hends with ⟨s, hrun, hmutex⟩
  exact ⟨s, hrun, (allocate_one_iff hrun 7#32 32760).mpr ⟨hmutex, Or.inl (Nat.le_refl _)⟩⟩

/-- A request that is four bytes larger, on an empty table. -/
theorem allocate_one_fails : ¬ AllocatesOne freshClient.heap 7#32 32764 := by
  intro hone
  have hpacked := packed_initAllocator blankMemory 0x20001001#32 0x10000#32
  rcases ((allocatesOne_iff hpacked 7#32 32764).mp hone).2 with hsmall | hbig | hfull
  · exact absurd hsmall (by decide)
  · exact absurd hbig (by decide)
  · rw [usedEntries_eq hpacked] at hfull
    exact absurd hfull (by decide)

/-! ### One deallocation -/

namespace Allocator

/-- The chunk of entry `i` begins at the address. -/
def BeginsAt (m : Allocator) (address : Word) (i : Nat) : Prop :=
  i < numOfSlots ∧ m.addressOf (baseOffset (m.mem i)) = address

instance (m : Allocator) (address : Word) (i : Nat) : Decidable (m.BeginsAt address i) :=
  inferInstanceAs (Decidable (_ ∧ _))

/-- The occupied entries. -/
def occupiedSet (m : Allocator) : Finset Nat :=
  (Finset.range numOfSlots).filter fun i => isOccupied (m.mem i) = true

/-- The allocations that were counted and not taken back. -/
def outstanding (m : Allocator) : Word := m.mstatLocal.numOfAllocs - m.mstatLocal.numOfDeallocs

end Allocator

/-- Only the occupied bit of entry `i` differs, and it is cleared. -/
structure Clears (m m' : Allocator) (i : Nat) : Prop where
  occupied : isOccupied (m.mem i) = true
  cleared : m'.mem i = pack (baseOffset (m.mem i)) (chunkSize (m.mem i)) false
  others : ∀ j, j ≠ i → m'.mem j = m.mem j

/-- What `deallocate` promises: it returns, and its result is 1 exactly when a
    chunk in use begins at the address. Then the chunk's occupied bit is cleared.
    Otherwise the result is 0, and the table and the counters stay. -/
def DeallocatesOne (m : Allocator) (r1 address : Word) : Prop :=
  ∃ m' result, m.deallocate r1 address = some (m', result) ∧
    (result = 1#32 ↔ ∃ i, m.BeginsAt address i ∧ isOccupied (m.mem i) = true) ∧
    (result = 1#32 → ∃ i, m.BeginsAt address i ∧ Clears m m' i) ∧
    (result ≠ 1#32 → result = 0#32 ∧ m'.mem = m.mem ∧ m'.mstatLocal = m.mstatLocal)

/-- The first chunk that begins at the address, if there is one, is in use. -/
def FirstOccupied (m : Allocator) (address : Word) : Prop :=
  ∀ i < numOfSlots, m.BeginsAt address i → (∀ j < i, ¬ m.BeginsAt address j) →
    isOccupied (m.mem i) = true

instance (m : Allocator) (address : Word) : Decidable (FirstOccupied m address) :=
  inferInstanceAs (Decidable (∀ i < numOfSlots, _ → _ → _))

section Deallocation

variable {m m' : Allocator} {k : Nat}

theorem deallocate_returns (r1 address : Word) (h : m.mutex ≠ locked) :
    ∃ m' result, m.deallocate r1 address = some (m', result) := by
  simp only [deallocate, lockMutex_free r1 h]
  split
  · exact ⟨_, _, rfl⟩
  · exact ⟨_, _, rfl⟩

/-- When `deallocate` keeps its promise. -/
theorem deallocatesOne_iff (m : Allocator) (r1 address : Word) :
    DeallocatesOne m r1 address ↔ m.mutex ≠ locked ∧ FirstOccupied m address := by
  constructor
  · rintro ⟨m', result, hcall, hresult, hcleared, -⟩
    rcases deallocate_cases hcall with ⟨hmutex, hdone⟩
    refine ⟨hmutex, fun i hi hat hbefore => ?_⟩
    cases hdone with
    | missed hno => exact absurd hat.2 (hno i hi)
    | found l hl hlat hlbefore =>
        -- The entry that was found is the first, and the one that was cleared.
        have hil : i = l := by
          rcases Nat.lt_trichotomy i l with hlt | heq | hgt
          · exact absurd hat.2 (hlbefore i hlt)
          · exact heq
          · exact absurd ⟨hl, hlat⟩ (hbefore l hgt)
        rcases hcleared rfl with ⟨j, -, hclears⟩
        by_cases hjl : j = l
        · rw [hil, ← hjl]
          exact hclears.occupied
        · have hsame : pack (baseOffset (m.mem j)) (chunkSize (m.mem j)) false = m.mem j := by
            rw [← hclears.cleared]
            exact Function.update_of_ne hjl _ m.mem
          have hbit := hclears.occupied
          rw [← hsame, isOccupied_pack] at hbit
          exact absurd hbit Bool.false_ne_true
  · rintro ⟨hmutex, hfirst⟩
    rcases deallocate_returns r1 address hmutex with ⟨m', result, hcall⟩
    refine ⟨m', result, hcall, ?_⟩
    cases (deallocate_cases hcall).2 with
    | missed hno =>
        refine ⟨iff_of_false (by decide) ?_, fun hc => absurd hc (by decide),
          fun _ => ⟨rfl, rfl, rfl⟩⟩
        rintro ⟨i, hat, -⟩
        exact hno i hat.1 hat.2
    | found i hi hat hbefore =>
        have hocc : isOccupied (m.mem i) = true :=
          hfirst i hi ⟨hi, hat⟩ fun j hj hc => hbefore j hj hc.2
        refine ⟨iff_of_true rfl ⟨i, ⟨hi, hat⟩, hocc⟩,
          fun _ => ⟨i, ⟨hi, hat⟩, hocc, Function.update_self .., fun j hj => ?_⟩,
          fun hc => absurd rfl hc⟩
        exact Function.update_of_ne hj _ m.mem

/-! ### The counters -/

theorem occupiedSet_same (h : m'.mem = m.mem) : m'.occupiedSet = m.occupiedSet := by
  rw [occupiedSet, occupiedSet, h]

/-- An entry becomes occupied. -/
theorem card_occupiedSet_set {i : Nat} {w : Word} (hi : i < numOfSlots)
    (hmem : m'.mem = Function.update m.mem i w) (hw : isOccupied w = true)
    (hfree : isOccupied (m.mem i) = false) :
    m'.occupiedSet.card = m.occupiedSet.card + 1 := by
  have hset : m'.occupiedSet = insert i m.occupiedSet := by
    ext j
    simp only [occupiedSet, Finset.mem_insert, Finset.mem_filter, Finset.mem_range, hmem]
    by_cases hj : j = i
    · rw [hj, Function.update_self]
      exact iff_of_true ⟨hi, hw⟩ (Or.inl rfl)
    · rw [Function.update_of_ne hj, or_iff_right hj]
  rw [hset, Finset.card_insert_of_notMem]
  simp only [occupiedSet, Finset.mem_filter, hfree, Bool.false_eq_true, and_false,
    not_false_eq_true]

/-- An entry becomes free. -/
theorem card_occupiedSet_clear {i : Nat} {w : Word} (hi : i < numOfSlots)
    (hmem : m'.mem = Function.update m.mem i w) (hw : isOccupied w = false)
    (hocc : isOccupied (m.mem i) = true) :
    m'.occupiedSet.card + 1 = m.occupiedSet.card := by
  have hback : m.mem = Function.update m'.mem i (m.mem i) := by
    rw [hmem, Function.update_idem, Function.update_eq_self]
  refine (card_occupiedSet_set hi hback hocc ?_).symm
  rw [hmem, Function.update_self, hw]

/-- The counters say how many entries are occupied. -/
def CountsOccupied (m : Allocator) : Prop :=
  m.debug = true ∧ m.outstanding = BitVec.ofNat 32 m.occupiedSet.card

/-- A call that leaves the table and the counters. -/
theorem counted_same (h : CountsOccupied m) (hdebug : m'.debug = m.debug) (hmem : m'.mem = m.mem)
    (hstat : m'.mstatLocal = m.mstatLocal) : CountsOccupied m' := by
  refine ⟨by rw [hdebug]; exact h.1, ?_⟩
  rw [outstanding, hstat, occupiedSet_same hmem]
  exact h.2

/-- A call that makes an entry occupied and counts it. -/
theorem counted_set {i : Nat} {w : Word} (h : CountsOccupied m) (hi : i < numOfSlots)
    (hdebug : m'.debug = m.debug) (hmem : m'.mem = Function.update m.mem i w)
    (hw : isOccupied w = true) (hfree : isOccupied (m.mem i) = false)
    (hstat : m'.mstatLocal = m.mstatLocal.countAlloc m.debug) : CountsOccupied m' := by
  refine ⟨by rw [hdebug]; exact h.1, ?_⟩
  have hcount : m.mstatLocal.numOfAllocs + 1#32 - m.mstatLocal.numOfDeallocs =
      m.outstanding + 1#32 := by
    rw [outstanding]
    bv_omega
  rw [outstanding, hstat, MemoryStatisticLocal.countAlloc, if_pos h.1, hcount, h.2,
    card_occupiedSet_set hi hmem hw hfree, BitVec.ofNat_add]

/-- A call that makes an entry free and counts it. -/
theorem counted_clear {i : Nat} {w : Word} (h : CountsOccupied m) (hi : i < numOfSlots)
    (hdebug : m'.debug = m.debug) (hmem : m'.mem = Function.update m.mem i w)
    (hw : isOccupied w = false) (hocc : isOccupied (m.mem i) = true)
    (hstat : m'.mstatLocal = m.mstatLocal.countDealloc m.debug) : CountsOccupied m' := by
  refine ⟨by rw [hdebug]; exact h.1, ?_⟩
  have hcount := h.2
  rw [← card_occupiedSet_clear hi hmem hw hocc, BitVec.ofNat_add] at hcount
  rw [outstanding] at hcount
  rw [outstanding, hstat, MemoryStatisticLocal.countDealloc, if_pos h.1]
  change m.mstatLocal.numOfAllocs - (m.mstatLocal.numOfDeallocs + 1#32) = _
  bv_omega

end Deallocation

/-- What is given back is in use. -/
def GivesBackUsed (s : Client) : Request → Prop
  | Request.allocate _ _ => True
  | Request.deallocate _ address => FirstOccupied s.heap address

instance (s : Client) (e : Request) : Decidable (GivesBackUsed s e) :=
  match e with
  | Request.allocate _ _ => isTrue trivial
  | Request.deallocate _ address => inferInstanceAs (Decidable (FirstOccupied s.heap address))

/-- A call that gives back what is in use keeps the counters right, and so does
    every allocation. -/
theorem counted_step (s : Client) (e : Request) (s' : Client) (h : CountsOccupied s.heap)
    (hC : GivesBackUsed s e) (hstep : clientStep e s = some s') : CountsOccupied s'.heap := by
  rcases clientStep_heap hstep with ⟨r1, size, p, rfl, hcall⟩ | ⟨r1, address, p, rfl, hcall⟩
  · generalize s'.heap = m' at hcall ⊢
    cases hcall with
    | rejected => exact counted_same h rfl rfl rfl
    | full => exact counted_same h rfl rfl rfl
    | reuse i _ hfirst _ =>
        exact counted_set h hfirst.1 rfl rfl (isOccupied_pack _ _ _) hfirst.2.1.1 rfl
    | carve i offset _ hfirst _ _ =>
        refine counted_set h hfirst.1 rfl rfl ?_ hfirst.2.1.1 rfl
        rw [carved_eq, isOccupied_pack]
  · generalize s'.heap = m' at hcall ⊢
    cases hcall with
    | missed => exact counted_same h rfl rfl rfl
    | found i hi hat hbefore =>
        -- Only the first entry with this base is given back, and the run promises it
        -- occupied.
        have hocc : isOccupied (s.heap.mem i) = true :=
          hC i hi ⟨hi, hat⟩ fun j hj hc => hbefore j hj hc.2
        exact counted_clear h hi rfl rfl (isOccupied_pack _ _ _) hocc rfl

/-- No entry of an empty table is occupied. -/
theorem counted_initAllocator {raw : Allocator} (startOsSection ramSize : Word)
    (hdebug : raw.debug = true)
    (hzero : raw.mstatLocal.numOfAllocs = raw.mstatLocal.numOfDeallocs) :
    CountsOccupied (raw.initAllocator startOsSection ramSize) := by
  refine ⟨hdebug, ?_⟩
  have hempty : (raw.initAllocator startOsSection ramSize).occupiedSet = ∅ := by
    refine Finset.filter_eq_empty_iff.mpr fun i hi hocc => ?_
    have hunused := (packed_initAllocator raw startOsSection ramSize).rest i (Nat.zero_le i)
      (Finset.mem_range.mp hi)
    rw [hunused, unused_fields.2.2] at hocc
    exact absurd hocc Bool.false_ne_true
  rw [hempty, Finset.card_empty, outstanding]
  simp only [initAllocator, hzero, BitVec.sub_self]

/-- In every reachable state `deallocate` keeps its promise for an address
    unless somebody holds the mutex or the first chunk that begins there is free.
    In a run in which only what is in use is given back, the counters of a
    `DEBUG` kernel say how many entries are occupied. -/
theorem deallocate_one_iff {raw : Allocator} {startOsSection ramSize : Word} {es : List Request}
    {s : Client} (hrun : run clientStep es (initialClient raw startOsSection ramSize) = some s) :
    (∀ r1 address, DeallocatesOne s.heap r1 address ↔
      s.heap.mutex ≠ locked ∧ FirstOccupied s.heap address) ∧
    (raw.debug = true → raw.mstatLocal.numOfAllocs = raw.mstatLocal.numOfDeallocs →
      Meets clientStep GivesBackUsed es (initialClient raw startOsSection ramSize) →
      s.heap.outstanding = BitVec.ofNat 32 s.heap.occupiedSet.card) := by
  refine ⟨deallocatesOne_iff s.heap, fun hdebug hzero hmeets => ?_⟩
  have hinit : CountsOccupied (initialClient raw startOsSection ramSize).heap :=
    counted_initAllocator startOsSection ramSize hdebug hzero
  have hcounted : CountsOccupied s.heap :=
    run_invariant clientStep (fun s => CountsOccupied s.heap) counted_step es _ s hinit hmeets hrun
  exact hcounted.2

/-- An allocator that counts its calls. -/
def countingClient : Client :=
  initialClient { blankMemory with debug := true } 0x20001001#32 0x10000#32

/-- The second of two chunks is given back. -/
theorem deallocate_one_iff_fillAndFree :
    Ends clientStep fillAndFree countingClient fun s =>
      DeallocatesOne s.heap 7#32 0x20001120#32 ∧
        s.heap.outstanding = BitVec.ofNat 32 s.heap.occupiedSet.card := by
  have hmeets : Meets clientStep GivesBackUsed fillAndFree countingClient := by decide +kernel
  have hends : Ends clientStep fillAndFree countingClient fun s =>
      s.heap.mutex ≠ locked ∧ FirstOccupied s.heap 0x20001120#32 := by decide +kernel
  rcases hends with ⟨s, hrun, hcond⟩
  rcases deallocate_one_iff hrun with ⟨hone, hcounted⟩
  exact ⟨s, hrun, (hone 7#32 0x20001120#32).mpr hcond, hcounted rfl rfl hmeets⟩

/-- A chunk is given back twice. -/
def freeTwice : List Request :=
  [Request.allocate 7#32 24, Request.deallocate 7#32 0x20001108#32,
    Request.deallocate 7#32 0x20001108#32]

/-- Both answers are 1 and both are counted. The first address of an empty table
    is given back as well. -/
theorem deallocate_one_fails :
    ¬ DeallocatesOne countingClient.heap 7#32 0x20001108#32 ∧
      Ends clientStep (freeTwice.take 2) countingClient (fun s =>
        ¬ DeallocatesOne s.heap 7#32 0x20001108#32) ∧
      Ends clientStep freeTwice countingClient fun s =>
        s.heap.outstanding ≠ BitVec.ofNat 32 s.heap.occupiedSet.card := by
  have hempty : ¬ FirstOccupied countingClient.heap 0x20001108#32 := by decide +kernel
  have hends : Ends clientStep (freeTwice.take 2) countingClient fun s =>
      ¬ FirstOccupied s.heap 0x20001108#32 := by decide +kernel
  rcases hends with ⟨s, hrun, hfree⟩
  refine ⟨fun hone => hempty ((deallocatesOne_iff _ _ _).mp hone).2,
    ⟨s, hrun, fun hone => hfree ((deallocatesOne_iff _ _ _).mp hone).2⟩, ?_⟩
  decide +kernel

/-! ### A block is given back and its chunk asked for -/

/-- The chunk of entry `i` was granted for a live block. -/
structure GrantedChunk (m : Allocator) (b : Block) (i : Nat) : Prop where
  bound : i < numOfSlots
  occupied : isOccupied (m.mem i) = true
  address : m.addressOf (baseOffset (m.mem i)) = b.1
  large : b.2 ≤ chunkSize (m.mem i)

/-- The block of entry `i` of `m` is given back, which leaves `m₁`, and a request
    is served at `q`, which leaves `m₂`: by the first entry that fits, that of a
    freed chunk, which is handed out with its whole size. It is the block's own
    entry if no other free one before it fits, and then the table is that of `m`
    again. -/
structure Reallocated (m m₁ m₂ : Allocator) (i size : Nat) (p q : Word) : Prop where
  served : ∃ f < numOfSlots, FirstFit m₁.mem (roundUp 4 size) f ∧
    chunkSize (m₁.mem f) ≠ 0x7FFF ∧ q = m₁.addressOf (baseOffset (m₁.mem f)) ∧
    isOccupied (m₂.mem f) = true ∧ chunkSize (m₂.mem f) = chunkSize (m₁.mem f)
  own : (∀ j < i, ¬ Fits (roundUp 4 size) (m.mem j)) → q = p
  restored : q = p → ∀ j, m₂.mem j = m.mem j

/-- The block is given back, and then every request that its chunk can hold is
    served. -/
def Reclaims (m : Allocator) (b : Block) : Prop :=
  ∃ i, GrantedChunk m b i ∧ ∀ r1, ∃ m₁, m.deallocate r1 b.1 = some (m₁, 1#32) ∧
    ∀ r2 size, 0 < size → roundUp 4 size ≤ chunkSize (m.mem i) →
      ∃ m₂ q, m₁.allocate r2 size = some (m₂, q) ∧ Reallocated m m₁ m₂ i size b.1 q

section Reallocation

variable {m m₁ m₂ : Allocator} {live : List Block} {k : Nat}

/-- The entry that covers a live block. -/
theorem Covered.granted {s : Client} (h : Covered s k) {b : Block} (hb : b ∈ s.live) :
    ∃ i < k, GrantedChunk s.heap b i := by
  rcases h.entry b hb with ⟨i, hi, hcov⟩
  refine ⟨i, hi, Nat.lt_of_lt_of_le hi h.tiled.bound, hcov.occupied, ?_, hcov.size⟩
  rw [h.tiled.offset i hi, hcov.address]

/-- In a tiled table entries are told apart by where their chunks begin. -/
theorem Tiled.beginsAt_unique (h : Tiled m k) {i j : Nat} (hi : i < k) (hj : j < k)
    (haddress : m.addressOf (baseOffset (m.mem i)) = m.addressOf (baseOffset (m.mem j))) :
    i = j := by
  rw [h.offset i hi, h.offset j hj] at haddress
  exact h.entry_unique hi hj haddress

/-- What `deallocate` does with a chunk in use. -/
theorem deallocated_granted (h : Tiled m k) {i : Nat} (hi : i < k) {b : Block}
    (hgranted : GrantedChunk m b i) {r1 result : Word}
    (hcall : m.deallocate r1 b.1 = some (m₁, result)) :
    result = 1#32 ∧ m₁.memTableStart = m.memTableStart ∧ m₁.mutex = unlocked ∧ m₁.mem =
      Function.update m.mem i (pack (baseOffset (m.mem i)) (chunkSize (m.mem i)) false) := by
  cases (deallocate_cases hcall).2 with
  | missed hno => exact absurd hgranted.address (hno i hgranted.bound)
  | found l hl hat hbefore =>
      -- No entry before it begins there, and none behind it is the first.
      have hli : l = i := by
        rcases Nat.lt_trichotomy l i with hlt | heq | hgt
        · exact h.beginsAt_unique (Nat.lt_trans hlt hi) hi (hat.trans hgranted.address.symm)
        · exact heq
        · exact absurd hgranted.address (hbefore i hgt)
      rw [hli]
      exact ⟨rfl, rfl, rfl, rfl⟩

/-- A request that some used entry can serve is served from a freed chunk. -/
theorem allocated_reuse (h : Packed m k) {i size : Nat} (hi : i < k) (hpos : 0 < size)
    (hfit : Fits (roundUp 4 size) (m.mem i)) {r1 q : Word} (hcall : Allocated m r1 size m₁ q) :
    ∃ f ≤ i, FirstFit m.mem (roundUp 4 size) f ∧ chunkSize (m.mem f) ≠ 0x7FFF ∧
      q = m.addressOf (baseOffset (m.mem f)) ∧ m₁.mem =
        Function.update m.mem f (pack (baseOffset (m.mem f)) (chunkSize (m.mem f)) true) := by
  have hle : size ≤ chunkSize (m.mem i) := Nat.le_trans (le_roundUp 4 size) hfit.2
  have hlt := chunkSize_lt (m.mem i)
  have hfirst : ∀ f, FirstFit m.mem (roundUp 4 size) f → f ≤ i := fun f hf =>
    Nat.le_of_not_lt fun hc => hf.2.2 i hc hfit
  cases hcall with
  | rejected hrej => rcases hrej with hzero | hbig <;> omega
  | full _ hno => exact absurd hfit (hno i (Nat.lt_of_lt_of_le hi h.bound))
  | carve f offset _ hf hunused _ =>
      have hfk : f = k := h.firstFit_unused hf hunused
      have hfi := hfirst f hf
      omega
  | reuse f _ hf hused => exact ⟨f, hfirst f hf, hf, hused, rfl, rfl⟩

/-- A live block is given back and its chunk is asked for. -/
theorem reallocated_of_tiled (h : Tiled m k) {i : Nat} (hi : i < k) {b : Block}
    (hgranted : GrantedChunk m b i) {r1 r2 result : Word} {size : Nat} (hpos : 0 < size)
    (hsize : roundUp 4 size ≤ chunkSize (m.mem i))
    (hcall : m.deallocate r1 b.1 = some (m₁, result)) :
    ∃ m₂ q, m₁.allocate r2 size = some (m₂, q) ∧ Reallocated m m₁ m₂ i size b.1 q := by
  rcases deallocated_granted h hi hgranted hcall with ⟨_, hstart, hmutex, hmem₁⟩
  -- The table after the first call: the same chunks, one of them free.
  have htiled₁ : Tiled m₁ k := tiled_setOccupied h hstart hmem₁ fun _ _ => rfl
  have hsizes := sizes_setOccupied hmem₁
  have hoffsets := baseOffset_setOccupied hmem₁
  have haddress : ∀ j, m₁.addressOf (baseOffset (m₁.mem j)) = m.addressOf (baseOffset (m.mem j)) :=
    fun j => by rw [hoffsets j, addressOf, addressOf, useableMemStart, useableMemStart, hstart]
  have hfit : Fits (roundUp 4 size) (m₁.mem i) := by
    refine ⟨by rw [hmem₁, Function.update_self, isOccupied_pack], ?_⟩
    exact Nat.le_trans hsize (Nat.le_of_eq (hsizes i).symm)
  rcases allocate_returns r2 size (by rw [hmutex]; decide) with ⟨m₂, q, hcall₂⟩
  -- The search finds that one, or one before it.
  rcases allocated_reuse htiled₁.packed hi hpos hfit (allocate_cases hcall₂).2 with
    ⟨f, hfi, hfirst, hused, hq, hmem₂⟩
  refine ⟨m₂, q, hcall₂, ⟨f, hfirst.1, hfirst, hused, hq, ?_, ?_⟩, fun hbefore => ?_,
    fun hown j => ?_⟩
  · rw [hmem₂, Function.update_self, isOccupied_pack]
  · exact sizes_setOccupied hmem₂ f
  · -- An entry before the block's own is what it was.
    have hfi' : f = i := by
      rcases Nat.eq_or_lt_of_le hfi with heq | hlt
      · exact heq
      · have hfitf := hfirst.2.1
        rw [hmem₁, Function.update_of_ne (Nat.ne_of_lt hlt)] at hfitf
        exact absurd hfitf (hbefore f hlt)
    rw [hq, hfi', haddress, hgranted.address]
  -- An answer at the block's own address can only be its own entry.
  · have hfi' : f = i := by
      refine h.beginsAt_unique (Nat.lt_of_le_of_lt hfi hi) hi ?_
      rw [← haddress f, ← hq, hown, hgranted.address]
    rw [hmem₂, hfi']
    by_cases hj : j = i
    · rw [hj, Function.update_self]
      refine entry_ext ?_ ?_ ?_
      · rw [baseOffset_pack, Nat.mod_eq_of_lt (baseOffset_lt _), hoffsets i]
      · rw [chunkSize_pack, Nat.mod_eq_of_lt (chunkSize_lt _)]
        exact hsizes i
      · rw [isOccupied_pack, hgranted.occupied]
    · rw [Function.update_of_ne hj, hmem₁, Function.update_of_ne hj]

/-- Nothing is given back while the mutex is locked, and otherwise all is as it should
    be. -/
theorem reclaims_iff (h : Tiled m k) {i : Nat} (hi : i < k) {b : Block}
    (hgranted : GrantedChunk m b i) : Reclaims m b ↔ m.mutex ≠ locked := by
  constructor
  · rintro ⟨_, _, hall⟩
    rcases hall 0#32 with ⟨m₁, hcall, _⟩
    exact (deallocate_cases hcall).1
  · refine fun hmutex => ⟨i, hgranted, fun r1 => ?_⟩
    rcases deallocate_returns r1 b.1 hmutex with ⟨m₁, result, hcall⟩
    rcases deallocated_granted h hi hgranted hcall with ⟨rfl, _⟩
    exact ⟨m₁, hcall, fun r2 size hpos hsize =>
      reallocated_of_tiled h hi hgranted hpos hsize hcall⟩

end Reallocation

/-! ### Small requests in a small memory -/

section Bytes

variable {m m' : Allocator} {k : Nat}

/-- Sizes that stay the same take what they took. -/
theorem usedBytes_same (h : Packed m k) (h' : Packed m' k) (hsizes : ∀ i, m'.sizes i = m.sizes i) :
    m.usedBytes ≤ m'.usedBytes := by
  rw [h.usedBytes_eq, h'.usedBytes_eq]
  exact Nat.le_of_eq (Tiling.start_congr fun i _ => (hsizes i).symm)

theorem usedBytes_mem (h : Packed m k) (hstart : m'.memTableStart = m.memTableStart)
    (hmem : m'.mem = m.mem) : m.usedBytes ≤ m'.usedBytes :=
  usedBytes_same h (packed_same h hstart hmem) fun i => by
    rw [Allocator.sizes, Allocator.sizes, hmem]

/-- No allocation makes the used chunks take less. -/
theorem usedBytes_allocated (h : Packed m k) {r1 p : Word} {size : Nat}
    (hcall : Allocated m r1 size m' p) : m.usedBytes ≤ m'.usedBytes := by
  cases hcall with
  | rejected => exact usedBytes_mem h rfl rfl
  | full => exact usedBytes_mem h rfl rfl
  | reuse i _ hfirst hused =>
      have hi := h.lt_of_used hfirst.1 hused
      refine usedBytes_same h (packed_setOccupied h rfl rfl fun hk => ?_)
        fun j => sizes_setOccupied rfl j
      exact absurd hi (Nat.not_lt.mpr hk)
  | carve i offset _ hfirst hunused hoffset =>
      -- The first entry that fits is the first unused one, so the chunk is carved
      -- behind all others.
      have hik : i = k := h.firstFit_unused hfirst hunused
      subst hik hoffset
      set m' : Allocator := { m with
        mem := Function.update m.mem i (carved (roundUp 4 size) (Tiling.start m.sizes i))
        mutex := unlocked
        sysTick := true
        mstatLocal := m.mstatLocal.countAlloc m.debug } with hm'
      have hmem : m'.mem = Function.update m.mem i
          (pack (Tiling.start m.sizes i) (roundUp 8 (roundUp 4 size)) true) := by rw [← carved_eq]
      have hpacked : Packed m' (i + 1) :=
        packed_carve h hfirst.1 rfl hmem (roundUp_dvd (by decide))
      change m.usedBytes ≤ m'.usedBytes
      rw [h.usedBytes_eq, hpacked.usedBytes_eq, ← (sizes_carve hmem).2.2 i (Nat.le_refl i)]
      exact Tiling.start_mono _ (Nat.le_succ i)

/-- No call makes the used chunks take less. -/
theorem usedBytes_step {s s' : Client} {e : Request} (h : ∃ k, Packed s.heap k)
    (hstep : clientStep e s = some s') : s.heap.usedBytes ≤ s'.heap.usedBytes := by
  rcases h with ⟨k, h⟩
  rcases clientStep_heap hstep with ⟨r1, size, p, _, hcall⟩ | ⟨r1, address, p, _, hcall⟩
  · exact usedBytes_allocated h hcall
  · have hpacked := packed_deallocate h hcall
    generalize s'.heap = m' at hcall hpacked ⊢
    cases hcall with
    | missed => exact usedBytes_mem h rfl rfl
    | found i => exact usedBytes_same h hpacked fun j => sizes_setOccupied rfl j

theorem usedBytes_run {es : List Request} {s t : Client} (h : ∃ k, Packed s.heap k)
    (hrun : run clientStep es s = some t) : s.heap.usedBytes ≤ t.heap.usedBytes :=
  (run_preserves clientStep
    (fun u => (∃ k, Packed u.heap k) ∧ s.heap.usedBytes ≤ u.heap.usedBytes)
    (fun u e u' hu hstep =>
      ⟨packed_step u e u' hu.1 hstep, Nat.le_trans hu.2 (usedBytes_step hu.1 hstep)⟩)
    es s t ⟨h, Nat.le_refl _⟩ hrun).2

/-- Small requests whose chunks do not exceed the memory fit their entries: what
    was carved at the end bounds what was carved before. -/
theorem meets_withinFields {es : List Request} {s t : Client} (h : ∃ k, Packed s.heap k)
    (hsmall : ∀ r1 size, Request.allocate r1 size ∈ es → size ≤ 32760)
    (hrun : run clientStep es s = some t) (hbytes : t.heap.usedBytes < 65536) :
    Meets clientStep WithinFields es s := by
  induction es generalizing s with
  | nil => trivial
  | cons e es ih =>
      have hall := usedBytes_run h hrun
      rcases run_cons clientStep hrun with ⟨s', hstep, hrest⟩
      refine ⟨?_, ?_⟩
      · cases e with
        | allocate r1 size =>
            exact fun _ => ⟨hsmall r1 size List.mem_cons_self, Nat.lt_of_le_of_lt hall hbytes⟩
        | deallocate r1 address => trivial
      · rw [hstep]
        exact ih (packed_step s e s' h hstep)
          (fun r1 size hmem => hsmall r1 size (List.mem_cons_of_mem e hmem)) hrest

end Bytes

/-- After any run of small requests in a memory that is small enough, a live
    block is given back and a request that its chunk can hold is served by the
    first freed chunk that fits, and by the block's own without a trace, if and
    only if the mutex is not locked. -/
theorem deallocate_then_allocate {raw : Allocator} {startOsSection ramSize : Word}
    {es : List Request} {s : Client}
    (hrun : run clientStep es (initialClient raw startOsSection ramSize) = some s)
    (hsmall : ∀ r1 size, Request.allocate r1 size ∈ es → size ≤ 32760)
    (hbytes : s.heap.usedBytes < 65536) {b : Block} (hb : b ∈ s.live) :
    Reclaims s.heap b ↔ s.heap.mutex ≠ locked := by
  have hmeets : Meets clientStep WithinFields es (initialClient raw startOsSection ramSize) :=
    meets_withinFields ⟨0, packed_initAllocator raw startOsSection ramSize⟩ hsmall hrun hbytes
  rcases run_invariant clientStep (fun s => ∃ k, Covered s k) covered_step es _ s
    ⟨0, covered_initialClient raw startOsSection ramSize⟩ hmeets hrun with ⟨k, hcovered⟩
  rcases hcovered.granted hb with ⟨i, hi, hgranted⟩
  exact reclaims_iff hcovered.tiled hi hgranted

/-- The block that was handed out last can be given back. -/
theorem deallocate_then_allocate_fillAndFree :
    Ends clientStep fillAndFree freshClient fun s => Reclaims s.heap (0x20001120#32, 32760) := by
  have hends : Ends clientStep fillAndFree freshClient fun s =>
      s.heap.usedBytes < 65536 ∧ (0x20001120#32, 32760) ∈ s.live ∧ s.heap.mutex ≠ locked := by
    decide +kernel
  rcases hends with ⟨s, hrun, hbytes, hb, hmutex⟩
  have hsmall : ∀ r1 size, Request.allocate r1 size ∈ fillAndFree → size ≤ 32760 := by
    intro r1 size hmem
    simp only [fillAndFree, List.mem_cons, Request.allocate.injEq, reduceCtorEq, List.not_mem_nil,
      or_false] at hmem
    rcases hmem with ⟨-, rfl⟩ | ⟨-, rfl⟩ <;> decide
  exact ⟨s, hrun, (deallocate_then_allocate hrun hsmall hbytes hb).mpr hmutex⟩

/-- A block is handed out, and a request for nothing is rejected while the register that
    the lock is taken with says so. -/
def rejectLocked : List Request := [Request.allocate 7#32 24, Request.allocate locked 0]

/-- The block is still live, and giving it back spins for ever. -/
theorem deallocate_then_allocate_spins :
    (∀ r1 size, Request.allocate r1 size ∈ rejectLocked → size ≤ 32760) ∧
      Ends clientStep rejectLocked freshClient fun s => s.heap.usedBytes < 65536 ∧
        (0x20001108#32, 24) ∈ s.live ∧ (∀ r1, s.heap.deallocate r1 0x20001108#32 = none) ∧
        ¬ Reclaims s.heap (0x20001108#32, 24) := by
  refine ⟨fun r1 size hmem => ?_, ?_⟩
  · simp only [rejectLocked, List.mem_cons, Request.allocate.injEq, List.not_mem_nil,
      or_false] at hmem
    rcases hmem with ⟨-, rfl⟩ | ⟨-, rfl⟩ <;> decide
  · have hends : Ends clientStep rejectLocked freshClient fun s =>
        s.heap.usedBytes < 65536 ∧ (0x20001108#32, 24) ∈ s.live ∧ s.heap.mutex = locked := by
      decide +kernel
    rcases hends with ⟨s, hrun, hbytes, hb, hmutex⟩
    have hspins (r1 : Word) : s.heap.deallocate r1 0x20001108#32 = none := by
      rw [deallocate, lockMutex_locked r1 hmutex]
    refine ⟨s, hrun, hbytes, hb, hspins, ?_⟩
    rintro ⟨_, _, hall⟩
    rcases hall 0#32 with ⟨m₁, hcall, _⟩
    rw [hspins 0#32] at hcall
    exact absurd hcall (by simp only [reduceCtorEq, not_false_eq_true])

end NextLevelRTOS
