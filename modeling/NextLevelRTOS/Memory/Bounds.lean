import NextLevelRTOS.Memory.Blocks

/-!
# Where Chunks End

Nothing in `allocate` looks at the end of the memory. `init_allocator` is told
how large the memory is and keeps the number for the statistics; `allocate`
carves chunk after chunk, as long as there are table entries. So a block lies
inside the memory as long as the calls before it have not used the memory up,
and the call that uses it up gets an address like any other.

`Packed` holds of every table. What has to be added for blocks inside the
memory is that no carved chunk ends behind it and that the offset of none was
cut to sixteen bits. A freed chunk is given out for more than it was carved
for, by less than eight bytes, which counts if the memory does not end at a
multiple of eight.

## Main definitions

* `ramEnd`: The end of the memory.
* `Placed`: A block lies inside the memory, behind the chunks before it.
* `WithinRam`: The condition on a call.
* `Bounded`: The invariant.

## Theorems

* `packed_step`: Every call keeps the table packed.
* `bounded_step`: A call that meets the condition keeps the invariant.
* `allocate_placed`: Blocks lie inside the memory in runs whose calls meet the
  condition.
* `allocate_outside`: A block that does not.
-/

namespace NextLevelRTOS

open Machine Allocator

/-- `RAM_START` -/
def ramStart : Nat := 0x20000000

/-- The end of the memory, `RAM_START + ram_size`. -/
def ramEnd (ramSize : Word) : Nat := ramStart + ramSize.toNat

/-- The block lies inside the memory behind the table, at an entry's chunk, and
    its distance from the table is the sum of the sizes before it. -/
structure Placed (m : Allocator) (ramSize : Word) (size : Nat) (p : Word) : Prop where
  behind : m.useableMemStart.toNat ≤ p.toNat
  within : p.toNat + size ≤ ramEnd ramSize
  tiled : ∃ i < numOfSlots, isOccupied (m.mem i) = true ∧
    p = m.addressOf (baseOffset (m.mem i)) ∧
    p.toNat - m.useableMemStart.toNat = Tiling.start m.sizes i

/-- There is room for `size` bytes at an offset: they end inside the memory, and
    before the addresses do. -/
def RoomFor (s : Client) (offset size : Nat) : Prop :=
  s.heap.useableMemStart.toNat + offset + size ≤ ramEnd s.heap.mstatLocal.ramSize ∧
    s.heap.useableMemStart.toNat + offset + size ≤ 4294967296

instance (s : Client) (offset size : Nat) : Decidable (RoomFor s offset size) :=
  inferInstanceAs (Decidable (_ ∧ _))

/-- There is room for what a call asks for: behind the used chunks, if it carves
    a new one, and in the freed chunk, if one fits. -/
def WithinRam (s : Client) : Request → Prop
  | Request.allocate _ size =>
    (Carves s.heap size → s.heap.usedBytes < 65536 ∧ RoomFor s s.heap.usedBytes size) ∧
      (¬ Rejected size → ∀ i < numOfSlots, FirstFit s.heap.mem (roundUp 4 size) i →
        chunkSize (s.heap.mem i) ≠ 0x7FFF → RoomFor s (baseOffset (s.heap.mem i)) size)
  | Request.deallocate _ _ => True

instance (s : Client) (e : Request) : Decidable (WithinRam s e) :=
  match e with
  | Request.allocate _ size =>
    inferInstanceAs (Decidable
      ((Carves s.heap size → s.heap.usedBytes < 65536 ∧ RoomFor s s.heap.usedBytes size) ∧
        (¬ Rejected size → ∀ i < numOfSlots, FirstFit s.heap.mem (roundUp 4 size) i →
          chunkSize (s.heap.mem i) ≠ 0x7FFF → RoomFor s (baseOffset (s.heap.mem i)) size)))
  | Request.deallocate _ _ => isTrue trivial

/-! ### Every table is packed -/

section Packing

variable {m m' : Allocator} {k : Nat}

theorem packed_same (h : Packed m k) (hstart : m'.memTableStart = m.memTableStart)
    (hmem : m'.mem = m.mem) : Packed m' k :=
  packed_rewrite h hstart (fun i _ => by rw [hmem])
    (fun i _ => by rw [Allocator.sizes, Allocator.sizes, hmem]) (fun i _ _ => by rw [hmem])

/-- The entry of a carved chunk, with the size before it is cut. -/
theorem carved_eq (size next : Nat) : carved size next = pack next (roundUp 8 size) true := by
  rw [carved, pack, pack, Nat.mod_mod]

theorem packed_allocate {r1 p : Word} {size : Nat} (h : Packed m k)
    (hcall : Allocated m r1 size m' p) : ∃ k', Packed m' k' := by
  cases hcall with
  | rejected => exact ⟨k, packed_same h rfl rfl⟩
  | full => exact ⟨k, packed_same h rfl rfl⟩
  | reuse i hrej hfirst hused =>
      have hi := h.lt_of_used hfirst.1 hused
      exact ⟨k, packed_setOccupied h rfl rfl fun hk => absurd hi (Nat.not_lt.mpr hk)⟩
  | carve i offset hrej hfirst hunused hoffset =>
      have hik : i = k := h.firstFit_unused hfirst hunused
      subst hik hoffset
      refine ⟨i + 1, packed_carve h hfirst.1 rfl ?_ (roundUp_dvd (n := roundUp 4 size) (by decide))⟩
      rw [← carved_eq]
      rfl

theorem packed_deallocate {address p : Word} (h : Packed m k)
    (hcall : Deallocated m address m' p) : Packed m' k := by
  cases hcall with
  | missed => exact packed_same h rfl rfl
  | found i hi => exact packed_setOccupied h rfl rfl fun _ _ => rfl

end Packing

/-- What a call does to the allocator. -/
theorem clientStep_heap {s s' : Client} {e : Request} (h : clientStep e s = some s') :
    (∃ r1 size p, e = Request.allocate r1 size ∧ Allocated s.heap r1 size s'.heap p) ∨
      ∃ r1 address p, e = Request.deallocate r1 address ∧ Deallocated s.heap address s'.heap p := by
  rcases clientStep_cases h with ⟨r1, size, m, p, he, hcall, rfl⟩ |
    ⟨r1, address, m, p, he, hcall, rfl⟩
  · exact Or.inl ⟨r1, size, p, he, hcall⟩
  · exact Or.inr ⟨r1, address, p, he, hcall⟩

/-- Every call keeps the table packed. -/
theorem packed_step (s : Client) (e : Request) (s' : Client) (h : ∃ k, Packed s.heap k)
    (hstep : clientStep e s = some s') : ∃ k, Packed s'.heap k := by
  rcases h with ⟨k, h⟩
  rcases clientStep_heap hstep with ⟨r1, size, p, _, hcall⟩ | ⟨r1, address, p, _, hcall⟩
  · exact packed_allocate h hcall
  · exact ⟨k, packed_deallocate h hcall⟩

/-- The table is packed in every reachable state. -/
theorem packed_reachable {raw : Allocator} {startOsSection ramSize : Word} {es : List Request}
    {s : Client} (hrun : run clientStep es (initialClient raw startOsSection ramSize) = some s) :
    ∃ k, Packed s.heap k :=
  run_preserves clientStep (fun s => ∃ k, Packed s.heap k) packed_step es _ s
    ⟨0, packed_initAllocator raw startOsSection ramSize⟩ hrun

/-! ### Blocks inside the memory -/

/-- No offset is cut, and no chunk starts behind the last address. -/
structure Bounded (ramSize : Word) (m : Allocator) (k : Nat) : Prop where
  packed : Packed m k
  offset : ∀ i < k, Tiling.start m.sizes i < 65536
  address : ∀ i < k, m.useableMemStart.toNat + Tiling.start m.sizes i < 4294967296
  ram : m.mstatLocal.ramSize = ramSize

theorem ramSize_countAlloc (debug : Bool) (stat : MemoryStatisticLocal) :
    (stat.countAlloc debug).ramSize = stat.ramSize := by
  unfold MemoryStatisticLocal.countAlloc
  cases debug <;> rfl

theorem ramSize_countDealloc (debug : Bool) (stat : MemoryStatisticLocal) :
    (stat.countDealloc debug).ramSize = stat.ramSize := by
  unfold MemoryStatisticLocal.countDealloc
  cases debug <;> rfl

section Bounds

variable {ramSize : Word} {m m' : Allocator} {k : Nat}

/-- Sizes that stay the same keep the bounds. -/
theorem bounded_same (h : Bounded ramSize m k) (hpacked : Packed m' k)
    (hstart : m'.memTableStart = m.memTableStart) (hsizes : ∀ i < k, m'.sizes i = m.sizes i)
    (hram : m'.mstatLocal.ramSize = m.mstatLocal.ramSize) : Bounded ramSize m' k := by
  have hstarts : ∀ i < k, Tiling.start m'.sizes i = Tiling.start m.sizes i := fun i hi =>
    Tiling.start_congr fun j hj => hsizes j (Nat.lt_trans hj hi)
  refine ⟨hpacked, fun i hi => ?_, fun i hi => ?_, hram.trans h.ram⟩
  · rw [hstarts i hi]
    exact h.offset i hi
  · rw [hstarts i hi, useableMemStart, hstart]
    exact h.address i hi

/-- A chunk of the table is at the address its offset says. -/
theorem toNat_addressOf {offset : Nat} (h : m.useableMemStart.toNat + offset < 4294967296) :
    (m.addressOf offset).toNat = m.useableMemStart.toNat + offset := by
  rw [addressOf, BitVec.toNat_add, BitVec.toNat_ofNat]
  omega

/-- The chunk of a used entry, given out with enough room. -/
theorem placed_of_bounded (h : Bounded ramSize m k) {i : Nat} (size : Nat) (hi : i < k)
    (hocc : isOccupied (m.mem i) = true)
    (hroom : m.useableMemStart.toNat + Tiling.start m.sizes i + size ≤ ramEnd ramSize) :
    Placed m ramSize size (m.addressOf (baseOffset (m.mem i))) := by
  have hoffset : baseOffset (m.mem i) = Tiling.start m.sizes i := by
    rw [h.packed.offset i hi, Nat.mod_eq_of_lt (h.offset i hi)]
  have haddress := toNat_addressOf (h.address i hi)
  rw [← hoffset] at haddress hroom
  refine ⟨by omega, by omega, i, Nat.lt_of_lt_of_le hi h.packed.bound, hocc, rfl, ?_⟩
  rw [haddress, ← hoffset]
  omega

theorem bounded_carve (size : Nat) {stat : MemoryStatisticLocal} (h : Bounded ramSize m k)
    (hk : k < numOfSlots)
    (hm' : m' = { m with
      mem := Function.update m.mem k (carved (roundUp 4 size) (Tiling.start m.sizes k))
      mutex := unlocked
      sysTick := true
      mstatLocal := stat }) (hram : stat.ramSize = ramSize)
    (hoffset : Tiling.start m.sizes k < 65536)
    (haddress : m.useableMemStart.toNat + Tiling.start m.sizes k < 4294967296) :
    Bounded ramSize m' (k + 1) := by
  have hmem : m'.mem = Function.update m.mem k
      (pack (Tiling.start m.sizes k) (roundUp 8 (roundUp 4 size)) true) := by
    rw [hm', ← carved_eq]
  have hstart : m'.memTableStart = m.memTableStart := by rw [hm']
  have huse : m'.useableMemStart = m.useableMemStart := by
    rw [useableMemStart, useableMemStart, hstart]
  rcases sizes_carve hmem with ⟨_, _, hstarts⟩
  refine ⟨packed_carve h.packed hk hstart hmem (roundUp_dvd (by decide)), fun i hi => ?_,
    fun i hi => ?_, by rw [hm']; exact hram⟩
  · rw [hstarts i (Nat.lt_succ_iff.mp hi)]
    -- Only the start behind the new chunk is new.
    rcases Nat.lt_succ_iff_lt_or_eq.mp hi with hlt | rfl
    · exact h.offset i hlt
    · exact hoffset
  · rw [hstarts i (Nat.lt_succ_iff.mp hi), huse]
    rcases Nat.lt_succ_iff_lt_or_eq.mp hi with hlt | rfl
    · exact h.address i hlt
    · exact haddress

/-- A call of `allocate` with room for what it asks for keeps the bounds, and
    what it hands out is placed. -/
theorem bounded_allocate {live : List Block} {r1 p : Word} {size : Nat}
    (h : Bounded ramSize m k) (hC : WithinRam ⟨m, live⟩ (Request.allocate r1 size))
    (hcall : Allocated m r1 size m' p) :
    ∃ k', Bounded ramSize m' k' ∧ (p ≠ 0#32 → Placed m' ramSize size p) := by
  -- A call that is rejected hands nothing out, and neither does one on a full table.
  cases hcall with
  | rejected =>
      exact ⟨k, bounded_same h (packed_same h.packed rfl rfl) rfl (fun _ _ => rfl) rfl,
        fun hp => absurd rfl hp⟩
  | full =>
      exact ⟨k, bounded_same h (packed_same h.packed rfl rfl) rfl (fun _ _ => rfl) rfl,
        fun hp => absurd rfl hp⟩
  | reuse i hrej hfirst hused =>
      -- A freed chunk keeps its place and its size.
      have hi := h.packed.lt_of_used hfirst.1 hused
      have hroom := (hC.2 hrej i hfirst.1 hfirst hused).1
      rw [show (⟨m, live⟩ : Client).heap = m from rfl, h.ram] at hroom
      set m' : Allocator := { m with
        mem := Function.update m.mem i (pack (baseOffset (m.mem i)) (chunkSize (m.mem i)) true)
        mutex := unlocked
        sysTick := false
        mstatLocal := m.mstatLocal.countAlloc m.debug } with hm'
      have hmem : m'.mem = Function.update m.mem i
        (pack (baseOffset (m.mem i)) (chunkSize (m.mem i)) true) := rfl
      have hbounded : Bounded ramSize m' k :=
        bounded_same h (packed_setOccupied h.packed rfl hmem
          fun hk => absurd hi (Nat.not_lt.mpr hk)) rfl (fun j _ => sizes_setOccupied hmem j)
          (ramSize_countAlloc _ _)
      refine ⟨k, hbounded, fun _ => ?_⟩
      have hoffset := baseOffset_setOccupied hmem i
      have haddress : m.addressOf (baseOffset (m.mem i)) =
          m'.addressOf (baseOffset (m'.mem i)) := by
        rw [hoffset]
        rfl
      rw [haddress]
      refine placed_of_bounded hbounded size hi
        (by rw [hmem, Function.update_self, isOccupied_pack]) ?_
      rw [Tiling.start_congr fun j _ => sizes_setOccupied hmem j,
        ← Nat.mod_eq_of_lt (h.offset i hi), ← h.packed.offset i hi]
      exact hroom
  | carve i offset hrej hfirst hunused hoffset =>
      -- A new chunk begins where the used ones end.
      have hik : i = k := h.packed.firstFit_unused hfirst hunused
      -- The condition bounds where it ends.
      rcases hC.1 ⟨hrej, i, hfirst.1, hfirst, hunused⟩ with ⟨hbytes, hroom, hlast⟩
      rw [show (⟨m, live⟩ : Client).heap = m from rfl, h.packed.usedBytes_eq] at hbytes hroom hlast
      rw [h.ram] at hroom
      have hpos : 0 < size := Nat.pos_of_ne_zero fun hc => hrej (Or.inl hc)
      subst hik hoffset
      have hbounded := bounded_carve size h hfirst.1 rfl
        ((ramSize_countAlloc m.debug _).trans h.ram) hbytes (by omega)
      refine ⟨i + 1, hbounded, fun _ => ?_⟩
      set m' : Allocator := { m with
        mem := Function.update m.mem i (carved (roundUp 4 size) (Tiling.start m.sizes i))
        mutex := unlocked
        sysTick := true
        mstatLocal := m.mstatLocal.countAlloc m.debug } with hm'
      have hentry : m'.mem i = carved (roundUp 4 size) (Tiling.start m.sizes i) :=
        Function.update_self ..
      have hcarved : m'.mem = Function.update m.mem i
          (pack (Tiling.start m.sizes i) (roundUp 8 (roundUp 4 size)) true) := by rw [← carved_eq]
      have hstarts : Tiling.start m'.sizes i = Tiling.start m.sizes i :=
        (sizes_carve hcarved).2.2 i (Nat.le_refl i)
      have hplaced := placed_of_bounded hbounded size (Nat.lt_succ_self i)
        (by rw [hentry, carved_eq, isOccupied_pack]) (by rw [hstarts]; exact hroom)
      rw [hentry, carved_eq, baseOffset_pack] at hplaced
      exact hplaced

theorem bounded_deallocate {address p : Word} (h : Bounded ramSize m k)
    (hcall : Deallocated m address m' p) : Bounded ramSize m' k := by
  have hpacked := packed_deallocate h.packed hcall
  cases hcall with
  | missed => exact bounded_same h hpacked rfl (fun _ _ => rfl) rfl
  | found i hi =>
      exact bounded_same h hpacked rfl (fun j _ => sizes_setOccupied rfl j)
        (ramSize_countDealloc _ _)

end Bounds

/-- A call that meets the condition keeps the invariant. -/
theorem bounded_step (ramSize : Word) (s : Client) (e : Request) (s' : Client)
    (h : ∃ k, Bounded ramSize s.heap k) (hC : WithinRam s e) (hstep : clientStep e s = some s') :
    ∃ k, Bounded ramSize s'.heap k := by
  rcases h with ⟨k, h⟩
  rcases clientStep_heap hstep with ⟨r1, size, p, rfl, hcall⟩ | ⟨r1, address, p, rfl, hcall⟩
  · rcases bounded_allocate h hC hcall with ⟨k', hbounded, _⟩
    exact ⟨k', hbounded⟩
  · exact ⟨k, bounded_deallocate h hcall⟩

/-- Blocks lie inside the memory in runs whose calls meet the condition. -/
theorem allocate_placed {raw : Allocator} {startOsSection ramSize : Word} {es : List Request}
    {s : Client} (hmeets : Meets clientStep WithinRam es
      (initialClient raw startOsSection ramSize))
    (hrun : run clientStep es (initialClient raw startOsSection ramSize) = some s)
    {r1 p : Word} {size : Nat} {m : Allocator} (hC : WithinRam s (Request.allocate r1 size))
    (hcall : s.heap.allocate r1 size = some (m, p)) (hp : p ≠ 0#32) :
    Placed m ramSize size p := by
  have hinit : Bounded ramSize (initialClient raw startOsSection ramSize).heap 0 :=
    ⟨packed_initAllocator raw startOsSection ramSize, fun i hi => absurd hi (Nat.not_lt_zero i),
      fun i hi => absurd hi (Nat.not_lt_zero i), rfl⟩
  rcases run_invariant clientStep (fun s => ∃ k, Bounded ramSize s.heap k) (bounded_step ramSize)
    es _ s ⟨0, hinit⟩ hmeets hrun with ⟨k, hbounded⟩
  rcases bounded_allocate hbounded hC (allocate_cases hcall).2 with ⟨_, _, hplaced⟩
  exact hplaced hp

/-- Two chunks are carved, and the first is given back. -/
def fillAndFree : List Request :=
  [Request.allocate 7#32 24, Request.allocate 7#32 32760, Request.deallocate 7#32 0x20001108#32]

/-- The last chunk that the memory has room for. -/
theorem allocate_placed_last :
    Ends clientStep fillAndFree freshClient fun s =>
      ∃ m p, s.heap.allocate 7#32 28384 = some (m, p) ∧ Placed m 0x10000#32 28384 p := by
  have hmeets : Meets clientStep WithinRam fillAndFree freshClient := by decide +kernel
  have hends : Ends clientStep fillAndFree freshClient fun s =>
      WithinRam s (Request.allocate 7#32 28384) ∧
        (s.heap.allocate 7#32 28384).map Prod.snd = some 0x20009118#32 := by decide +kernel
  rcases hends with ⟨s, hrun, hC, hresult⟩
  rcases Option.map_eq_some_iff.mp hresult with ⟨⟨m, p⟩, hcall, rfl⟩
  exact ⟨s, hrun, m, _, hcall, allocate_placed hmeets hrun hC hcall (by decide)⟩

/-- Two requests for nearly half of the memory each. -/
def takeHalves : List Request := [Request.allocate 7#32 32760]

/-- The second is served, and the block ends behind the memory. -/
theorem allocate_outside :
    Ends clientStep takeHalves freshClient fun s =>
      ∃ m p, s.heap.allocate 7#32 32760 = some (m, p) ∧ p ≠ 0#32 ∧
        ¬ Placed m 0x10000#32 32760 p := by
  have hends : Ends clientStep takeHalves freshClient fun s =>
      (s.heap.allocate 7#32 32760).map Prod.snd = some 0x20009100#32 := by decide +kernel
  rcases hends with ⟨s, hrun, hresult⟩
  rcases Option.map_eq_some_iff.mp hresult with ⟨⟨m, p⟩, hcall, rfl⟩
  refine ⟨s, hrun, m, _, hcall, by decide, fun hplaced => ?_⟩
  exact absurd hplaced.within (by decide)

end NextLevelRTOS
