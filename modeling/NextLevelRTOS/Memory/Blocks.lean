import NextLevelRTOS.Memory.Table

/-!
# Live Blocks

What the callers of the allocator hold. A block is live from the call of
`allocate` that returned it until the next call of `deallocate` with its
address; the list of live blocks is history and no function reads it.

Live blocks do not overlap as long as the table is tiled and each live block
is covered by an occupied chunk of its own. Both hold after every call but
one: the chunk that `allocate` carves behind the used ones. Its offset is
stored in sixteen bits and its size in fifteen, and neither is compared with
what the field can hold. Past 64 KiB of chunks the offset starts again from
the beginning, and a request of 32761 to 32764 bytes is rounded up to 32768,
of which the field keeps 0. `Carves` says that a call carves a new chunk, and
`WithinFields` that the new chunk fits its entry.

## Main definitions

* `Client`: The allocator and the live blocks.
* `Request`, `clientStep`: The calls a run is made of.
* `Apart`: Two blocks share no byte.
* `Separate`: All live blocks are apart and aligned.
* `Carves`, `WithinFields`: The condition on a call.
* `Covered`: The invariant.

## Theorems

* `covered_separate`: The invariant keeps live blocks apart.
* `covered_step`: A call that meets the condition keeps the invariant.
* `blocks_separate`: Runs whose calls meet the condition keep live blocks
  apart.
* `blocks_overlap`: Two calls after which they are not.
-/

namespace NextLevelRTOS

open Machine Allocator

/-- A block is its address and the size that was asked for. -/
abbrev Block := Word × Nat

/-- The allocator and the live blocks. -/
structure Client where
  heap : Allocator
  live : List Block

/-- The calls a run is made of, with what the caller has in `r1`. -/
inductive Request where
  | allocate (r1 : Word) (size : Nat)
  | deallocate (r1 address : Word)
  deriving DecidableEq

/-- The effect of a call on the allocator and on what is live. -/
def clientStep : Request → Client → Option Client
  | Request.allocate r1 size, s =>
    match s.heap.allocate r1 size with
    | none => none
    | some (m, p) => some
        { heap := m
          live := if p = 0#32 then s.live else (p, size) :: s.live }
  | Request.deallocate r1 address, s =>
    match s.heap.deallocate r1 address with
    | none => none
    | some (m, _) => some
        { heap := m
          live := s.live.filter fun b => b.1 ≠ address }

/-- The blocks share no byte. -/
def Apart (b c : Block) : Prop :=
  ∀ i < b.2, ∀ j < c.2, b.1 + BitVec.ofNat 32 i ≠ c.1 + BitVec.ofNat 32 j

/-- Live blocks are apart, and each starts at a multiple of eight. -/
def Separate (s : Client) : Prop :=
  s.live.Pairwise Apart ∧ ∀ b ∈ s.live, b.1.toNat % 8 = 0

/-- The call carves a new chunk: the size is accepted and the first entry that
    can serve it was never used. -/
def Carves (m : Allocator) (size : Nat) : Prop :=
  ¬ Rejected size ∧
    ∃ i < numOfSlots, FirstFit m.mem (roundUp 4 size) i ∧ chunkSize (m.mem i) = 0x7FFF

instance (m : Allocator) (size : Nat) : Decidable (Carves m size) :=
  inferInstanceAs (Decidable (_ ∧ ∃ i < numOfSlots, _ ∧ _))

/-- A chunk that is carved fits its entry. -/
def WithinFields (s : Client) : Request → Prop
  | Request.allocate _ size => Carves s.heap size → size ≤ 32760 ∧ s.heap.usedBytes < 65536
  | Request.deallocate _ _ => True

instance (m : Allocator) : Decidable (m.usedBytes < 65536) :=
  inferInstanceAs (Decidable (_ < _))

instance (s : Client) (e : Request) : Decidable (WithinFields s e) :=
  match e with
  | Request.allocate _ size =>
    inferInstanceAs (Decidable (Carves s.heap size → size ≤ 32760 ∧ s.heap.usedBytes < 65536))
  | Request.deallocate _ _ => isTrue trivial

/-- The entry covers the block. -/
structure Covers (m : Allocator) (i : Nat) (b : Block) : Prop where
  occupied : isOccupied (m.mem i) = true
  address : b.1 = m.addressOf (Tiling.start m.sizes i)
  size : b.2 ≤ m.sizes i

/-- The table is tiled, and each live block is covered by one of the used
    entries, no two by the same. -/
structure Covered (s : Client) (k : Nat) : Prop where
  tiled : Tiled s.heap k
  entry : ∀ b ∈ s.live, ∃ i < k, Covers s.heap i b
  distinct : (s.live.map Prod.fst).Nodup

/-! ### The invariant keeps blocks apart -/

section Separation

variable {m : Allocator} {k : Nat}

/-- Entries are told apart by the addresses of their chunks. -/
theorem Tiled.entry_unique (h : Tiled m k) {i j : Nat} (hi : i < k) (hj : j < k)
    (haddress : m.addressOf (Tiling.start m.sizes i) = m.addressOf (Tiling.start m.sizes j)) :
    i = j :=
  Tiling.start_injective h.pos hi hj
    (m.addressOf_injective (h.start_lt hi) (h.start_lt hj) haddress)

/-- Blocks that different entries cover are apart. -/
theorem Tiled.apart (h : Tiled m k) {i j : Nat} {b c : Block} (hi : i < k) (hj : j < k)
    (hne : i ≠ j) (hb : Covers m i b) (hc : Covers m j c) : Apart b c := by
  intro n hn l hl heq
  have hni : n < m.sizes i := Nat.lt_of_lt_of_le hn hb.size
  have hlj : l < m.sizes j := Nat.lt_of_lt_of_le hl hc.size
  have hsizei : m.sizes i < 32768 := chunkSize_lt _
  have hsizej : m.sizes j < 32768 := chunkSize_lt _
  have hstarti := h.start_lt hi
  have hstartj := h.start_lt hj
  rw [hb.address, hc.address, addressOf_add, addressOf_add, addressOf, addressOf,
    BitVec.add_left_inj] at heq
  have hnat := congrArg BitVec.toNat heq
  rw [BitVec.toNat_ofNat, BitVec.toNat_ofNat, Nat.mod_eq_of_lt (by omega),
    Nat.mod_eq_of_lt (by omega)] at hnat
  rcases Tiling.segments_disjoint m.sizes hne with hbefore | hafter
  · omega
  · omega

theorem covered_separate {s : Client} (h : Covered s k) : Separate s := by
  refine ⟨?_, fun b hb => ?_⟩
  · refine (List.pairwise_map.mp h.distinct).imp_of_mem fun {b c} hb hc hne => ?_
    rcases h.entry b hb with ⟨i, hi, hcovb⟩
    rcases h.entry c hc with ⟨j, hj, hcovc⟩
    refine h.tiled.apart hi hj (fun heq => hne ?_) hcovb hcovc
    rw [hcovb.address, hcovc.address, heq]
  · rcases h.entry b hb with ⟨i, hi, hcov⟩
    rw [hcov.address]
    exact addressOf_aligned _ h.tiled.start
      (Tiling.start_dvd fun j hj => h.tiled.rounded j (Nat.lt_trans hj hi))

end Separation

/-! ### Calls keep the invariant -/

section Steps

variable {m m' : Allocator} {live : List Block} {k : Nat}

/-- Covered blocks stay covered when their entries keep offset, size and
    occupied bit. -/
theorem covers_of_same {i : Nat} {b : Block} (h : Covers m i b)
    (hstart : m'.memTableStart = m.memTableStart) (hentry : m'.mem i = m.mem i)
    (hsizes : ∀ j < i, m'.sizes j = m.sizes j) : Covers m' i b where
  occupied := by rw [hentry]; exact h.occupied
  address := by
    rw [h.address, addressOf, addressOf, useableMemStart, useableMemStart, hstart,
      Tiling.start_congr hsizes]
  size := by rw [sizes, hentry]; exact h.size

/-- A call that leaves the table and the live blocks alone. -/
theorem covered_same (h : Covered ⟨m, live⟩ k) (hstart : m'.memTableStart = m.memTableStart)
    (hmem : m'.mem = m.mem) : Covered ⟨m', live⟩ k := by
  have hsizes : ∀ j, m'.sizes j = m.sizes j := fun j => by rw [sizes, sizes, hmem]
  refine ⟨tiled_rewrite h.tiled hstart (fun i _ => by rw [hmem]) (fun i _ => hsizes i)
    (fun i _ _ => by rw [hmem]), fun b hb => ?_, h.distinct⟩
  rcases h.entry b hb with ⟨i, hi, hcov⟩
  exact ⟨i, hi, covers_of_same hcov hstart (by rw [hmem]) fun j _ => hsizes j⟩

/-- A call that puts a new block into an entry that covers no other. -/
theorem covered_cons {p : Word} {size i k' : Nat} (h : Covered ⟨m, live⟩ k)
    (htiled : Tiled m' k') (hk : k ≤ k') (hi : i < k') (hcov : Covers m' i (p, size))
    (hkept : ∀ j < k, j ≠ i → m'.mem j = m.mem j)
    (hsizes : ∀ j < k, m'.sizes j = m.sizes j)
    (hstart : m'.memTableStart = m.memTableStart)
    (hfree : ∀ j < k, isOccupied (m.mem j) = true → j ≠ i) :
    Covered ⟨m', if p = 0#32 then live else (p, size) :: live⟩ k' := by
  -- No block that is live lies in the entry that was handed out.
  have hentry : ∀ b ∈ live, ∃ j < k, j ≠ i ∧ Covers m' j b := fun b hb => by
    rcases h.entry b hb with ⟨j, hj, hcovb⟩
    have hne := hfree j hj hcovb.occupied
    exact ⟨j, hj, hne, covers_of_same hcovb hstart (hkept j hj hne)
      fun l hl => hsizes l (Nat.lt_trans hl hj)⟩
  have hold : ∀ b ∈ live, ∃ j < k', Covers m' j b := fun b hb => by
    rcases hentry b hb with ⟨j, hj, _, hcovb⟩
    exact ⟨j, Nat.lt_of_lt_of_le hj hk, hcovb⟩
  split
  · exact ⟨htiled, hold, h.distinct⟩
  · refine ⟨htiled, fun b hb => ?_, ?_⟩
    · rcases List.mem_cons.mp hb with rfl | hb
      · exact ⟨i, hi, hcov⟩
      · exact hold b hb
    · refine List.nodup_cons.mpr ⟨fun hmem => ?_, h.distinct⟩
      rcases List.mem_map.mp hmem with ⟨b, hb, heq⟩
      rcases hentry b hb with ⟨j, hj, hne, hcovb⟩
      refine hne (htiled.entry_unique (Nat.lt_of_lt_of_le hj hk) hi ?_)
      rw [← hcovb.address, ← hcov.address]
      exact heq

/-- A freed chunk is given out again. -/
theorem covered_reuse {size i : Nat} (h : Covered ⟨m, live⟩ k) (hi : i < k)
    (hfit : Fits size (m.mem i)) (hstart : m'.memTableStart = m.memTableStart)
    (hmem : m'.mem =
      Function.update m.mem i (pack (baseOffset (m.mem i)) (chunkSize (m.mem i)) true)) :
    Covered ⟨m', if m.addressOf (baseOffset (m.mem i)) = 0#32 then live
      else (m.addressOf (baseOffset (m.mem i)), size) :: live⟩ k := by
  have hsizes := sizes_setOccupied hmem
  have htiled : Tiled m' k :=
    tiled_setOccupied h.tiled hstart hmem fun hk => absurd hi (Nat.not_lt.mpr hk)
  -- The chunk has the size and the offset it had; only its bit changes.
  refine covered_cons h htiled (Nat.le_refl k) hi ⟨?_, ?_, ?_⟩ (fun j _ hne => ?_)
    (fun j _ => hsizes j) hstart (fun j _ hocc => ?_)
  · rw [hmem, Function.update_self, isOccupied_pack]
  · rw [addressOf, addressOf, useableMemStart, useableMemStart, hstart,
      Tiling.start_congr fun j _ => hsizes j, ← h.tiled.offset i hi]
  · rw [hsizes i]
    exact hfit.2
  · rw [hmem, Function.update_of_ne hne]
  · rintro rfl
    rw [hfit.1] at hocc
    exact absurd hocc (by decide)

/-- A new chunk is carved behind the used ones. -/
theorem covered_carve {size chunk : Nat} (h : Covered ⟨m, live⟩ k) (hk : k < numOfSlots)
    (hstart : m'.memTableStart = m.memTableStart)
    (hmem : m'.mem = Function.update m.mem k (pack (Tiling.start m.sizes k) chunk true))
    (hoffset : Tiling.start m.sizes k < 65536) (hlt : chunk < 32768) (hpos : 0 < chunk)
    (hdvd : 8 ∣ chunk) (hle : size ≤ chunk) :
    Covered ⟨m', if m.addressOf (Tiling.start m.sizes k) = 0#32 then live
      else (m.addressOf (Tiling.start m.sizes k), size) :: live⟩ (k + 1) := by
  have hkept : ∀ j, j ≠ k → m'.mem j = m.mem j := fun j hne => by
    rw [hmem, Function.update_of_ne hne]
  have hsizes : ∀ j < k, m'.sizes j = m.sizes j := fun j hj => by
    rw [sizes, sizes, hkept j (Nat.ne_of_lt hj)]
  refine covered_cons h (tiled_carve h.tiled hk hstart hmem hoffset hlt hpos hdvd)
    (Nat.le_succ k) (Nat.lt_succ_self k) ⟨?_, ?_, ?_⟩ (fun j _ hne => hkept j hne) hsizes hstart
    (fun j hj _ => Nat.ne_of_lt hj)
  · rw [hmem, Function.update_self, isOccupied_pack]
  · rw [addressOf, addressOf, useableMemStart, useableMemStart, hstart,
      Tiling.start_congr hsizes]
  · rw [sizes, hmem, Function.update_self, chunkSize_pack, Nat.mod_eq_of_lt hlt]
    exact hle

theorem covered_allocate {r1 p : Word} {size : Nat} (h : Covered ⟨m, live⟩ k)
    (hC : WithinFields ⟨m, live⟩ (Request.allocate r1 size))
    (hcall : Allocated m r1 size m' p) :
    ∃ k', Covered ⟨m', if p = 0#32 then live else (p, size) :: live⟩ k' := by
  cases hcall with
  | rejected => exact ⟨k, covered_same h rfl rfl⟩
  | full => exact ⟨k, covered_same h rfl rfl⟩
  | reuse i hrej hfirst hused =>
      have hfit : Fits size (m.mem i) :=
        ⟨hfirst.2.1.1, Nat.le_trans (le_roundUp 4 size) hfirst.2.1.2⟩
      exact ⟨k, covered_reuse h (h.tiled.packed.lt_of_used hfirst.1 hused) hfit rfl rfl⟩
  | carve i offset hrej hfirst hunused hoffset =>
      have hik : i = k := h.tiled.packed.firstFit_unused hfirst hunused
      rcases hC ⟨hrej, i, hfirst.1, hfirst, hunused⟩ with ⟨hsize, hbytes⟩
      rw [h.tiled.packed.usedBytes_eq] at hbytes
      subst hik hoffset
      -- Both round-ups stay at or below 32760, a multiple of eight.
      have hround : roundUp 8 (roundUp 4 size) ≤ 32760 :=
        roundUp_le (by decide) (by decide) (roundUp_le (by decide) (by decide) hsize)
      have hle : size ≤ roundUp 8 (roundUp 4 size) :=
        Nat.le_trans (le_roundUp 4 size) (le_roundUp 8 _)
      have hpos : 0 < size := Nat.pos_of_ne_zero fun hc => hrej (Or.inl hc)
      have hword : carved (roundUp 4 size) (Tiling.start m.sizes i) =
          pack (Tiling.start m.sizes i) (roundUp 8 (roundUp 4 size)) true := by
        rw [carved, Nat.mod_eq_of_lt (by omega)]
      refine ⟨i + 1, ?_⟩
      rw [show Tiling.start (fun j => chunkSize (m.mem j)) i = Tiling.start m.sizes i from rfl,
        Nat.mod_eq_of_lt hbytes]
      exact covered_carve h hfirst.1 rfl (congrArg (Function.update m.mem i) hword) hbytes
        (by omega) (by omega)
        (roundUp_dvd (by decide)) hle

theorem covered_deallocate {address p : Word} (h : Covered ⟨m, live⟩ k)
    (hcall : Deallocated m address m' p) :
    Covered ⟨m', live.filter fun b => b.1 ≠ address⟩ k := by
  have hdistinct : ((live.filter fun b => b.1 ≠ address).map Prod.fst).Nodup :=
    h.distinct.sublist (List.filter_sublist.map Prod.fst)
  cases hcall with
  | missed hno =>
      have hsame : Covered ⟨{ m with mutex := unlocked }, live⟩ k := covered_same h rfl rfl
      exact ⟨hsame.tiled, fun b hb => hsame.entry b (List.mem_of_mem_filter hb), hdistinct⟩
  | found i hi haddress hbefore =>
      refine ⟨tiled_setOccupied h.tiled rfl rfl fun _ _ => rfl, fun b hb => ?_, hdistinct⟩
      rcases List.mem_filter.mp hb with ⟨hb, hother⟩
      rcases h.entry b hb with ⟨j, hj, hcov⟩
      -- No other live block begins at the address, so it has another entry.
      have hne : j ≠ i := by
        rintro rfl
        refine of_decide_eq_true hother ?_
        rw [hcov.address, ← haddress]
        exact congrArg m.addressOf (h.tiled.offset j hj).symm
      exact ⟨j, hj, covers_of_same hcov rfl (Function.update_of_ne hne _ _)
        fun l _ => sizes_setOccupied rfl l⟩

end Steps

/-- What a call does to the allocator and to what is live. -/
theorem clientStep_cases {s s' : Client} {e : Request} (h : clientStep e s = some s') :
    (∃ r1 size m p, e = Request.allocate r1 size ∧ Allocated s.heap r1 size m p ∧
      s' = { heap := m, live := if p = 0#32 then s.live else (p, size) :: s.live }) ∨
    ∃ r1 address m p, e = Request.deallocate r1 address ∧ Deallocated s.heap address m p ∧
      s' = { heap := m, live := s.live.filter fun b => b.1 ≠ address } := by
  cases e with
  | allocate r1 size =>
      cases hcall : s.heap.allocate r1 size with
      | none => simp only [clientStep, hcall, reduceCtorEq] at h
      | some r =>
          rcases r with ⟨m, p⟩
          simp only [clientStep, hcall, Option.some.injEq] at h
          exact Or.inl ⟨r1, size, m, p, rfl, (allocate_cases hcall).2, h.symm⟩
  | deallocate r1 address =>
      cases hcall : s.heap.deallocate r1 address with
      | none => simp only [clientStep, hcall, reduceCtorEq] at h
      | some r =>
          rcases r with ⟨m, p⟩
          simp only [clientStep, hcall, Option.some.injEq] at h
          exact Or.inr ⟨r1, address, m, p, rfl, (deallocate_cases hcall).2, h.symm⟩

/-- A call that meets the condition keeps the invariant. -/
theorem covered_step (s : Client) (e : Request) (s' : Client) (h : ∃ k, Covered s k)
    (hC : WithinFields s e) (hstep : clientStep e s = some s') : ∃ k, Covered s' k := by
  rcases h with ⟨k, h⟩
  rcases clientStep_cases hstep with ⟨r1, size, m, p, rfl, hcall, rfl⟩ |
    ⟨r1, address, m, p, rfl, hcall, rfl⟩
  · exact covered_allocate h hC hcall
  · exact ⟨k, covered_deallocate h hcall⟩

/-- The clients of an allocator that was just initialized hold nothing. -/
def initialClient (raw : Allocator) (startOsSection ramSize : Word) : Client :=
  { heap := raw.initAllocator startOsSection ramSize
    live := [] }

theorem covered_initialClient (raw : Allocator) (startOsSection ramSize : Word) :
    Covered (initialClient raw startOsSection ramSize) 0 where
  tiled := tiled_initAllocator raw startOsSection ramSize
  entry _ hb := absurd hb List.not_mem_nil
  distinct := List.nodup_nil

/-- Runs whose calls meet the condition keep live blocks apart and aligned. -/
theorem blocks_separate {raw : Allocator} {startOsSection ramSize : Word} {es : List Request}
    {s : Client} (hmeets : Meets clientStep WithinFields es
      (initialClient raw startOsSection ramSize))
    (hrun : run clientStep es (initialClient raw startOsSection ramSize) = some s) :
    Separate s := by
  rcases run_invariant clientStep (fun s => ∃ k, Covered s k) covered_step es _ s
    ⟨0, covered_initialClient raw startOsSection ramSize⟩ hmeets hrun with ⟨k, hcovered⟩
  exact covered_separate hcovered

/-- An allocator that was just initialized, in a memory that holds nothing. -/
def freshClient : Client := initialClient blankMemory 0x20001001#32 0x10000#32

/-- Three chunks are carved, one of them as large as a chunk can be, and the
    first is given back and taken again for less. -/
def takeAndReuse : List Request :=
  [Request.allocate 7#32 24,
   Request.allocate 7#32 4095,
   Request.allocate 7#32 32760,
   Request.deallocate 7#32 0x20001108#32,
   Request.allocate 7#32 20]

theorem blocks_separate_takeAndReuse :
    Meets clientStep WithinFields takeAndReuse freshClient ∧
      Ends clientStep takeAndReuse freshClient fun s =>
        s.live = [(0x20001108#32, 20), (0x20002120#32, 32760), (0x20001120#32, 4095)] ∧
          Separate s := by
  have hmeets : Meets clientStep WithinFields takeAndReuse freshClient := by decide +kernel
  have hends : Ends clientStep takeAndReuse freshClient fun s =>
      s.live = [(0x20001108#32, 20), (0x20002120#32, 32760), (0x20001120#32, 4095)] := by
    decide +kernel
  rcases hends with ⟨s, hrun, hlive⟩
  exact ⟨hmeets, s, hrun, hlive, blocks_separate hmeets hrun⟩

/-- The largest request whose size does not survive the rounding, and a small
    one. -/
def takeLargest : List Request :=
  [Request.allocate 7#32 32764, Request.allocate 7#32 8]

/-- Both requests are served at the same address. -/
theorem blocks_overlap :
    Ends clientStep takeLargest freshClient fun s =>
      s.live = [(0x20001108#32, 8), (0x20001108#32, 32764)] ∧ ¬ Separate s := by
  have hends : Ends clientStep takeLargest freshClient fun s =>
      s.live = [(0x20001108#32, 8), (0x20001108#32, 32764)] := by decide +kernel
  rcases hends with ⟨s, hrun, hlive⟩
  refine ⟨s, hrun, hlive, fun hseparate => ?_⟩
  have hapart : Apart (0x20001108#32, 8) (0x20001108#32, 32764) := by
    have hpairs := hseparate.1
    rw [hlive, List.pairwise_cons] at hpairs
    exact hpairs.1 _ (List.mem_singleton_self _)
  exact hapart 0 (by decide) 0 (by decide) rfl

end NextLevelRTOS
