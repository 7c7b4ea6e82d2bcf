import NextLevelRTOS.Memory.Allocator

/-!
# The Table Invariant

The used entries come first and the unused ones follow. Every chunk is carved
behind the used ones, and its entry records as offset the sum of the sizes
before it, cut to the sixteen bits of `base_offset`. Sizes are multiples of
eight, cut to the fifteen bits of `chunk_size`. This much holds of every table
that calls of `allocate` and `deallocate` can lead to, and is `Packed`.

`Tiled` adds what the cuts may take away: the offsets are the sums and no size
is zero, so the chunks lie end to end. A call that marks a chunk as occupied
or free keeps it, since it changes one bit of one entry. A call that carves a
new chunk keeps it provided that the new offset and the new size fit their
fields.

## Main definitions

* `sizes`: The size of each chunk.
* `Packed`: What holds of every table.
* `Tiled`: What holds while chunks fit their entries.
* `usedBytes`: What the used chunks take together.

## Theorems

* `packed_initAllocator`: The empty table is packed.
* `packed_rewrite`: Entries that keep offset and size keep the table packed.
* `packed_carve`: A new chunk does, too.
* `tiled_iff`: A packed table is tiled when nothing was cut.
* `tiled_carve`: A new chunk that fits its entry extends the tiling.
* `Packed.firstFit_unused`: A new chunk is carved right behind the used ones.
* `Packed.usedBytes_eq`: The used chunks end where the next one starts.
* `addressOf_injective`, `addressOf_aligned`: The addresses of the chunks.
-/

namespace NextLevelRTOS

namespace Allocator

/-- The size of each chunk. -/
def sizes (m : Allocator) (i : Nat) : Nat := chunkSize (m.mem i)

/-- What the used chunks take together. -/
def usedBytes (m : Allocator) : Nat :=
  Tiling.start (fun i => if m.mem i = unused then 0 else m.sizes i) numOfSlots

end Allocator

/-- The first `k` entries are used, and each records the sum of the sizes before
    it as its offset, in sixteen bits. -/
structure Packed (m : Allocator) (k : Nat) : Prop where
  start : m.memTableStart.toNat % 8 = 0
  bound : k ≤ numOfSlots
  offset : ∀ i < k, baseOffset (m.mem i) = Tiling.start m.sizes i % 65536
  rounded : ∀ i < k, 8 ∣ m.sizes i
  rest : ∀ i, k ≤ i → i < numOfSlots → m.mem i = unused

/-- The first `k` entries are used and their chunks lie end to end. -/
structure Tiled (m : Allocator) (k : Nat) : Prop where
  start : m.memTableStart.toNat % 8 = 0
  bound : k ≤ numOfSlots
  offset : ∀ i < k, baseOffset (m.mem i) = Tiling.start m.sizes i
  rounded : ∀ i < k, 8 ∣ m.sizes i
  pos : ∀ i < k, 0 < m.sizes i
  rest : ∀ i, k ≤ i → i < numOfSlots → m.mem i = unused

theorem roundUp_dvd {k n : Nat} (hk : 0 < k) : k ∣ roundUp k n := by
  have hlt := Nat.mod_lt n hk
  have hdiv := Nat.div_add_mod n k
  rw [roundUp]
  by_cases hzero : n % k = 0
  · rw [hzero, Nat.sub_zero, Nat.mod_self, Nat.add_zero]
    exact Nat.dvd_of_mod_eq_zero hzero
  · rw [Nat.mod_eq_of_lt (by omega)]
    refine ⟨n / k + 1, ?_⟩
    rw [Nat.mul_add, Nat.mul_one]
    omega

theorem le_roundUp (k n : Nat) : n ≤ roundUp k n := Nat.le_add_right n _

theorem roundUp_lt {k n : Nat} (hk : 0 < k) : roundUp k n < n + k :=
  Nat.add_lt_add_left (Nat.mod_lt _ hk) n

theorem roundUp_le {k n b : Nat} (hk : 0 < k) (hdvd : k ∣ b) (h : n ≤ b) : roundUp k n ≤ b := by
  rcases roundUp_dvd (n := n) hk with ⟨c, hc⟩
  rcases hdvd with ⟨d, rfl⟩
  have hlt : k * c < k * (d + 1) := by
    rw [← hc, Nat.mul_add, Nat.mul_one]
    exact Nat.lt_of_lt_of_le (roundUp_lt hk) (Nat.add_le_add_right h k)
  rw [hc]
  exact Nat.mul_le_mul_left k (Nat.lt_succ_iff.mp (Nat.lt_of_mul_lt_mul_left hlt))

theorem packed_initAllocator (raw : Allocator) (startOsSection ramSize : Word) :
    Packed (raw.initAllocator startOsSection ramSize) 0 where
  start := by
    have hdvd : 8 ∣ roundUp 8 startOsSection.toNat := roundUp_dvd (by decide)
    simp only [Allocator.initAllocator, BitVec.toNat_ofNat]
    omega
  bound := Nat.zero_le _
  offset i hi := absurd hi (Nat.not_lt_zero i)
  rounded i hi := absurd hi (Nat.not_lt_zero i)
  rest _ _ hi := if_pos hi

/-- A packed table is tiled when no offset was cut and no size is zero. -/
theorem tiled_iff {m : Allocator} {k : Nat} : Tiled m k ↔
    Packed m k ∧ (∀ i < k, Tiling.start m.sizes i < 65536) ∧ ∀ i < k, 0 < m.sizes i := by
  constructor
  · intro h
    have hfits : ∀ i < k, Tiling.start m.sizes i < 65536 := fun i hi => by
      rw [← h.offset i hi]
      exact baseOffset_lt _
    refine ⟨⟨h.start, h.bound, fun i hi => ?_, h.rounded, h.rest⟩, hfits, h.pos⟩
    rw [h.offset i hi, Nat.mod_eq_of_lt (hfits i hi)]
  · rintro ⟨h, hfits, hpos⟩
    refine ⟨h.start, h.bound, fun i hi => ?_, h.rounded, hpos, h.rest⟩
    rw [h.offset i hi, Nat.mod_eq_of_lt (hfits i hi)]

theorem Tiled.packed {m : Allocator} {k : Nat} (h : Tiled m k) : Packed m k :=
  (tiled_iff.mp h).1

theorem tiled_initAllocator (raw : Allocator) (startOsSection ramSize : Word) :
    Tiled (raw.initAllocator startOsSection ramSize) 0 :=
  tiled_iff.mpr ⟨packed_initAllocator raw startOsSection ramSize,
    fun i hi => absurd hi (Nat.not_lt_zero i), fun i hi => absurd hi (Nat.not_lt_zero i)⟩

section Changes

variable {m m' : Allocator} {k : Nat}

/-- Entries that keep offset and size keep the table packed. -/
theorem packed_rewrite (h : Packed m k) (hstart : m'.memTableStart = m.memTableStart)
    (hoffset : ∀ i < k, baseOffset (m'.mem i) = baseOffset (m.mem i))
    (hsizes : ∀ i < k, m'.sizes i = m.sizes i)
    (hrest : ∀ i, k ≤ i → i < numOfSlots → m'.mem i = m.mem i) : Packed m' k where
  start := by rw [hstart]; exact h.start
  bound := h.bound
  offset i hi := by
    rw [hoffset i hi, h.offset i hi,
      Tiling.start_congr fun j hj => (hsizes j (Nat.lt_trans hj hi)).symm]
  rounded i hi := by rw [hsizes i hi]; exact h.rounded i hi
  rest i hk hi := by rw [hrest i hk hi]; exact h.rest i hk hi

/-- Entries that keep offset and size keep the table tiled. -/
theorem tiled_rewrite (h : Tiled m k) (hstart : m'.memTableStart = m.memTableStart)
    (hoffset : ∀ i < k, baseOffset (m'.mem i) = baseOffset (m.mem i))
    (hsizes : ∀ i < k, m'.sizes i = m.sizes i)
    (hrest : ∀ i, k ≤ i → i < numOfSlots → m'.mem i = m.mem i) : Tiled m' k := by
  rcases tiled_iff.mp h with ⟨hpacked, hfits, hpos⟩
  refine tiled_iff.mpr ⟨packed_rewrite hpacked hstart hoffset hsizes hrest, fun i hi => ?_,
    fun i hi => ?_⟩
  · rw [Tiling.start_congr fun j hj => hsizes j (Nat.lt_trans hj hi)]
    exact hfits i hi
  · rw [hsizes i hi]
    exact hpos i hi

/-- Setting the occupied bit of one entry keeps all sizes. -/
theorem sizes_setOccupied {i : Nat} {occupied : Bool}
    (hmem : m'.mem =
      Function.update m.mem i (pack (baseOffset (m.mem i)) (chunkSize (m.mem i)) occupied))
    (j : Nat) : m'.sizes j = m.sizes j := by
  rw [Allocator.sizes, Allocator.sizes, hmem]
  by_cases heq : j = i
  · rw [heq, Function.update_self, chunkSize_pack, Nat.mod_eq_of_lt (chunkSize_lt _)]
  · rw [Function.update_of_ne heq]

/-- Setting the occupied bit of one entry keeps all offsets. -/
theorem baseOffset_setOccupied {i : Nat} {occupied : Bool}
    (hmem : m'.mem =
      Function.update m.mem i (pack (baseOffset (m.mem i)) (chunkSize (m.mem i)) occupied))
    (j : Nat) : baseOffset (m'.mem j) = baseOffset (m.mem j) := by
  rw [hmem]
  by_cases heq : j = i
  · rw [heq, Function.update_self, baseOffset_pack, Nat.mod_eq_of_lt (baseOffset_lt _)]
  · rw [Function.update_of_ne heq]

/-- Setting the occupied bit of one entry keeps the unused entries, unless it makes one of
    them occupied. -/
theorem rest_setOccupied (h : Packed m k) {i : Nat} {occupied : Bool}
    (hmem : m'.mem =
      Function.update m.mem i (pack (baseOffset (m.mem i)) (chunkSize (m.mem i)) occupied))
    (hrest : k ≤ i → i < numOfSlots → occupied = false) (j : Nat) (hk : k ≤ j)
    (hj : j < numOfSlots) : m'.mem j = m.mem j := by
  rw [hmem]
  by_cases heq : j = i
  · rw [heq] at hk hj ⊢
    rw [Function.update_self, hrest hk hj, h.rest i hk hj]
    decide
  · rw [Function.update_of_ne heq]

theorem packed_setOccupied (h : Packed m k) {i : Nat} {occupied : Bool}
    (hstart : m'.memTableStart = m.memTableStart)
    (hmem : m'.mem =
      Function.update m.mem i (pack (baseOffset (m.mem i)) (chunkSize (m.mem i)) occupied))
    (hrest : k ≤ i → i < numOfSlots → occupied = false) : Packed m' k :=
  packed_rewrite h hstart (fun j _ => baseOffset_setOccupied hmem j)
    (fun j _ => sizes_setOccupied hmem j) (rest_setOccupied h hmem hrest)

theorem tiled_setOccupied (h : Tiled m k) {i : Nat} {occupied : Bool}
    (hstart : m'.memTableStart = m.memTableStart)
    (hmem : m'.mem =
      Function.update m.mem i (pack (baseOffset (m.mem i)) (chunkSize (m.mem i)) occupied))
    (hrest : k ≤ i → i < numOfSlots → occupied = false) : Tiled m' k :=
  tiled_rewrite h hstart (fun j _ => baseOffset_setOccupied hmem j)
    (fun j _ => sizes_setOccupied hmem j) (rest_setOccupied h.packed hmem hrest)

/-- A new chunk behind the used ones leaves the sizes before it alone. -/
theorem sizes_carve {size : Nat}
    (hmem : m'.mem = Function.update m.mem k (pack (Tiling.start m.sizes k) size true)) :
    (∀ i < k, m'.sizes i = m.sizes i) ∧ m'.sizes k = size % 32768 ∧
      ∀ i ≤ k, Tiling.start m'.sizes i = Tiling.start m.sizes i := by
  have hsizes : ∀ i < k, m'.sizes i = m.sizes i := fun i hi => by
    rw [Allocator.sizes, Allocator.sizes, hmem, Function.update_of_ne (Nat.ne_of_lt hi)]
  refine ⟨hsizes, ?_, fun i hi => ?_⟩
  · rw [Allocator.sizes, hmem, Function.update_self, chunkSize_pack]
  · exact Tiling.start_congr fun j hj => hsizes j (Nat.lt_of_lt_of_le hj hi)

/-- A new chunk extends the table. -/
theorem packed_carve (h : Packed m k) (hk : k < numOfSlots) {size : Nat}
    (hstart : m'.memTableStart = m.memTableStart)
    (hmem : m'.mem = Function.update m.mem k (pack (Tiling.start m.sizes k) size true))
    (hdvd : 8 ∣ size) : Packed m' (k + 1) := by
  rcases sizes_carve hmem with ⟨hsizes, hlast, hstarts⟩
  refine ⟨by rw [hstart]; exact h.start, hk, fun i hi => ?_, fun i hi => ?_,
    fun i hlow hhigh => ?_⟩
  · rw [hstarts i (Nat.lt_succ_iff.mp hi)]
    rcases Nat.lt_succ_iff_lt_or_eq.mp hi with hlt | rfl
    · rw [hmem, Function.update_of_ne (Nat.ne_of_lt hlt), h.offset i hlt]
    · rw [hmem, Function.update_self, baseOffset_pack]
  · rcases Nat.lt_succ_iff_lt_or_eq.mp hi with hlt | rfl
    · rw [hsizes i hlt]
      exact h.rounded i hlt
    · rw [hlast]
      omega
  · rw [hmem, Function.update_of_ne (by omega)]
    exact h.rest i (by omega) hhigh

/-- A new chunk that fits its entry extends the tiling. -/
theorem tiled_carve (h : Tiled m k) (hk : k < numOfSlots) {size : Nat}
    (hstart : m'.memTableStart = m.memTableStart)
    (hmem : m'.mem = Function.update m.mem k (pack (Tiling.start m.sizes k) size true))
    (hoffset : Tiling.start m.sizes k < 65536) (hsize : size < 32768) (hpos : 0 < size)
    (hdvd : 8 ∣ size) : Tiled m' (k + 1) := by
  rcases tiled_iff.mp h with ⟨hpacked, hfits, hposs⟩
  rcases sizes_carve hmem with ⟨hsizes, hlast, hstarts⟩
  refine tiled_iff.mpr ⟨packed_carve hpacked hk hstart hmem hdvd, fun i hi => ?_, fun i hi => ?_⟩
  · rw [hstarts i (Nat.lt_succ_iff.mp hi)]
    rcases Nat.lt_succ_iff_lt_or_eq.mp hi with hlt | rfl
    · exact hfits i hlt
    · exact hoffset
  · rcases Nat.lt_succ_iff_lt_or_eq.mp hi with hlt | rfl
    · rw [hsizes i hlt]
      exact hposs i hlt
    · rw [hlast, Nat.mod_eq_of_lt hsize]
      exact hpos

end Changes

namespace Packed

variable {m : Allocator} {k : Nat}

theorem used (h : Packed m k) {i : Nat} (hi : i < k) : chunkSize (m.mem i) ≠ 0x7FFF := by
  intro hc
  have hdvd := h.rounded i hi
  rw [Allocator.sizes, hc] at hdvd
  exact absurd hdvd (by decide)

theorem lt_of_used (h : Packed m k) {i : Nat} (hi : i < numOfSlots)
    (hused : chunkSize (m.mem i) ≠ 0x7FFF) : i < k := by
  by_contra hge
  rw [h.rest i (Nat.le_of_not_lt hge) hi] at hused
  exact hused unused_fields.2.1

/-- A new chunk is carved right behind the used ones. -/
theorem firstFit_unused (h : Packed m k) {size i : Nat} (hfirst : FirstFit m.mem size i)
    (hunused : chunkSize (m.mem i) = 0x7FFF) : i = k := by
  rcases hfirst with ⟨hi, hfit, hbefore⟩
  have hge : k ≤ i := Nat.le_of_not_lt fun hlt => h.used hlt hunused
  rcases Nat.eq_or_lt_of_le hge with heq | hlt
  · exact heq.symm
  · refine absurd ?_ (hbefore k hlt)
    rw [h.rest k (Nat.le_refl k) (Nat.lt_trans hlt hi)]
    exact ⟨unused_fields.2.2, by rw [unused_fields.2.1, ← hunused]; exact hfit.2⟩

/-- The used chunks end where the next one starts. -/
theorem usedBytes_eq (h : Packed m k) : m.usedBytes = Tiling.start m.sizes k := by
  rw [Allocator.usedBytes, Tiling.start_eq_of_empty h.bound fun i hlow hhigh =>
    if_pos (h.rest i hlow hhigh)]
  refine Tiling.start_congr fun i hi => if_neg fun hc => h.used hi ?_
  rw [hc]
  exact unused_fields.2.1

end Packed

theorem Tiled.start_lt {m : Allocator} {k : Nat} (h : Tiled m k) {i : Nat} (hi : i < k) :
    Tiling.start m.sizes i < 65536 :=
  (tiled_iff.mp h).2.1 i hi

namespace Allocator

/-- Different offsets are different addresses. -/
theorem addressOf_injective (m : Allocator) {a b : Nat} (ha : a < 65536) (hb : b < 65536)
    (h : m.addressOf a = m.addressOf b) : a = b := by
  rw [addressOf, addressOf, BitVec.add_left_inj] at h
  have hnat := congrArg BitVec.toNat h
  rwa [BitVec.toNat_ofNat, BitVec.toNat_ofNat, Nat.mod_eq_of_lt (by omega),
    Nat.mod_eq_of_lt (by omega)] at hnat

/-- An offset that is a multiple of eight is an address that is one. -/
theorem addressOf_aligned (m : Allocator) {a : Nat} (hstart : m.memTableStart.toNat % 8 = 0)
    (ha : 8 ∣ a) : (m.addressOf a).toNat % 8 = 0 := by
  rw [addressOf, useableMemStart, BitVec.toNat_add, BitVec.toNat_add, BitVec.toNat_ofNat,
    show (256#32).toNat = 256 by rfl]
  omega

/-- The address of the `n`-th byte of the memory at an offset. -/
theorem addressOf_add (m : Allocator) (a n : Nat) :
    m.addressOf a + BitVec.ofNat 32 n = m.addressOf (a + n) := by
  rw [addressOf, addressOf, BitVec.ofNat_add, BitVec.add_assoc, BitVec.add_assoc,
    BitVec.add_comm m.useableMemStart]

end Allocator

end NextLevelRTOS
