import NextLevelRTOS.Memory.Calls
import NextLevelRTOS.Process.Io

/-!
# Preparing a Transfer

What `external_io_runner` does with a `PREPARE_TASK_TRANSFER` command, down to
the registers: the size is taken from the command, a buffer of this size is
allocated, and DMA stream 5 is started to fill it from the UART.

When there is no buffer the code panics, and a panic is a note in the statistics
and nothing else. The stream is started like any other time, and fills the memory
from address 0 on. Of the buffers there are, one is too short: a request of 32761
to 32764 bytes is given a chunk of size 0.

`Io` has the same statements one by one, between which other tasks run, and
knows of the registers only whether the stream and the receive interrupt are
enabled. The two agree.

## Main definitions

* `TransferSystem`: The allocator, the globals and the registers.
* `dmaTransfer`: `dma_transfer`.
* `prepareTaskTransfer`: The branch of `external_io_runner`.
* `Guarded`: A transfer needs a buffer.
* `GetsBuffer`: The condition on a request.

## Theorems

* `dmaTransfer_started`: What `dma_transfer` leaves.
* `prepareTaskTransfer_mirrors`: The statements of the runner do the same.
* `guarded_iff`: When a transfer has its buffer.
-/

namespace NextLevelRTOS

open Machine Allocator Buffer

/-- `PanicTypes_t` -/
inductive PanicTypes where
  | NO_PANIC
  | OUT_OF_MEMORY
  | SCHEDULER_NOT_INITIALIZED
  | MEMORY_DEALLOC_FAILED
  | ACCESS_ON_NULL
  deriving DecidableEq

/-- `SourcePeripherial_t` -/
inductive SourcePeripherial where
  | UART
  | SPI

/-- `DmaModes_t` -/
inductive DmaModes where
  | PeripherialToMemory
  | MemoryToPeripherial
  | MemoryToMemory

/-- The value of a mode. -/
def DmaModes.value : DmaModes → Word
  | .PeripherialToMemory => 0#32
  | .MemoryToPeripherial => 1#32
  | .MemoryToMemory => 2#32

/-- `DmaTransferSpecifics_t`, the fields that are written. -/
structure DmaTransferSpecifics where
  tcie : BitVec 1
  minc : BitVec 1
  chsel : BitVec 3
  ndtr : BitVec 16
  streamNumber : BitVec 4
  sourceAddress : Word
  destinationAddress : Word
  dmaJobType : Nat

/-- `DmaStreamRegisterMap_t`, the registers that are written. -/
structure DmaStreamRegisterMap where
  dmaSXcr : Word
  dmaSXndtr : Word
  dmaSXpar : Word
  dmaSXm0ar : Word
  deriving DecidableEq

/-- A stream has been enabled: which, where to, and for how many items. -/
structure DmaStart where
  stream : Nat
  destination : Word
  ndtr : Word
  deriving DecidableEq

/-- The allocator, the globals and the registers. -/
structure TransferSystem where
  heap : Allocator
  tInfo : TaskInformation
  dmaInterruptAction : Nat
  /-- `process_stats.panic_state` -/
  panicState : PanicTypes
  /-- The words sent to the host. -/
  printed : List Word
  usart1Cr1 : Word
  usart1Cr3 : Word
  dmaStream : Nat → DmaStreamRegisterMap
  /-- The streams that have been enabled. This is history. -/
  started : List DmaStart

/-- `&((UartRegisterMap_t*) Usart1Baseadress)->dr` -/
def usart1Dr : Word := 0x40011004#32

namespace TransferSystem

variable (s : TransferSystem)

/-- `invoke_panic` -/
def invokePanic (panicType : PanicTypes) : TransferSystem := { s with panicState := panicType }

/-- The stream is enabled. -/
def Enabled (n : Nat) : Prop := (s.dmaStream n).dmaSXcr &&& 1#32 ≠ 0#32

/-- The receive interrupt of the UART is enabled. -/
def Receives : Prop := s.usart1Cr1 &&& (1#32 <<< 5) ≠ 0#32

instance (n : Nat) : Decidable (s.Enabled n) := inferInstanceAs (Decidable (_ ≠ _))

instance : Decidable s.Receives := inferInstanceAs (Decidable (_ ≠ _))

/-- The registers of a stream are written. -/
def setStream (n : Nat) (registers : DmaStreamRegisterMap) : TransferSystem :=
  { s with dmaStream := Function.update s.dmaStream n registers }

/-- `dma_sXcr` is written. A stream that becomes enabled starts with what its
    other registers say. -/
def writeCr (n : Nat) (w : Word) : TransferSystem :=
  let registers := s.dmaStream n
  let t := s.setStream n { registers with dmaSXcr := w }
  if ¬ s.Enabled n ∧ w &&& 1#32 ≠ 0#32 then
    { t with started := s.started ++
        [{ stream := n, destination := registers.dmaSXm0ar, ndtr := registers.dmaSXndtr }] }
  else t

end TransferSystem

open TransferSystem

/-- The configuration of a stream. -/
def DmaTransferSpecifics.configuration (config : DmaTransferSpecifics) (dmaMode : DmaModes) :
    Word :=
  (dmaMode.value <<< 6) ||| (config.chsel.setWidth 32 <<< 25) |||
    (config.minc.setWidth 32 <<< 10) ||| (config.tcie.setWidth 32 <<< 4)

/-- The last part of `dma_transfer`: count and configuration are written, and the
    stream is enabled. -/
def startStream (n : Nat) (config : DmaTransferSpecifics) (dmaMode : DmaModes)
    (s : TransferSystem) : TransferSystem :=
  let s := s.setStream n { s.dmaStream n with dmaSXndtr := config.ndtr.setWidth 32 }
  let s := s.writeCr n (config.configuration dmaMode)
  s.writeCr n ((s.dmaStream n).dmaSXcr ||| 1#32)

/-- `dma_transfer` -/
def dmaTransfer (config : DmaTransferSpecifics) (dmaMode : DmaModes)
    (source : SourcePeripherial) (s : TransferSystem) : TransferSystem :=
  let n := config.streamNumber.toNat
  let crxResult := (s.dmaStream n).dmaSXcr
  let s := if crxResult &&& 1#32 ≠ 0#32 then s.writeCr n (crxResult &&& ~~~1#32) else s
  match dmaMode with
  | .PeripherialToMemory =>
    let sourceAddress :=
      match source with
      | .UART => usart1Dr
      | .SPI => config.sourceAddress
    let s := s.setStream n { s.dmaStream n with
      dmaSXpar := sourceAddress
      dmaSXm0ar := config.destinationAddress }
    startStream n config dmaMode { s with
      usart1Cr3 := s.usart1Cr3 ||| (1#32 <<< 6)
      usart1Cr1 := s.usart1Cr1 &&& ~~~(1#32 <<< 5) }
  | .MemoryToPeripherial =>
    startStream n config dmaMode (s.setStream n { s.dmaStream n with
      dmaSXpar := config.sourceAddress
      dmaSXm0ar := config.destinationAddress })
  | .MemoryToMemory => s

/-- `dt`, with what it has for a source address before `dma_transfer` writes it. -/
def imageTransfer (taskSize : Nat) (startAdress sourceAddress : Word) : DmaTransferSpecifics :=
  { tcie := 1
    minc := 1
    chsel := 4
    ndtr := BitVec.ofNat 16 taskSize
    streamNumber := 5
    sourceAddress := sourceAddress
    destinationAddress := startAdress
    dmaJobType := DmaWaitsForExternalTask }

/-- `tInfo.task_size = *((unsigned int*) uart_rx_buffer) >> 8` -/
def taskSizeOf (uartRxBuffer : CharBuffer) : Nat := (wordOf uartRxBuffer).toNat / 256

/-- The branch `PREPARE_TASK_TRANSFER` of `external_io_runner`, with what the
    caller has in `r1` and in the fields of `dt` that it does not write. -/
def prepareTaskTransfer (r1 sourceAddress : Word) (uartRxBuffer : CharBuffer)
    (s : TransferSystem) : Option TransferSystem :=
  let taskSize := taskSizeOf uartRxBuffer
  match s.heap.allocate r1 taskSize with
  | none => none
  | some (heap, startAdress) =>
    let s := { s with
      heap := heap
      tInfo := { taskSize := taskSize, startAdress := startAdress.toNat } }
    let s := if startAdress = 0#32 then s.invokePanic .OUT_OF_MEMORY else s
    let s := { s with
      printed := s.printed ++ [startAdress]
      dmaInterruptAction := DmaWaitsForExternalTask }
    some (dmaTransfer (imageTransfer taskSize startAdress sourceAddress)
      .PeripherialToMemory .UART s)

/-! ### What is started -/

/-- The entry was given to this request: it was free and is occupied, its chunk
    is where the stream goes, and is as long as the stream counts. -/
structure Buffered (m m' : Allocator) (t : DmaStart) (i : Nat) : Prop where
  bound : i < numOfSlots
  free : isOccupied (m.mem i) = false
  occupied : isOccupied (m'.mem i) = true
  address : t.destination = m'.addressOf (baseOffset (m'.mem i))
  large : t.ndtr.toNat ≤ chunkSize (m'.mem i)

/-- A transfer needs a buffer: whatever the command starts goes to a chunk that
    was allocated for it. When `allocate` returns null nothing is started, the
    receive interrupt is what it was, and so are `tInfo` and
    `dma_interrupt_action`. -/
def Guarded (r1 sourceAddress : Word) (uartRxBuffer : CharBuffer) (s : TransferSystem) : Prop :=
  ∀ s', prepareTaskTransfer r1 sourceAddress uartRxBuffer s = some s' →
    (∀ t ∈ s'.started.drop s.started.length, ∃ i, Buffered s.heap s'.heap t i) ∧
    ∀ heap, s.heap.allocate r1 (taskSizeOf uartRxBuffer) = some (heap, 0#32) →
      s'.started = s.started ∧ (s'.Receives ↔ s.Receives) ∧ s'.tInfo = s.tInfo ∧
        s'.dmaInterruptAction = s.dmaInterruptAction

/-- Where the chunk of an entry begins, or would begin when it is carved. -/
def Allocator.chunkOffset (m : Allocator) (i : Nat) : Nat :=
  if chunkSize (m.mem i) = 0x7FFF then m.usedBytes % 65536 else baseOffset (m.mem i)

/-- The request gets a buffer: its size is one that the allocator can serve, and
    there is an entry for it, whose chunk does not begin at the address 0. -/
def GetsBuffer (m : Allocator) (size : Nat) : Prop :=
  0 < size ∧ size ≤ 32760 ∧
    ∃ i < numOfSlots, FirstFit m.mem (roundUp 4 size) i ∧ m.addressOf (m.chunkOffset i) ≠ 0#32

instance (m : Allocator) (size : Nat) : Decidable (GetsBuffer m size) :=
  inferInstanceAs (Decidable (_ ∧ _ ∧ ∃ i < numOfSlots, _ ∧ _))

section Streams

variable (s : TransferSystem) (n : Nat) (registers : DmaStreamRegisterMap)

theorem setStream_self : (s.setStream n registers).dmaStream n = registers := by
  simp only [setStream, Function.update_self]

theorem setStream_setStream (registers' : DmaStreamRegisterMap) :
    (s.setStream n registers).setStream n registers' = s.setStream n registers' := by
  simp only [setStream, Function.update_idem]

/-- Writing a word that does not enable the stream. -/
theorem writeCr_off {w : Word} (hw : w &&& 1#32 = 0#32) :
    s.writeCr n w = s.setStream n { s.dmaStream n with dmaSXcr := w } :=
  if_neg fun hc => hc.2 hw

/-- Writing a word that enables the stream, to a stream that is disabled. -/
theorem writeCr_on {w : Word} (hoff : ¬ s.Enabled n) (hw : w &&& 1#32 ≠ 0#32) :
    s.writeCr n w = { s.setStream n { s.dmaStream n with dmaSXcr := w } with
      started := s.started ++ [{
        stream := n
        destination := (s.dmaStream n).dmaSXm0ar
        ndtr := (s.dmaStream n).dmaSXndtr }] } :=
  if_pos ⟨hoff, hw⟩

/-- Disabling a stream writes to its `dma_sXcr` or does nothing. -/
theorem disabled_eq : ∃ w,
    (if (s.dmaStream n).dmaSXcr &&& 1#32 ≠ 0#32 then
      s.writeCr n ((s.dmaStream n).dmaSXcr &&& ~~~1#32) else s) =
      s.setStream n { s.dmaStream n with dmaSXcr := w } := by
  by_cases hon : (s.dmaStream n).dmaSXcr &&& 1#32 = 0#32
  · refine ⟨(s.dmaStream n).dmaSXcr, ?_⟩
    rw [if_neg (not_not.mpr hon), setStream, Function.update_eq_self]
  · have hlow : (s.dmaStream n).dmaSXcr &&& ~~~1#32 &&& 1#32 = 0#32 := by
      rw [BitVec.and_assoc]
      exact BitVec.and_zero
    exact ⟨_, by rw [if_pos hon, writeCr_off s n hlow]⟩

/-- No configuration enables the stream. -/
theorem configuration_off (config : DmaTransferSpecifics) (dmaMode : DmaModes) :
    config.configuration dmaMode &&& 1#32 = 0#32 := by
  have hshift : ∀ (w : Word) (k : Nat), 0 < k → (w <<< k) &&& 1#32 = 0#32 := by
    intro w k hk
    refine BitVec.eq_of_getLsbD_eq fun i hi => ?_
    simp only [BitVec.getLsbD_and, BitVec.getLsbD_shiftLeft, BitVec.getLsbD_one,
      BitVec.getLsbD_zero]
    by_cases hzero : i = 0
    · simp only [hzero, hk, decide_true, Bool.not_true, Bool.and_false, Bool.false_and]
    · simp only [hzero, decide_false, Bool.and_false]
  rw [DmaTransferSpecifics.configuration, BitVec.and_or_distrib_right,
    BitVec.and_or_distrib_right, BitVec.and_or_distrib_right, hshift _ 6 (by decide),
    hshift _ 25 (by decide), hshift _ 10 (by decide), hshift _ 4 (by decide)]
  rfl

/-- The stream starts with the address it has and the count of the configuration. -/
theorem startStream_started (config : DmaTransferSpecifics) (dmaMode : DmaModes) :
    startStream n config dmaMode s =
      { s with
        dmaStream := Function.update s.dmaStream n
          { s.dmaStream n with
            dmaSXcr := config.configuration dmaMode ||| 1#32
            dmaSXndtr := config.ndtr.setWidth 32 }
        started := s.started ++ [{
          stream := n
          destination := (s.dmaStream n).dmaSXm0ar
          ndtr := config.ndtr.setWidth 32 }] } := by
  have hconfig := configuration_off config dmaMode
  have hon : (config.configuration dmaMode ||| 1#32) &&& 1#32 ≠ 0#32 := by
    rw [BitVec.and_or_distrib_right, hconfig]
    decide
  -- The first write leaves the enable bit clear, and the second sets it.
  rw [startStream, writeCr_off _ n hconfig, writeCr_on _ n ?_ ?_]
  · simp only [setStream_self, setStream_setStream]
    rfl
  · rw [TransferSystem.Enabled, setStream_self]
    exact not_not.mpr hconfig
  · rw [setStream_self]
    exact hon

/-- What `dma_transfer` leaves of a transfer from the UART to the memory: the
    stream has been started, and the UART asks it for the bytes that arrive
    instead of interrupting. -/
theorem dmaTransfer_started (config : DmaTransferSpecifics) :
    dmaTransfer config .PeripherialToMemory .UART s =
      { s with
        usart1Cr3 := s.usart1Cr3 ||| (1#32 <<< 6)
        usart1Cr1 := s.usart1Cr1 &&& ~~~(1#32 <<< 5)
        dmaStream := Function.update s.dmaStream config.streamNumber.toNat
          { dmaSXcr := config.configuration .PeripherialToMemory ||| 1#32
            dmaSXndtr := config.ndtr.setWidth 32
            dmaSXpar := usart1Dr
            dmaSXm0ar := config.destinationAddress }
        started := s.started ++ [{
          stream := config.streamNumber.toNat
          destination := config.destinationAddress
          ndtr := config.ndtr.setWidth 32 }] } := by
  rcases disabled_eq s config.streamNumber.toNat with ⟨w, hdisabled⟩
  simp only [dmaTransfer, hdisabled]
  rw [startStream_started]
  simp only [setStream, Function.update_idem, Function.update_self]

end Streams

/-! ### When a transfer has its buffer -/

section Guards

variable {m m' : Allocator} {k : Nat} {r1 p : Word} {size : Nat}

/-- The entry that a call has made occupied. -/
theorem buffered_of_entry {i : Nat} {w : Word} {t : DmaStart} (hi : i < numOfSlots)
    (hfree : isOccupied (m.mem i) = false) (hstart : m'.memTableStart = m.memTableStart)
    (hmem : m'.mem = Function.update m.mem i w) (hw : isOccupied w = true)
    (haddress : t.destination = m.addressOf (baseOffset w)) (hlarge : t.ndtr.toNat ≤ chunkSize w) :
    Buffered m m' t i := by
  have hentry : m'.mem i = w := by rw [hmem, Function.update_self]
  refine ⟨hi, hfree, by rw [hentry, hw], ?_, by rw [hentry]; exact hlarge⟩
  rw [haddress, hentry, addressOf, addressOf, useableMemStart, useableMemStart, hstart]

/-- A request that gets a buffer. -/
theorem buffered_of_getsBuffer (hpacked : Packed m k) (h : GetsBuffer m size) (n : Nat)
    (hcall : Allocated m r1 size m' p) :
    p ≠ 0#32 ∧ ∃ i, Buffered m m' ⟨n, p, BitVec.ofNat 32 (size % 65536)⟩ i := by
  rcases h with ⟨hpos, hsmall, i, hi, hfirst, haddress⟩
  -- A size that is served fits the count register.
  have hcount : (BitVec.ofNat 32 (size % 65536)).toNat = size := by
    rw [BitVec.toNat_ofNat]
    omega
  cases hcall with
  | rejected hrej => rcases hrej with hzero | hbig <;> omega
  | full _ hno => exact absurd hfirst.2.1 (hno i hi)
  | reuse l _ hl hused =>
      obtain rfl := hl.unique hfirst
      rw [chunkOffset, if_neg hused] at haddress
      refine ⟨haddress, l, buffered_of_entry hi hl.2.1.1 rfl rfl (isOccupied_pack _ _ _) ?_ ?_⟩
      · rw [baseOffset_pack, Nat.mod_eq_of_lt (baseOffset_lt _)]
      · rw [chunkSize_pack, Nat.mod_eq_of_lt (chunkSize_lt _), hcount]
        exact Nat.le_trans (le_roundUp 4 size) hl.2.1.2
  | carve l offset _ hl hunused hoffset =>
      obtain rfl := hl.unique hfirst
      have hlk : l = k := hpacked.firstFit_unused hl hunused
      subst hlk hoffset
      rw [chunkOffset, if_pos hunused, hpacked.usedBytes_eq] at haddress
      refine ⟨haddress, l, buffered_of_entry hi hl.2.1.1 rfl rfl ?_ ?_ ?_⟩
      · rw [carved_eq, isOccupied_pack]
      · rw [carved_eq, baseOffset_pack]
      · rw [hcount]
        exact le_chunkSize_carved _ hsmall

/-- No entry but the one that was written has become occupied. -/
theorem Buffered.entry {i l : Nat} {w : Word} {t : DmaStart} (h : Buffered m m' t i)
    (hmem : m'.mem = Function.update m.mem l w) : i = l ∧ t.ndtr.toNat ≤ chunkSize w := by
  have hil : i = l := by
    by_contra hne
    have hocc := h.occupied
    rw [hmem, Function.update_of_ne hne, h.free] at hocc
    exact absurd hocc Bool.false_ne_true
  have hlarge := h.large
  rw [hil, hmem, Function.update_self] at hlarge
  exact ⟨hil, hlarge⟩

/-- A request whose answer is not null, and whose chunk is as long as the stream
    counts, gets a buffer. -/
theorem getsBuffer_of_buffered (hpacked : Packed m k) {n : Nat} (hp : p ≠ 0#32)
    (hcall : Allocated m r1 size m' p)
    (h : ∃ i, Buffered m m' ⟨n, p, BitVec.ofNat 32 (size % 65536)⟩ i) : GetsBuffer m size := by
  have haccepted : ¬ Rejected size → 0 < size ∧ size ≤ 32768 := fun hrej => by
    rw [Rejected] at hrej
    omega
  cases hcall with
  | rejected => exact absurd rfl hp
  | full => exact absurd rfl hp
  | reuse l hrej hl hused =>
      have hdvd : 8 ∣ chunkSize (m.mem l) := hpacked.rounded l (hpacked.lt_of_used hl.1 hused)
      have hlt := chunkSize_lt (m.mem l)
      have hle : size ≤ chunkSize (m.mem l) := Nat.le_trans (le_roundUp 4 size) hl.2.1.2
      refine ⟨(haccepted hrej).1, by omega, l, hl.1, hl, ?_⟩
      rw [chunkOffset, if_neg hused]
      exact hp
  | carve l offset hrej hl hunused hoffset =>
      have hlk : l = k := hpacked.firstFit_unused hl hunused
      subst hlk hoffset
      rcases haccepted hrej with ⟨hpos, hbound⟩
      rcases h with ⟨i, hbuffered⟩
      have hlarge := (hbuffered.entry rfl).2
      have hcount : (BitVec.ofNat 32 (size % 65536)).toNat = size := by
        rw [BitVec.toNat_ofNat]
        omega
      rw [hcount] at hlarge
      have hsmall : size ≤ 32760 := by
        by_contra hcut
        -- The rounded size still is one that an entry can have.
        have hfour : 4 ∣ roundUp 4 size := roundUp_dvd (by decide)
        have hround := le_roundUp 4 size
        have hfit : roundUp 4 size ≤ 0x7FFF := hunused ▸ hl.2.1.2
        rw [chunkSize_carved_zero _ (Nat.lt_of_not_le hcut) (by omega)] at hlarge
        omega
      refine ⟨hpos, hsmall, l, hl.1, hl, ?_⟩
      rw [chunkOffset, if_pos hunused, hpacked.usedBytes_eq]
      exact hp

/-- What the command leaves, when `allocate` returns. -/
theorem prepareTaskTransfer_eq (sourceAddress : Word) {uartRxBuffer : CharBuffer}
    {s : TransferSystem}
    (hcall : s.heap.allocate r1 (taskSizeOf uartRxBuffer) = some (m', p)) :
    ∃ s', prepareTaskTransfer r1 sourceAddress uartRxBuffer s = some s' ∧ s'.heap = m' ∧
      s'.tInfo = { taskSize := taskSizeOf uartRxBuffer, startAdress := p.toNat } ∧
      s'.dmaInterruptAction = DmaWaitsForExternalTask ∧
      s'.usart1Cr1 = s.usart1Cr1 &&& ~~~(1#32 <<< 5) ∧
      s'.dmaStream = Function.update s.dmaStream 5
        { dmaSXcr := 0x08000411#32
          dmaSXndtr := BitVec.ofNat 32 (taskSizeOf uartRxBuffer % 65536)
          dmaSXpar := usart1Dr
          dmaSXm0ar := p } ∧
      s'.started =
        s.started ++ [⟨5, p, BitVec.ofNat 32 (taskSizeOf uartRxBuffer % 65536)⟩] := by
  -- The field is narrower than the size, and the register wider than the field.
  have hcount : (BitVec.ofNat 16 (taskSizeOf uartRxBuffer)).setWidth 32 =
      BitVec.ofNat 32 (taskSizeOf uartRxBuffer % 65536) := by
    refine BitVec.eq_of_toNat_eq ?_
    simp only [BitVec.toNat_setWidth, BitVec.toNat_ofNat]
  have hconfig : (imageTransfer (taskSizeOf uartRxBuffer) p sourceAddress).configuration
      .PeripherialToMemory ||| 1#32 = 0x08000411#32 := by
    change (0#32 <<< 6 ||| (4#3).setWidth 32 <<< 25 ||| (1#1).setWidth 32 <<< 10 |||
      (1#1).setWidth 32 <<< 4) ||| 1#32 = 0x08000411#32
    decide
  simp only [prepareTaskTransfer, hcall, dmaTransfer_started, hconfig]
  refine ⟨_, rfl, ?_⟩
  rw [← hcount]
  split
  · exact ⟨rfl, rfl, rfl, rfl, rfl, rfl⟩
  · exact ⟨rfl, rfl, rfl, rfl, rfl, rfl⟩

/-- When a transfer has its buffer. -/
theorem guarded_iff {s : TransferSystem} (hpacked : Packed s.heap k) (r1 sourceAddress : Word)
    (uartRxBuffer : CharBuffer) :
    Guarded r1 sourceAddress uartRxBuffer s ↔
      s.heap.mutex = locked ∨ GetsBuffer s.heap (taskSizeOf uartRxBuffer) := by
  by_cases hmutex : s.heap.mutex = locked
  · -- The call spins, and there is no state after it.
    refine iff_of_true (fun s' hprepare => ?_) (Or.inl hmutex)
    cases hcall : s.heap.allocate r1 (taskSizeOf uartRxBuffer) with
    | none =>
        rw [prepareTaskTransfer, hcall] at hprepare
        exact absurd hprepare (by simp only [reduceCtorEq, not_false_eq_true])
    | some r => exact absurd hmutex (allocate_cases hcall).1
  · rw [or_iff_right hmutex]
    -- Otherwise the call returns, and the transfer is started whatever it returned.
    rcases allocate_returns r1 (taskSizeOf uartRxBuffer) hmutex with ⟨m', p, hcall⟩
    rcases prepareTaskTransfer_eq sourceAddress hcall with
      ⟨s', hprepare, hheap, -, -, -, -, hstarted⟩
    have hdone := (allocate_cases hcall).2
    constructor
    · intro hguarded
      rcases hguarded s' hprepare with ⟨hbuffered, hnull⟩
      -- A null answer would have left the streams as they were.
      have hp : p ≠ 0#32 := by
        rintro rfl
        have hnone := (hnull m' hcall).1
        rw [hstarted] at hnone
        exact absurd (List.append_right_eq_self.mp hnone) (List.cons_ne_nil _ _)
      rw [hstarted, List.drop_left, hheap] at hbuffered
      exact getsBuffer_of_buffered hpacked hp hdone (hbuffered _ (List.mem_singleton_self _))
    -- With a buffer the second half has nothing to say.
    · intro hgets t ht
      rw [hprepare, Option.some.injEq] at ht
      rcases buffered_of_getsBuffer hpacked hgets 5 hdone with ⟨hp, hbuffered⟩
      rw [← ht, hstarted, List.drop_left, hheap]
      refine ⟨fun start hstart => ?_, fun heap hnull => ?_⟩
      · rw [List.mem_singleton.mp hstart]
        exact hbuffered
      · rw [hcall, Option.some.injEq, Prod.mk.injEq] at hnull
        exact absurd hnull.2 hp

end Guards

/-! ### The statements of the runner -/

/-- The same globals and registers, as `Io` has them. -/
structure SameIo (t : TransferSystem) (s : IoSystem) : Prop where
  tInfo : s.tInfo = t.tInfo
  action : s.kernel.dmaInterruptAction = t.dmaInterruptAction
  receives : s.rxneie = true ↔ t.Receives
  stream : s.stream = if t.Enabled 5 then
    some { taskSize := (t.dmaStream 5).dmaSXndtr.toNat
           startAdress := (t.dmaStream 5).dmaSXm0ar.toNat } else none

section Statements

variable {s s' : IoSystem} {answer : Addr}

theorem runnerStep_prepare (hstage : s.stage = .prepare) (h : runnerStep answer s = some s') :
    s'.stage = .allocate ∧ s'.tInfo.taskSize = taskSizeOf s.uartRxBuffer := by
  unfold runnerStep at h
  split at h
  · rw [hstage, Option.some.injEq] at h
    rw [← h]
    exact ⟨rfl, rfl⟩
  · exact absurd h (by simp only [reduceCtorEq, not_false_eq_true])

theorem runnerStep_allocate (hstage : s.stage = .allocate) (h : runnerStep answer s = some s') :
    s'.stage = .arm ∧ s'.tInfo = { taskSize := s.tInfo.taskSize, startAdress := answer } := by
  unfold runnerStep at h
  split at h
  · rw [hstage] at h
    dsimp only at h
    split at h
    · rw [← Option.some.inj h]
      exact ⟨rfl, rfl⟩
    · rcases Option.map_eq_some_iff.mp h with ⟨kernel, -, rfl⟩
      exact ⟨rfl, rfl⟩
  · exact absurd h (by simp only [reduceCtorEq, not_false_eq_true])

theorem runnerStep_arm (hstage : s.stage = .arm) (h : runnerStep answer s = some s') :
    s'.stage = .transfer ∧ s'.tInfo = s.tInfo ∧
      s'.kernel.dmaInterruptAction = DmaWaitsForExternalTask := by
  unfold runnerStep at h
  split at h
  · rw [hstage, Option.some.injEq] at h
    rw [← h]
    exact ⟨rfl, rfl, rfl⟩
  · exact absurd h (by simp only [reduceCtorEq, not_false_eq_true])

theorem runnerStep_start (hstage : s.stage = .transfer) (h : runnerStep answer s = some s') :
    s'.tInfo = s.tInfo ∧ s'.kernel = s.kernel ∧ s'.rxneie = false ∧
      s'.stream = some { s.tInfo with taskSize := s.tInfo.taskSize % 65536 } := by
  unfold runnerStep at h
  split at h
  · rw [hstage, Option.some.injEq] at h
    rw [← h]
    exact ⟨rfl, rfl, rfl, rfl⟩
  · exact absurd h (by simp only [reduceCtorEq, not_false_eq_true])

end Statements

/-- From wherever the runner prepares a transfer, its statements one by one leave
    what the branch leaves at once. -/
theorem prepareTaskTransfer_mirrors {s s' : IoSystem} {t t' : TransferSystem}
    {r1 sourceAddress p : Word} {heap : Allocator} (hstage : s.stage = .prepare)
    (hcall : t.heap.allocate r1 (taskSizeOf s.uartRxBuffer) = some (heap, p))
    (hprepare : prepareTaskTransfer r1 sourceAddress s.uartRxBuffer t = some t')
    (hrun : run ioStep (List.replicate 4 (.runner p.toNat)) s = some s') : SameIo t' s' := by
  -- The four statements, one after the other.
  rcases run_cons ioStep hrun with ⟨s₁, hfirst, hrun⟩
  rcases run_cons ioStep hrun with ⟨s₂, hsecond, hrun⟩
  rcases run_cons ioStep hrun with ⟨s₃, hthird, hrun⟩
  rcases run_cons ioStep hrun with ⟨s₄, hfourth, hnil⟩
  obtain rfl : s₄ = s' := Option.some.inj hnil
  rcases runnerStep_prepare hstage hfirst with ⟨hstage₁, hsize⟩
  rcases runnerStep_allocate hstage₁ hsecond with ⟨hstage₂, htInfo₂⟩
  rcases runnerStep_arm hstage₂ hthird with ⟨hstage₃, htInfo₃, haction⟩
  rcases runnerStep_start hstage₃ hfourth with ⟨htInfo₄, hkernel, hreceive, hstream⟩
  rcases prepareTaskTransfer_eq sourceAddress hcall with
    ⟨t₁, hprepare₁, -, htInfo, haction₁, hcr1, hregisters, -⟩
  rw [hprepare, Option.some.injEq] at hprepare₁
  subst hprepare₁
  rw [hsize] at htInfo₂
  -- The bit that `dma_transfer` clears is the one that was tested.
  have hoff : ¬ t'.Receives := by
    rw [Receives, hcr1, BitVec.and_assoc, not_not]
    exact BitVec.and_zero
  have hon : t'.Enabled 5 := by
    rw [TransferSystem.Enabled, hregisters, Function.update_self]
    change 0x08000411#32 &&& 1#32 ≠ 0#32
    decide
  have hcount : taskSizeOf s.uartRxBuffer % 65536 < 2 ^ 32 := by omega
  refine ⟨?_, ?_, iff_of_false ?_ hoff, ?_⟩
  · rw [htInfo₄, htInfo₃, htInfo₂, htInfo]
  · rw [hkernel, haction, haction₁]
  · rw [hreceive]
    exact Bool.false_ne_true
  · rw [hstream, htInfo₃, htInfo₂, if_pos hon, hregisters, Function.update_self,
      BitVec.toNat_ofNat, Nat.mod_eq_of_lt hcount]

/-- In every reachable state of the allocator, and for every command, a transfer
    has its buffer exactly if the call of `allocate` never returns or the request
    gets one. -/
theorem transfer_guarded_iff {raw : Allocator} {startOsSection ramSize : Word} {es : List Request}
    {c : Client} (hrun : run clientStep es (initialClient raw startOsSection ramSize) = some c)
    {s : TransferSystem} (hheap : s.heap = c.heap) (r1 sourceAddress : Word)
    (uartRxBuffer : CharBuffer) :
    Guarded r1 sourceAddress uartRxBuffer s ↔
      s.heap.mutex = locked ∨ GetsBuffer s.heap (taskSizeOf uartRxBuffer) := by
  rcases packed_reachable hrun with ⟨k, hpacked⟩
  rw [← hheap] at hpacked
  exact guarded_iff hpacked r1 sourceAddress uartRxBuffer

/-- An idle DMA and a UART that interrupts, around an allocator. -/
def transferSystem (heap : Allocator) : TransferSystem :=
  { heap := heap
    tInfo := { taskSize := 0, startAdress := NULL }
    dmaInterruptAction := DmaIsIdle
    panicState := .NO_PANIC
    printed := []
    usart1Cr1 := 0x202C#32
    usart1Cr3 := 0#32
    dmaStream := fun _ =>
      { dmaSXcr := 0#32, dmaSXndtr := 0#32, dmaSXpar := 0#32, dmaSXm0ar := 0#32 }
    started := [] }

/-- A command for an image of 512 bytes, when chunks are in use. -/
theorem transfer_guarded_iff_fillAndFree :
    Ends clientStep fillAndFree freshClient fun c =>
      Guarded 7#32 0#32 (byteOf 0x20001#32) (transferSystem c.heap) := by
  have hends : Ends clientStep fillAndFree freshClient fun c =>
      GetsBuffer c.heap (taskSizeOf (byteOf 0x20001#32)) := by decide +kernel
  rcases hends with ⟨c, hrun, hgets⟩
  exact ⟨c, hrun, (transfer_guarded_iff hrun rfl 7#32 0#32 (byteOf 0x20001#32)).mpr (Or.inr hgets)⟩

/-- A command for an image of 64 KiB. -/
theorem transfer_unguarded :
    ¬ Guarded 7#32 0#32 (byteOf 0x1000001#32) (transferSystem freshClient.heap) ∧
      (prepareTaskTransfer 7#32 0#32 (byteOf 0x1000001#32)
        (transferSystem freshClient.heap)).map TransferSystem.started = some [⟨5, 0#32, 0#32⟩] := by
  have hpacked := packed_initAllocator blankMemory 0x20001001#32 0x10000#32
  have hlocked : ¬ freshClient.heap.mutex = locked := by decide +kernel
  have hgets : ¬ GetsBuffer freshClient.heap (taskSizeOf (byteOf 0x1000001#32)) := by decide +kernel
  refine ⟨fun hguarded => ?_, by decide +kernel⟩
  rcases (guarded_iff hpacked 7#32 0#32 _).mp hguarded with hmutex | hbuffer
  · exact hlocked hmutex
  · exact hgets hbuffer

end NextLevelRTOS
