import NextLevelRTOS.Radio.Frame

/-!
# Bytes on the Wire

What a transfer to the radio clocks out, and where it reaches in memory. `transfer`
puts a command byte in front of what it copies into `tx_buffer`, and `spi_read` and
`spi_write` take one round more than their length says, for this command byte. So a
transfer of length `k` clocks `1 + k` bytes, and the register accessors ask for as
many bytes as they mean.

`load_tx_buffer` asks for one more than its payload has. The byte behind the payload
is read and goes out with it, and with a payload of 32 bytes `tx_buffer` is written
and read behind its end.

## Main definitions

* `TransferTrace`, `tracedTransfer`: A transfer, with the indices it uses.
* `loadTxBufferTransfers`: The whole of `load_tx_buffer`.
* `RadioAccess`: A payload that is loaded, or a register that is read or written.
* `ExactOnWire`: What it ought to do.

## Theorems

* `fillTxBuffer_command`, `fillTxBuffer_data`: What `tx_buffer` holds.
* `transfer_wire`: What goes out.
* `access_exact_iff`: Register accesses are exact and loads never are.
-/

namespace NextLevelRTOS

open Buffer

/-- `FIFO_STATUS` -/
def FIFO_STATUS : Byte := 0x17#8

/-- A transfer: what goes out, the indices of `tx_buffer`, those with which the
    buffer of the caller is read and written, and this buffer afterwards. -/
structure TransferTrace where
  wire : List Byte
  txIndices : List Nat
  reads : List Nat
  writes : List Nat
  buffer : CharBuffer

/-- The indices of `tx_buffer` with which `transfer` writes it. -/
def fillIndices (length : Nat) : List Nat :=
  loop (fun i l => l ++ [1 + i]) (min length PackageBufferSize) [0]

/-- The indices of `tx_buffer` with which the loops of `spi_read` and `spi_write` read it. -/
def spiIndices (length : Nat) : List Nat := loop (fun t l => l ++ [t]) (length + 1) []

/-- The indices with which `transfer` reads the buffer of the caller. -/
def bufferReads (length : Nat) (transferType : TransferType) : List Nat :=
  loop (fun i l => if transferType ≠ .RRxPayload then l ++ [i] else l)
    (min length PackageBufferSize) []

/-- The indices with which `spi_read` writes the buffer of the caller. -/
def bufferWrites (length : Nat) : List Nat :=
  loop (fun t l => if t ≠ 0 then l ++ [t - 1] else l) (length + 1) []

/-- `transfer`, with the indices it uses. -/
def tracedTransfer (targetRegister : Byte) (length : Nat) (transferType : TransferType)
    (buffer stack answer : CharBuffer) : TransferTrace :=
  let (wire, buffer') := transfer targetRegister length transferType buffer stack answer
  { wire := wire
    txIndices := fillIndices length ++ spiIndices length
    reads := bufferReads length transferType
    writes :=
      match transferType with
      | .ReadRegister | .RRxPayload => bufferWrites length
      | _ => []
    buffer := buffer' }

/-- `load_tx_buffer`: the result, and the transfers. The radio answers `fifo` to the
    first, which reads the status of its queues into `rx_buffer`. -/
def loadTxBufferTransfers (length : Nat) (payload rxBuffer stack fifo answer : CharBuffer) :
    Nat × List TransferTrace :=
  let status := tracedTransfer FIFO_STATUS 1 .ReadRegister rxBuffer stack fifo
  if status.buffer 0 &&& (1#8 <<< 5) ≠ 0#8 then (0, [status])
  else (1, [status, tracedTransfer (-1) (length + 1) .WTxPayload payload stack answer])

/-- A payload is loaded, or a register read or written. -/
inductive RadioAccess where
  | load (length : Nat) (payload : CharBuffer)
  | readRegister (register : BitVec 5) (length : Nat) (buffer : CharBuffer)
  | writeRegister (register : BitVec 5) (length : Nat) (buffer : CharBuffer)

/-- How many bytes are meant. -/
def RadioAccess.length : RadioAccess → Nat
  | .load length _ => length
  | .readRegister _ length _ => length
  | .writeRegister _ length _ => length

/-- The access is one to a register. -/
def RadioAccess.IsRegister : RadioAccess → Prop
  | .load .. => False
  | .readRegister .. => True
  | .writeRegister .. => True

/-- The command byte carries the register number, under the command. -/
def CarriesRegister (command : Byte) (register : BitVec 5) (opcode : BitVec 3) : Prop :=
  command = opcode ++ register

/-- What an access ought to do, with anything at all in memory and whatever the
    radio answers: it clocks the command and the bytes that are meant, and reaches no
    further in memory. -/
def ExactOnWire (rxBuffer stack fifo answer : CharBuffer) : RadioAccess → Prop
  | .load length payload =>
    ∃ status t, loadTxBufferTransfers length payload rxBuffer stack fifo answer =
        (1, [status, t]) ∧
      t.wire = W_TX_PAYLOAD :: (List.range length).map payload ∧
      (∀ i ∈ t.reads, i < length) ∧ ∀ i ∈ t.txIndices, i < PackageBufferSize
  | .readRegister register length buffer =>
    let t := tracedTransfer (register.setWidth 8) length .ReadRegister buffer stack answer
    t.wire.length = 1 + length ∧
      (∃ command ∈ t.wire.head?, CarriesRegister command register 0b000#3) ∧
      t.writes = List.range length ∧
      (∀ k, t.buffer k = if k < length then answer (k + 1) else buffer k) ∧
      ∀ i ∈ t.txIndices, i < PackageBufferSize
  | .writeRegister register length buffer =>
    let t := tracedTransfer (register.setWidth 8) length .WriteRegister buffer stack answer
    (∃ command, CarriesRegister command register 0b001#3 ∧
      t.wire = command :: (List.range length).map buffer) ∧
      t.writes = [] ∧ (∀ i ∈ t.reads, i < length) ∧ ∀ i ∈ t.txIndices, i < PackageBufferSize

section Transfer

variable {targetRegister : Byte} {length : Nat} {transferType : TransferType}
variable {buffer stack answer : CharBuffer}

theorem fillTxBuffer_command :
    fillTxBuffer targetRegister length transferType buffer stack 0 =
      configurePackageType targetRegister transferType := by
  rw [fillTxBuffer, loop_fill, if_neg (by omega), Function.update_self]

theorem fillTxBuffer_data (htype : transferType ≠ .RRxPayload) {i : Nat} (hi : i < length)
    (hfits : i < PackageBufferSize) :
    fillTxBuffer targetRegister length transferType buffer stack (i + 1) = buffer i := by
  rw [fillTxBuffer, loop_fill, if_pos (by omega), Nat.add_sub_cancel, if_pos htype]

/-- The command goes out, and then as many bytes as the length says. -/
theorem transfer_wire (htype : transferType ≠ .RRxPayload) (hfits : length ≤ PackageBufferSize) :
    (transfer targetRegister length transferType buffer stack answer).1 =
      configurePackageType targetRegister transferType :: (List.range length).map buffer := by
  have hwire : (transfer targetRegister length transferType buffer stack answer).1 =
      spiWrite (fillTxBuffer targetRegister length transferType buffer stack) length := by
    cases transferType <;> rfl
  rw [hwire, spiWrite, loop_collect, List.nil_append, List.range_succ_eq_map, List.map_cons,
    fillTxBuffer_command, List.map_map]
  refine congrArg _ (List.map_congr_left fun i hi => ?_)
  have hlt := List.mem_range.mp hi
  exact fillTxBuffer_data htype hlt (by omega)

theorem tracedTransfer_wire (htype : transferType ≠ .RRxPayload)
    (hfits : length ≤ PackageBufferSize) :
    (tracedTransfer targetRegister length transferType buffer stack answer).wire =
      configurePackageType targetRegister transferType :: (List.range length).map buffer :=
  transfer_wire htype hfits

theorem mem_fillIndices (i : Nat) :
    i ∈ fillIndices length ↔ i = 0 ∨ ∃ k < min length PackageBufferSize, i = 1 + k := by
  rw [fillIndices, loop_collect, List.singleton_append, List.mem_cons, List.mem_map]
  simp only [List.mem_range, eq_comm]

theorem mem_spiIndices (i : Nat) : i ∈ spiIndices length ↔ i ≤ length := by
  rw [spiIndices, loop_collect, List.nil_append, List.map_id', List.mem_range]
  omega

theorem bufferReads_eq (htype : transferType ≠ .RRxPayload) :
    bufferReads length transferType = List.range (min length PackageBufferSize) := by
  have hround : (fun i (l : List Nat) => if transferType ≠ .RRxPayload then l ++ [i] else l) =
      fun i l => l ++ [i] := by
    funext i l
    exact if_pos htype
  rw [bufferReads, hround, loop_collect, List.nil_append, List.map_id']

theorem bufferWrites_eq (length : Nat) : bufferWrites length = List.range length := by
  unfold bufferWrites
  induction length with
  | zero => rfl
  | succ n ih => rw [loop, if_pos (Nat.succ_ne_zero n), ih, Nat.add_sub_cancel, List.range_succ]

/-- A transfer that fits stays inside `tx_buffer`. -/
theorem txIndices_inside (hfits : length < PackageBufferSize) :
    ∀ i ∈ (tracedTransfer targetRegister length transferType buffer stack answer).txIndices,
      i < PackageBufferSize := by
  intro i hi
  rcases List.mem_append.mp hi with hi | hi
  · rcases (mem_fillIndices i).mp hi with rfl | ⟨k, hk, rfl⟩
    · exact Nat.zero_lt_of_lt hfits
    · omega
  · have hle := (mem_spiIndices i).mp hi
    omega

end Transfer

theorem readRegister_carries : ∀ register : BitVec 5,
    CarriesRegister (configurePackageType (register.setWidth 8) .ReadRegister) register
      0b000#3 := by
  unfold CarriesRegister
  decide

theorem writeRegister_carries : ∀ register : BitVec 5,
    CarriesRegister (configurePackageType (register.setWidth 8) .WriteRegister) register
      0b001#3 := by
  unfold CarriesRegister
  decide

/-- While the radio's queue is not full, a payload is loaded with the byte behind it. -/
theorem loadTxBufferTransfers_eq (length : Nat) (payload rxBuffer stack : CharBuffer)
    {fifo : CharBuffer} (answer : CharBuffer) (hfifo : fifo 1 &&& (1#8 <<< 5) = 0#8) :
    loadTxBufferTransfers length payload rxBuffer stack fifo answer =
      (1, [tracedTransfer FIFO_STATUS 1 .ReadRegister rxBuffer stack fifo,
        tracedTransfer (-1) (length + 1) .WTxPayload payload stack answer]) := by
  have hstatus : (tracedTransfer FIFO_STATUS 1 .ReadRegister rxBuffer stack fifo).buffer 0 =
      fifo 1 := by
    change spiRead fifo 1 rxBuffer 0 = fifo 1
    rw [spiRead_eq, if_pos Nat.one_pos]
  unfold loadTxBufferTransfers
  simp only [hstatus]
  exact if_neg (not_not_intro hfifo)

/-- For every access of at most 32 bytes, with a queue that is not full: it does what
    it ought to do exactly if it is one to a register. -/
theorem access_exact_iff (access : RadioAccess) (rxBuffer stack fifo answer : CharBuffer)
    (hlength : access.length ≤ 32) (hfifo : fifo 1 &&& (1#8 <<< 5) = 0#8) :
    ExactOnWire rxBuffer stack fifo answer access ↔ access.IsRegister := by
  cases access with
  | load length payload =>
      have hfits : length + 1 ≤ PackageBufferSize := Nat.succ_le_succ hlength
      refine iff_of_false ?_ not_false
      rintro ⟨status, t, hcall, hwire, -, -⟩
      rw [loadTxBufferTransfers_eq length payload rxBuffer stack answer hfifo] at hcall
      obtain ⟨-, rfl⟩ : _ ∧ tracedTransfer (-1) (length + 1) .WTxPayload payload stack answer = t :=
        List.cons.inj (Prod.mk.inj hcall).2 |>.imp id fun h => (List.cons.inj h).1
      -- One byte more goes out than was asked for.
      have htype : TransferType.WTxPayload ≠ .RRxPayload := by decide
      rw [tracedTransfer_wire htype hfits] at hwire
      have hcount := congrArg List.length hwire
      simp only [List.length_cons, List.length_map, List.length_range] at hcount
      omega
  | readRegister register length buffer =>
      have hfits : length < PackageBufferSize := Nat.lt_succ_of_le hlength
      have htype : TransferType.ReadRegister ≠ .RRxPayload := by decide
      refine iff_of_true ⟨?_, ⟨_, ?_, readRegister_carries register⟩, bufferWrites_eq length,
        fun k => spiRead_eq answer length buffer k, txIndices_inside hfits⟩ trivial
      · rw [tracedTransfer_wire htype (Nat.le_of_lt hfits), List.length_cons, List.length_map,
          List.length_range, Nat.add_comm]
      · rw [tracedTransfer_wire htype (Nat.le_of_lt hfits)]
        rfl
  | writeRegister register length buffer =>
      have hfits : length < PackageBufferSize := Nat.lt_succ_of_le hlength
      have htype : TransferType.WriteRegister ≠ .RRxPayload := by decide
      refine iff_of_true ⟨⟨_, writeRegister_carries register,
        tracedTransfer_wire htype (Nat.le_of_lt hfits)⟩, rfl, fun i hi => ?_,
        txIndices_inside hfits⟩ trivial
      have hreads : i ∈ bufferReads length .WriteRegister := hi
      rw [bufferReads_eq htype, List.mem_range] at hreads
      omega

/-- A radio that answers with zeros: its queue is not full. -/
def zeros : CharBuffer := fun _ => 0#8

theorem access_exact_iff_status :
    ExactOnWire zeros zeros zeros zeros (.readRegister 7#5 1 zeros) :=
  (access_exact_iff (.readRegister 7#5 1 zeros) zeros zeros zeros zeros (by decide)
    (by decide)).mpr trivial

/-- An acknowledgement of one byte goes out with the byte behind it. -/
theorem ack_loaded_long :
    ¬ ExactOnWire zeros zeros zeros zeros (.load 1 fun i => if i = 0 then 0xAC#8 else 0x55#8) := by
  rintro ⟨status, t, hcall, hwire, -, -⟩
  have hwires := congrArg (fun r => r.2.map (·.wire)) hcall
  have htwo : [[0x17#8, 0x00#8], [0xA0#8, 0xAC#8, 0x55#8]] = [status.wire, t.wire] := hwires
  rw [hwire] at htwo
  exact absurd (List.cons.inj (List.cons.inj htwo).2).1 (by decide)

end NextLevelRTOS
