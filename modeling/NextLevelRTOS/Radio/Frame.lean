import NextLevelRTOS.Lib.Buffer
import NextLevelRTOS.Memory.Entry

/-!
# Radio Frames

What travels between a sender and a receiver of the radio. The sender's
`transmit_with_autoack` feeds the 27 bytes of the payload to the CRC unit and
puts the result behind them, the high byte first. The receiver's
`rx_receive_isr` feeds the first 27 bytes it got to its own unit, copies the
next four into a word, reverses its bytes with shifts and masks, and compares.

In between are two passes through the SPI layer. `spi_write` puts a command
byte in front; `spi_read` drops the answer to its command byte and stores the
others one place lower. The sender hands one byte more to the radio than a
frame has, and the receiver's radio is set up for 31 bytes.

The CRC unit is whatever function of the words fed since the last reset it
computes. The radio is a queue of packets, each with the pipe it came in on:
a packet is what was written behind the command byte, and it is answered with
behind the status byte.

## Main definitions

* `CrcUnit`: The words fed since the last reset.
* `transfer`: A transfer of the SPI layer.
* `buildFrame`: The frame of `transmit_with_autoack`.
* `checkForReceivedData`: A packet is read from the radio.
* `rxReceiveIsr`: The receiver's interrupt.

## Theorems

* `buildFrame_eq`: Where the bytes of a frame are.
* `reverseByteOrder_eq`: Shifts and masks reverse the bytes.
* `checkForReceivedData_eq`: A packet arrives unmodified.
* `frame_agreement`: Sender and receiver agree on the frame.
-/

namespace NextLevelRTOS

open Buffer

section Crc

/-- The CRC unit remembers what it was fed since the last reset. -/
structure CrcUnit where
  fed : List Word
  deriving DecidableEq, Repr

/-- `crc_reset` -/
def crcReset (_ : CrcUnit) : CrcUnit := { fed := [] }

/-- `crc_feed` -/
def crcFeed (value : Word) (u : CrcUnit) : CrcUnit := { fed := u.fed ++ [value] }

/-- `crc_read`, for a unit that computes `f`. -/
def crcRead (f : List Word → Word) (u : CrcUnit) : Word := f u.fed

/-- `crc_reset`, then `crc_feed((unsigned int) buffer[i])` for 27 bytes. -/
def crcFeedPayload (buffer : CharBuffer) (u : CrcUnit) : CrcUnit :=
  loop (fun i u => crcFeed ((buffer i).setWidth 32) u) 27 (crcReset u)

/-- The words of a payload. -/
def payloadWords (buffer : CharBuffer) : List Word :=
  (List.range 27).map fun i => (buffer i).setWidth 32

theorem crcFeedPayload_fed (buffer : CharBuffer) (u : CrcUnit) :
    (crcFeedPayload buffer u).fed = payloadWords buffer := by
  have hloop : ∀ n, (loop (fun i u => crcFeed ((buffer i).setWidth 32) u) n (crcReset u)).fed =
      loop (fun i l => l ++ [(buffer i).setWidth 32]) n [] := by
    intro n
    induction n with
    | zero => rfl
    | succ n ih => rw [loop, loop, crcFeed, ih]
  rw [crcFeedPayload, hloop, loop_collect, List.nil_append, payloadWords]

end Crc

section Spi

/-- `TransferType_t` -/
inductive TransferType where
  | ReadRegister
  | WriteRegister
  | RRxPayload
  | WTxPayload
  | FlushTX
  | FlushRX
  deriving DecidableEq, Repr

/-- `R_RX_PAYLOAD` -/
def R_RX_PAYLOAD : Byte := 0x61#8

/-- `W_TX_PAYLOAD` -/
def W_TX_PAYLOAD : Byte := 0xA0#8

/-- `FLUSH_TX` -/
def FLUSH_TX : Byte := 0xE1#8

/-- `FLUSH_RX` -/
def FLUSH_RX : Byte := 0xE2#8

/-- `PackageBufferSize` -/
def PackageBufferSize : Nat := 33

/-- The command byte that `configure_package_type` writes. -/
def configurePackageType (targetRegister : Byte) : TransferType → Byte
  | .ReadRegister => targetRegister &&& ~~~(0b111#8 <<< 5)
  | .WriteRegister => ((1#8 <<< 5) ||| targetRegister) &&& ~~~(0b11#8 <<< 6)
  | .RRxPayload => R_RX_PAYLOAD
  | .WTxPayload => W_TX_PAYLOAD
  | .FlushTX => FLUSH_TX
  | .FlushRX => FLUSH_RX

/-- `tx_buffer` as `transfer` fills it, in memory that held `stack`. -/
def fillTxBuffer (targetRegister : Byte) (length : Nat) (transferType : TransferType)
    (buffer stack : CharBuffer) : CharBuffer :=
  loop (fun i b => Function.update b (1 + i)
      (if transferType ≠ .RRxPayload then buffer i else 0))
    (min length PackageBufferSize)
    (Function.update stack 0 (configurePackageType targetRegister transferType))

/-- `spi_write`: the bytes that go out. -/
def spiWrite (data : CharBuffer) (length : Nat) : List Byte :=
  loop (fun t out => out ++ [data t]) (length + 1) []

/-- `spi_read`, with `answer t` what comes in while byte `t` goes out. -/
def spiRead (answer : CharBuffer) (length : Nat) (receiveBuffer : CharBuffer) : CharBuffer :=
  loop (fun t b => if t ≠ 0 then Function.update b (t - 1) (answer t) else b) (length + 1)
    receiveBuffer

/-- `transfer`: the bytes that go out and the buffer afterwards. -/
def transfer (targetRegister : Byte) (length : Nat) (transferType : TransferType)
    (buffer stack answer : CharBuffer) : List Byte × CharBuffer :=
  let txBuffer := fillTxBuffer targetRegister length transferType buffer stack
  match transferType with
  | .WTxPayload | .WriteRegister | .FlushTX | .FlushRX => (spiWrite txBuffer length, buffer)
  | .ReadRegister | .RRxPayload => (spiWrite txBuffer length, spiRead answer length buffer)

/-- Of what comes in, the first byte is dropped and the others move one place
    down. -/
theorem spiRead_eq (answer : CharBuffer) (length : Nat) (b : CharBuffer) (k : Nat) :
    spiRead answer length b k = if k < length then answer (k + 1) else b k := by
  unfold spiRead
  induction length with
  | zero => rw [loop, if_neg (by omega), loop, if_neg (Nat.not_lt_zero k)]
  | succ n ih =>
      rw [loop, if_pos (Nat.succ_ne_zero n), Nat.add_sub_cancel]
      by_cases hk : k = n
      · rw [hk, Function.update_self, if_pos (Nat.lt_succ_self n)]
      · rw [Function.update_of_ne hk, ih]
        by_cases hlt : k < n
        · rw [if_pos hlt, if_pos (by omega)]
        · rw [if_neg hlt, if_neg (by omega)]

end Spi

section Sender

/-- The frame of `transmit_with_autoack`: the CRC goes into the buffer behind
    the payload, its high byte first. -/
def buildFrame (f : List Word → Word) (u : CrcUnit) (outBuffer : CharBuffer) : CharBuffer :=
  let crc := crcRead f (crcFeedPayload outBuffer u)
  loop (fun i b => Function.update b (27 + i) (byteOf crc (4 - 1 - i))) 4 outBuffer

/-- `load_tx_buffer`, as long as the radio's queue is not full: the bytes that
    go out. -/
def loadTxBuffer (length : Nat) (payload stack : CharBuffer) : List Byte :=
  (transfer (-1) (length + 1) .WTxPayload payload stack stack).1

/-- The payload is in front, the CRC in the four bytes behind it. -/
theorem buildFrame_eq (f : List Word → Word) (u : CrcUnit) (outBuffer : CharBuffer) :
    (∀ i < 27, buildFrame f u outBuffer i = outBuffer i) ∧
      ∀ i < 4, buildFrame f u outBuffer (27 + i) = byteOf (f (payloadWords outBuffer)) (3 - i) := by
  unfold buildFrame crcRead
  rw [crcFeedPayload_fed]
  refine ⟨fun i hi => ?_, fun i hi => ?_⟩
  · rw [loop_fill, if_neg (by omega)]
  · rw [loop_fill, if_pos (by omega), Nat.add_sub_cancel_left]

/-- The radio gets a command byte and then one byte more than was asked for. -/
theorem loadTxBuffer_getD (length : Nat) (payload stack : CharBuffer) {i : Nat}
    (hlength : length < PackageBufferSize) (hi : i < length + 1) :
    (loadTxBuffer length payload stack).getD (i + 1) 0 = payload i := by
  have hwire : loadTxBuffer length payload stack = (List.range (length + 1 + 1)).map
      (fillTxBuffer (-1) (length + 1) .WTxPayload payload stack) := by
    rw [loadTxBuffer, transfer, spiWrite, loop_collect, List.nil_append]
  have hfill : fillTxBuffer (-1) (length + 1) .WTxPayload payload stack (i + 1) = payload i := by
    unfold PackageBufferSize at hlength
    rw [fillTxBuffer, loop_fill, if_pos (by unfold PackageBufferSize; omega),
      Nat.add_sub_cancel]
    exact if_pos (by decide)
  rw [hwire, List.getD_eq_getElem?_getD, List.getElem?_map, List.getElem?_range (by omega)]
  exact hfill

end Sender

section Receiver

/-- A packet in the radio's receive queue: the pipe it came in on, the other
    bits of the status register while it is in front, and its bytes. -/
structure Packet where
  pipe : Fin 6
  flags : Byte
  payload : CharBuffer

/-- `get_nrf_status`: the pipe of the packet in front is in bits 3 to 1. -/
def Packet.status (p : Packet) : Byte :=
  (p.flags &&& 0xF1#8) ||| (BitVec.ofNat 8 p.pipe.val <<< 1)

/-- What the radio answers while a packet is read. -/
def Packet.answer (p : Packet) : CharBuffer :=
  fun t => if t = 0 then p.status else p.payload (t - 1)

/-- The packet that the bytes `wire` become on pipe zero of another radio: the
    command byte stays behind. -/
def deliver (flags : Byte) (wire : List Byte) : Packet :=
  { pipe := 0, flags := flags, payload := fun i => wire.getD (i + 1) 0 }

/-- `Nrf24l01Registers_t`, the payload widths. -/
structure Nrf24l01Registers where
  rxPwP0 : Byte
  rxPwP1 : Byte
  rxPwP2 : Byte
  rxPwP3 : Byte
  rxPwP4 : Byte
  rxPwP5 : Byte
  deriving DecidableEq, Repr

/-- `nrf_startup_config`, as the receiver's `apply_nrf_config` fills it. -/
def nrfStartupConfig : Nrf24l01Registers :=
  { rxPwP0 := 31, rxPwP1 := 6, rxPwP2 := 0, rxPwP3 := 0, rxPwP4 := 0, rxPwP5 := 0 }

/-- The `switch` over the pipe. -/
def Nrf24l01Registers.rxPw (config : Nrf24l01Registers) (pipe : Nat) : Byte :=
  match pipe with
  | 0 => config.rxPwP0
  | 1 => config.rxPwP1
  | 2 => config.rxPwP2
  | 3 => config.rxPwP3
  | 4 => config.rxPwP4
  | _ => config.rxPwP5

/-- `nrf_receive_payload` -/
def nrfReceivePayload (payloadLength : Byte) (answer buffer : CharBuffer) : CharBuffer :=
  (transfer (-1) payloadLength.toNat .RRxPayload buffer buffer answer).2

/-- `check_for_received_data`: whether there was a packet, and the buffer. -/
def checkForReceivedData (config : Nrf24l01Registers) (p : Packet) (responseBuffer : CharBuffer) :
    Bool × CharBuffer :=
  let pipe := ((p.status >>> 1) &&& 7#8).toNat
  if pipe ≤ 5 then (true, nrfReceivePayload (config.rxPw pipe) p.answer responseBuffer)
  else (false, responseBuffer)

/-- `reverse_byte_order` -/
def reverseByteOrder (num : Word) : Word :=
  ((num >>> 24) &&& 0x000000FF#32) ||| ((num >>> 8) &&& 0x0000FF00#32) |||
    ((num <<< 8) &&& 0x00FF0000#32) ||| ((num <<< 24) &&& 0xFF000000#32)

/-- `memcpy_custom` into a buffer, from `offset` on. -/
def memcpyCustom (dest src : CharBuffer) (offset n : Nat) : CharBuffer :=
  loop (fun i b => Function.update b (0 + i) (src (offset + i))) n dest

/-- The CRC that a frame carries: four bytes are copied into a word that was
    zero, and the word is reversed. -/
def receivedCrc (rxAnswer : CharBuffer) : Word :=
  reverseByteOrder (wordOf (memcpyCustom (byteOf 0) rxAnswer 27 4))

/-- The receiver, as far as its interrupt reads and writes it. `txFifo` counts
    the acknowledgements in the radio's transmit queue and `acks` those it has
    sent. `accepted` is history: the payloads whose CRC matched. -/
structure Receiver where
  rxAnswer : CharBuffer
  crcUnit : CrcUnit
  ackPackagePreloaded : Bool
  uartOutputIsEnabled : Byte
  timeToSettle : Word
  timeToSendAck : Word
  lastReceivedCRC : Word
  txFifo : Nat
  acks : Nat
  printed : List (List Byte)
  accepted : List (List Byte)

/-- `load_tx_buffer(1, &ack)`: the transmit queue has three places. -/
def Receiver.loadAck (r : Receiver) : Receiver :=
  if r.txFifo < 3 then { r with txFifo := r.txFifo + 1 } else r

/-- `transmit_all_packages` -/
def Receiver.transmitAllPackages (r : Receiver) : Receiver :=
  { r with txFifo := 0, acks := r.acks + r.txFifo }

/-- `if (!ackPackagePreloaded)` -/
def Receiver.preloadAck (r : Receiver) : Receiver :=
  if r.ackPackagePreloaded then r else { r.loadAck with ackPackagePreloaded := true }

/-- `RxConfig_t`, read from the front of the frame. -/
def Receiver.applyConfig (r : Receiver) : Receiver :=
  if wordOf r.rxAnswer = 0x12345678#32 then
    { r with
      uartOutputIsEnabled := r.rxAnswer 4
      timeToSettle := wordOf fun i => r.rxAnswer (8 + i)
      timeToSendAck := wordOf fun i => r.rxAnswer (12 + i) }
  else r

/-- `print(rx_answer, 27)` -/
def Receiver.print (r : Receiver) : Receiver :=
  if r.uartOutputIsEnabled = 0 then r
  else { r with printed := r.printed ++ [(List.range 27).map r.rxAnswer] }

/-- What `rx_receive_isr` does with a frame whose CRC matches. -/
def Receiver.acceptFrame (crc : Word) (r : Receiver) : Receiver :=
  let r := { r with accepted := r.accepted ++ [(List.range 27).map r.rxAnswer] }
  let r := r.preloadAck.transmitAllPackages
  let r := { r with crcUnit := crcReset r.crcUnit, ackPackagePreloaded := false }
  { r.applyConfig.print with lastReceivedCRC := crc }

/-- The comparison of `rx_receive_isr`, on what has been read. -/
def Receiver.checkFrame (f : List Word → Word) (r : Receiver) : Receiver :=
  let r := { r with crcUnit := crcFeedPayload r.rxAnswer r.crcUnit }
  let crcExpected := crcRead f r.crcUnit
  let crc := receivedCrc r.rxAnswer
  if crc = crcExpected then r.acceptFrame crc else r

/-- The loop of `rx_receive_isr`, over the packets it finds. -/
def rxLoop (f : List Word → Word) : List Packet → Receiver → Receiver
  | [], r => r
  | p :: ps, r =>
    let (ret, rxAnswer) := checkForReceivedData nrfStartupConfig p r.rxAnswer
    if ret then rxLoop f ps ({ r with rxAnswer := rxAnswer }.checkFrame f) else r

/-- `rx_receive_isr` -/
def rxReceiveIsr (f : List Word → Word) (packets : List Packet) (r : Receiver) : Receiver :=
  rxLoop f packets
    { r with rxAnswer := loop (fun i b => Function.update b (0 + i) 0) 33 r.rxAnswer }

end Receiver

section Agreement

/-- Shifts and masks reverse the four bytes. -/
theorem reverseByteOrder_eq (b : CharBuffer) :
    reverseByteOrder (wordOf b) = wordOf fun i => b (3 - i) := by
  unfold reverseByteOrder wordOf
  apply BitVec.eq_of_getLsbD_eq
  intro i hi
  simp only [BitVec.getLsbD_or, BitVec.getLsbD_and, BitVec.getLsbD_ushiftRight,
    BitVec.getLsbD_shiftLeft, BitVec.getLsbD_append]
  interval_cases i <;> simp

/-- The CRC a frame carries is written with its high byte first. -/
theorem receivedCrc_eq_iff (b : CharBuffer) (crc : Word) :
    receivedCrc b = crc ↔ ∀ i < 4, b (27 + i) = byteOf crc (3 - i) := by
  have hcopy : ∀ i < 4, memcpyCustom (byteOf 0) b 27 4 i = b (27 + i) := by
    intro i hi
    rw [memcpyCustom, loop_fill, if_pos (by omega), Nat.sub_zero]
  rw [receivedCrc, reverseByteOrder_eq, ← wordOf_byteOf crc, wordOf_inj]
  constructor
  · intro h i hi
    have hbyte := h (3 - i) (by omega)
    rw [hcopy _ (by omega), show 3 - (3 - i) = i by omega] at hbyte
    rw [hbyte, wordOf_byteOf]
  · intro h i hi
    rw [hcopy _ (by omega), h _ (by omega), wordOf_byteOf, show 3 - (3 - i) = i by omega]

/-- The driver reads the pipe of the packet in front, whatever else is in the
    status register. -/
theorem status_pipe (p : Packet) : ((p.status >>> 1) &&& 7#8).toNat = p.pipe.val := by
  rcases p with ⟨pipe, flags, payload⟩
  have hbits : ((flags &&& 0xF1#8) ||| (BitVec.ofNat 8 pipe.val <<< 1)) >>> 1 &&& 7#8 =
      BitVec.ofNat 8 pipe.val := by
    rcases pipe with ⟨n, hn⟩
    apply BitVec.eq_of_getLsbD_eq
    intro i hi
    interval_cases n <;> interval_cases i <;> simp
  have hpipe := pipe.isLt
  rw [Packet.status, hbits, BitVec.toNat_ofNat]
  exact Nat.mod_eq_of_lt (by omega)

/-- A packet on pipe zero arrives unmodified: its first 31 bytes are stored
    from the front of the buffer on. -/
theorem checkForReceivedData_eq {p : Packet} (hpipe : p.pipe = 0) (b : CharBuffer) :
    checkForReceivedData nrfStartupConfig p b =
      (true, fun k => if k < 31 then p.payload k else b k) := by
  have hzero : ((p.status >>> 1) &&& 7#8).toNat = 0 := by
    rw [status_pipe, hpipe]
    rfl
  unfold checkForReceivedData
  simp only [hzero, Nat.zero_le, if_true, Prod.mk.injEq, true_and]
  funext k
  change spiRead p.answer 31 b k = _
  rw [spiRead_eq]
  rfl

/-- A frame whose bytes 27 to 30 are the CRC of its first 27, the high byte
    first. -/
def Matches (f : List Word → Word) (frame : CharBuffer) : Prop :=
  ∀ i < 4, frame (27 + i) = byteOf (f (payloadWords frame)) (3 - i)

instance (f : List Word → Word) (frame : CharBuffer) : Decidable (Matches f frame) :=
  inferInstanceAs (Decidable (∀ i < 4, _))

theorem payloadWords_congr {b c : CharBuffer} (h : ∀ i < 27, b i = c i) :
    payloadWords b = payloadWords c := by
  refine List.map_congr_left fun i hi => ?_
  rw [h i (List.mem_range.mp hi)]

theorem matches_congr (f : List Word → Word) {b c : CharBuffer} (h : ∀ i < 31, b i = c i) :
    Matches f b ↔ Matches f c := by
  have hwords := payloadWords_congr fun i hi => h i (show i < 31 by omega)
  unfold Matches
  rw [hwords]
  refine forall_congr' fun i => ⟨fun hb hi => ?_, fun hc hi => ?_⟩
  · rw [← h _ (by omega)]
    exact hb hi
  · rw [h _ (by omega)]
    exact hc hi

/-- What is done for an accepted frame leaves the bytes read and the history. -/
theorem acceptFrame_history (crc : Word) (r : Receiver) :
    (r.acceptFrame crc).rxAnswer = r.rxAnswer ∧
      (r.acceptFrame crc).accepted = r.accepted ++ [(List.range 27).map r.rxAnswer] := by
  -- What the interrupt does with a frame it has accepted touches neither of the two.
  have hprint : ∀ r : Receiver, r.print.rxAnswer = r.rxAnswer ∧ r.print.accepted = r.accepted := by
    intro r
    unfold Receiver.print
    by_cases h : r.uartOutputIsEnabled = 0
    · rw [if_pos h]
      exact ⟨rfl, rfl⟩
    · rw [if_neg h]
      exact ⟨rfl, rfl⟩
  have hconfig : ∀ r : Receiver, r.applyConfig.rxAnswer = r.rxAnswer ∧
      r.applyConfig.accepted = r.accepted := by
    intro r
    unfold Receiver.applyConfig
    by_cases h : wordOf r.rxAnswer = 0x12345678#32
    · rw [if_pos h]
      exact ⟨rfl, rfl⟩
    · rw [if_neg h]
      exact ⟨rfl, rfl⟩
  have hload : ∀ r : Receiver, r.preloadAck.rxAnswer = r.rxAnswer ∧
      r.preloadAck.accepted = r.accepted := by
    intro r
    unfold Receiver.preloadAck Receiver.loadAck
    by_cases h : r.ackPackagePreloaded = true
    · rw [if_pos h]
      exact ⟨rfl, rfl⟩
    · rw [if_neg h]
      by_cases hfull : r.txFifo < 3
      · rw [if_pos hfull]
        exact ⟨rfl, rfl⟩
      · rw [if_neg hfull]
        exact ⟨rfl, rfl⟩
  unfold Receiver.acceptFrame
  simp only [(hprint _).1, (hprint _).2, (hconfig _).1, (hconfig _).2,
    Receiver.transmitAllPackages, (hload _).1, (hload _).2, and_self]

/-- The comparison accepts what is in the buffer exactly if it matches. -/
theorem checkFrame_history (f : List Word → Word) (r : Receiver) :
    (r.checkFrame f).rxAnswer = r.rxAnswer ∧ (r.checkFrame f).accepted =
      if Matches f r.rxAnswer then r.accepted ++ [(List.range 27).map r.rxAnswer]
      else r.accepted := by
  have hiff : receivedCrc r.rxAnswer = crcRead f (crcFeedPayload r.rxAnswer r.crcUnit) ↔
      Matches f r.rxAnswer := by
    rw [crcRead, crcFeedPayload_fed, receivedCrc_eq_iff]
    rfl
  unfold Receiver.checkFrame
  by_cases hm : Matches f r.rxAnswer
  · simp only [if_pos (hiff.mpr hm), if_pos hm]
    exact acceptFrame_history ..
  · simp only [if_neg (mt hiff.mp hm), if_neg hm, and_self]

/-- One round of the loop over the packets. -/
theorem rxLoop_cons (f : List Word → Word) {p : Packet} (hpipe : p.pipe = 0) (ps : List Packet)
    (r : Receiver) : ∃ r', rxLoop f (p :: ps) r = rxLoop f ps r' ∧
      (∀ i < 31, r'.rxAnswer i = p.payload i) ∧ r'.accepted =
        if Matches f p.payload then r.accepted ++ [(List.range 27).map p.payload]
        else r.accepted := by
  -- 31 of the 33 bytes of the buffer come from the packet.
  have hread : ∀ i < 31, (fun k => if k < 31 then p.payload k else r.rxAnswer k) i =
      p.payload i := fun i hi => if_pos hi
  refine ⟨({ r with rxAnswer := fun k => if k < 31 then p.payload k else r.rxAnswer k } :
    Receiver).checkFrame f, ?_, ?_, ?_⟩
  · rw [rxLoop, checkForReceivedData_eq hpipe]
    rfl
  · rw [(checkFrame_history f _).1]
    exact hread
  · have hpayload : (List.range 27).map (fun k => if k < 31 then p.payload k else r.rxAnswer k) =
        (List.range 27).map p.payload := by
      refine List.map_congr_left fun i hi => if_pos ?_
      have hlt := List.mem_range.mp hi
      omega
    rw [(checkFrame_history f _).2]
    simp only [matches_congr f hread, hpayload]

/-- The interrupt finds a single packet. -/
theorem rxReceiveIsr_single (f : List Word → Word) {p : Packet} (hpipe : p.pipe = 0)
    (r : Receiver) : (∀ i < 31, (rxReceiveIsr f [p] r).rxAnswer i = p.payload i) ∧
      (rxReceiveIsr f [p] r).accepted =
        if Matches f p.payload then r.accepted ++ [(List.range 27).map p.payload]
        else r.accepted := by
  rcases rxLoop_cons f hpipe []
    { r with rxAnswer := loop (fun i b => Function.update b (0 + i) 0) 33 r.rxAnswer }
    with ⟨r', hloop, hread, hacc⟩
  rw [rxReceiveIsr, hloop]
  exact ⟨hread, hacc⟩

/-- The radio gets the frame, one byte more, and the command byte, which stays
    behind. -/
theorem deliver_payload (flags : Byte) (frame stack : CharBuffer) {i : Nat} (hi : i < 31) :
    (deliver flags (loadTxBuffer 31 frame stack)).payload i = frame i := by
  have hlength : 31 < PackageBufferSize := by decide
  have hget := loadTxBuffer_getD 31 frame stack hlength (Nat.lt_succ_of_lt hi)
  generalize loadTxBuffer 31 frame stack = wire at hget ⊢
  exact hget

/-- Whatever the CRC unit computes: a frame built by `transmit_with_autoack`
    and delivered through the SPI layers of both sides is accepted by the
    receiver's interrupt, with the payload it was built from; and the
    interrupt accepts a frame of 31 bytes if and only if bytes 27 to 30 are the
    CRC of the first 27 with the high byte first. -/
theorem frame_agreement (f : List Word → Word) :
    (∀ (u : CrcUnit) (outBuffer stack : CharBuffer) (flags : Byte) (r : Receiver),
      let wire := loadTxBuffer 31 (buildFrame f u outBuffer) stack
      let r' := rxReceiveIsr f [deliver flags wire] r
      (∀ i < 31, r'.rxAnswer i = buildFrame f u outBuffer i) ∧
        (∀ i < 27, r'.rxAnswer i = outBuffer i) ∧
        r'.accepted = r.accepted ++ [(List.range 27).map outBuffer]) ∧
    ∀ (flags : Byte) (frame : CharBuffer) (r : Receiver),
      (rxReceiveIsr f [⟨0, flags, frame⟩] r).accepted =
        if ∀ i < 4, frame (27 + i) = byteOf (f (payloadWords frame)) (3 - i) then
          r.accepted ++ [(List.range 27).map frame]
        else r.accepted := by
  refine ⟨fun u outBuffer stack flags r => ?_, fun flags frame r => ?_⟩
  · intro wire r'
    rcases buildFrame_eq f u outBuffer with ⟨hpayload, hcrc⟩
    rcases rxReceiveIsr_single f (p := deliver flags wire) rfl r with ⟨hread, hacc⟩
    have hwire : ∀ i < 31, (deliver flags wire).payload i = buildFrame f u outBuffer i :=
      fun i hi => deliver_payload flags _ stack hi
    -- The receiver computes its sum from the words the sender computed its own from.
    have hmatch : Matches f (deliver flags wire).payload := by
      rw [matches_congr f hwire, Matches, payloadWords_congr hpayload]
      exact hcrc
    have hbytes : ∀ i < 27, (deliver flags wire).payload i = outBuffer i :=
      fun i hi => (hwire i (by omega)).trans (hpayload i hi)
    refine ⟨fun i hi => (hread i hi).trans (hwire i hi),
      fun i hi => (hread i (by omega)).trans (hbytes i hi), ?_⟩
    rw [hacc, if_pos hmatch]
    refine congrArg (fun l => r.accepted ++ [l]) (List.map_congr_left fun i hi => ?_)
    exact hbytes i (List.mem_range.mp hi)
  · exact (rxReceiveIsr_single f (p := ⟨0, flags, frame⟩) rfl r).2

end Agreement

end NextLevelRTOS
