import NextLevelRTOS.Arch.Acknowledge
import NextLevelRTOS.Lib.Bits
import NextLevelRTOS.Lib.Driver

/-!
# The Radio Chip

The radio at the other end of the wire. It has registers, which are read and
written with a command byte in front, a transmit queue and a receive queue of
three places each, and a pin that enables it. The status registers of the
queues are not stored: they are what the queues are when they are read.

By itself it sends what is in front of the transmit queue, when it is powered,
enabled and a transmitter, and takes in what arrives, when it is a receiver. With
automatic acknowledgements a transmission may fail, and nothing is sent after
that until the flag has been cleared.

Which bits of a register exist is left open, except for those of `CONFIG`.

## Main definitions

* `RegisterName`: The registers.
* `Silicon`: The bits that exist.
* `Radio`: The chip, the timer and the buffer of the driver.
* `RadioEvent`, `Radio.move`: What happens by itself.
* `Radio.answer`, `Radio.execute`: What a transfer gets, and what it does.
* `getNrfRegister`, `replaceNrfRegister`, `setBitNrfRegister`,
  `clearBitNrfRegister`: The accesses of the driver.

## Theorems

* `fifoStatus_full`, `fifoStatus_empty`: What the status of the queues says.
* `move_queue`, `move_ce`, `move_register`: What can happen by itself.
* `getRegister_eq`, `putRegister_eq`: What a transfer does to a register.
-/

namespace NextLevelRTOS

open Acknowledge Bits Buffer Polling

/-! ### The registers -/

/-- `Nrf24l01RegisterNames_t` -/
inductive RegisterName where
  | CONFIG
  | EN_AA
  | EN_RXADDR
  | SETUP_AW
  | SETUP_RETR
  | RF_CH
  | RF_SETUP
  | STATUS
  | OBSERVE_TX
  | RPD
  | RX_ADDR_P0
  | RX_ADDR_P1
  | RX_ADDR_P2
  | RX_ADDR_P3
  | RX_ADDR_P4
  | RX_ADDR_P5
  | TX_ADDR
  | RX_PW_P0
  | RX_PW_P1
  | RX_PW_P2
  | RX_PW_P3
  | RX_PW_P4
  | RX_PW_P5
  | FIFO_STATUS
  | DYNDP
  | FEATURE
  deriving DecidableEq, Repr

/-- The number in the command byte. -/
def RegisterName.number : RegisterName → BitVec 5
  | .CONFIG => 0x00#5
  | .EN_AA => 0x01#5
  | .EN_RXADDR => 0x02#5
  | .SETUP_AW => 0x03#5
  | .SETUP_RETR => 0x04#5
  | .RF_CH => 0x05#5
  | .RF_SETUP => 0x06#5
  | .STATUS => 0x07#5
  | .OBSERVE_TX => 0x08#5
  | .RPD => 0x09#5
  | .RX_ADDR_P0 => 0x0A#5
  | .RX_ADDR_P1 => 0x0B#5
  | .RX_ADDR_P2 => 0x0C#5
  | .RX_ADDR_P3 => 0x0D#5
  | .RX_ADDR_P4 => 0x0E#5
  | .RX_ADDR_P5 => 0x0F#5
  | .TX_ADDR => 0x10#5
  | .RX_PW_P0 => 0x11#5
  | .RX_PW_P1 => 0x12#5
  | .RX_PW_P2 => 0x13#5
  | .RX_PW_P3 => 0x14#5
  | .RX_PW_P4 => 0x15#5
  | .RX_PW_P5 => 0x16#5
  | .FIFO_STATUS => 0x17#5
  | .DYNDP => 0x1C#5
  | .FEATURE => 0x1D#5

/-- How many bytes a register has: three of the addresses are long. -/
def registerWidth (number : BitVec 5) : Nat :=
  if number = 0x0A#5 ∨ number = 0x0B#5 ∨ number = 0x10#5 then 5 else 1

/-- `PRIM_RX` -/
def PRIM_RX : Nat := 0

/-- `PWR_UP` -/
def PWR_UP : Nat := 1

/-- The bits that exist in each byte of a register. `CONFIG` has seven. -/
structure Silicon where
  bits : BitVec 5 → Byte
  config : bits RegisterName.CONFIG.number = 0x7F#8

/-- What is in a byte after a write: bits that do not exist stay. -/
def mergeBits (bits old new : Byte) : Byte := (old &&& ~~~bits) ||| (new &&& bits)

/-! ### The chip -/

/-- What arrived, and on which pipe. -/
structure Reception where
  pipe : Fin 6
  bytes : List Byte
  deriving DecidableEq, Repr

/-- A payload has left the transmit queue: it was sent, or it was thrown away. -/
inductive Departure where
  | sent (payload : List Byte)
  | flushed (payload : List Byte)
  deriving DecidableEq, Repr

/-- The payload that has left. -/
def Departure.payload : Departure → List Byte
  | .sent payload => payload
  | .flushed payload => payload

/-- The chip: the registers, the queues, the pin, and whether it is sending; the timer
    that the driver reads, and its `rx_buffer`. `gone` is what has left the transmit
    queue, and `accepted` what `load_tx_buffer` has returned 1 for: both are history. -/
structure Radio where
  registers : BitVec 5 → CharBuffer
  tx : List (List Byte)
  rx : List Reception
  ce : Bool
  sending : Bool
  timer : Word
  rxBuffer : CharBuffer
  gone : List Departure
  accepted : List (List Byte)

/-- What happens by itself. -/
inductive RadioEvent where
  | start
  | finish
  | fail
  | receive (pipe : Fin 6) (bytes : List Byte)
  | sense (register : RegisterName) (value : Byte)
  | tick (n : Word)
  deriving DecidableEq

/-- A configuration in which the chip transmits: powered, and no receiver. -/
def transmits (config : Byte) : Bool := config.getLsbD PWR_UP && !config.getLsbD PRIM_RX

/-- One in which it receives. -/
def receives (config : Byte) : Bool := config.getLsbD PWR_UP && config.getLsbD PRIM_RX

namespace Radio

/-- `CONFIG` -/
def config (s : Radio) : Byte := s.registers RegisterName.CONFIG.number 0

/-- The stored flags of `STATUS`. -/
def flags (s : Radio) : Byte := s.registers RegisterName.STATUS.number 0

/-- No transmission has failed since the flag was cleared. -/
def mayStart (s : Radio) : Bool := s.ce && transmits s.config && !s.flags.getLsbD 4

/-- Flags are raised. -/
def raiseFlag (bit : Nat) (s : Radio) : Radio :=
  let status := Function.update (s.registers RegisterName.STATUS.number) 0
    (s.flags ||| (1#8 <<< bit))
  { s with registers := Function.update s.registers RegisterName.STATUS.number status }

/-- What happens by itself. -/
def move : RadioEvent → Radio → Radio
  | .start, s => if s.mayStart ∧ s.tx ≠ [] then { s with sending := true } else s
  | .finish, s =>
    if s.sending ∧ transmits s.config then
      match s.tx with
      | [] => { s with sending := false }
      | payload :: rest =>
        { s.raiseFlag 5 with tx := rest, gone := s.gone ++ [.sent payload], sending := false }
    else s
  | .fail, s =>
    if s.sending ∧ s.registers RegisterName.EN_AA.number 0 ≠ 0#8 then
      { s.raiseFlag 4 with sending := false }
    else s
  | .receive pipe bytes, s =>
    if s.ce ∧ receives s.config ∧ s.rx.length < 3 then
      { s.raiseFlag 6 with rx := s.rx ++ [⟨pipe, bytes⟩] }
    else s
  | .sense register value, s =>
    if register = .OBSERVE_TX ∨ register = .RPD then
      { s with registers := Function.update s.registers register.number fun _ => value }
    else s
  | .tick n, s => { s with timer := s.timer + n }

/-! ### Transfers -/

/-- `STATUS`, as it is read: the flags, the pipe of what is in front of the receive
    queue, and whether the transmit queue is full. -/
def status (s : Radio) : Byte :=
  (s.flags &&& 0x70#8) |||
    (match s.rx with
    | [] => 7#8 <<< 1
    | front :: _ => BitVec.ofNat 8 front.pipe.val <<< 1) |||
    (if 3 ≤ s.tx.length then 1#8 else 0#8)

/-- `FIFO_STATUS`, as it is read. -/
def fifoStatus (s : Radio) : Byte :=
  (if 3 ≤ s.tx.length then 1#8 <<< 5 else 0#8) ||| (if s.tx = [] then 1#8 <<< 4 else 0#8) |||
    (if 3 ≤ s.rx.length then 1#8 <<< 1 else 0#8) ||| (if s.rx = [] then 1#8 <<< 0 else 0#8)

/-- Byte `t` of a register. -/
def read (number : BitVec 5) (t : Nat) (s : Radio) : Byte :=
  if number = RegisterName.STATUS.number then s.status
  else if number = RegisterName.FIFO_STATUS.number then s.fifoStatus
  else s.registers number t

/-- What comes in while `wire` goes out. -/
def answer (s : Radio) (wire : List Byte) : CharBuffer := fun t =>
  let command := wire.headD 0
  if t = 0 then s.status
  else if command = R_RX_PAYLOAD then
    match s.rx with
    | [] => 0#8
    | front :: _ => front.bytes.getD (t - 1) 0
  else s.read (command.setWidth 5) (t - 1)

/-- A register is written. The flags of `STATUS` are cleared by ones, and a
    transmission is broken off when the chip is a transmitter no more. -/
def write (si : Silicon) (number : BitVec 5) (data : List Byte) (s : Radio) : Radio :=
  let old := s.registers number
  let registers := Function.update s.registers number fun t =>
    if t < data.length ∧ t < registerWidth number then
      if number = RegisterName.STATUS.number then writeOnes (old t) (data.getD t 0 &&& 0x70#8)
      else mergeBits (si.bits number) (old t) (data.getD t 0)
    else old t
  { s with
    registers := registers
    sending := s.sending && transmits (registers RegisterName.CONFIG.number 0) }

/-- A transfer is carried out. A payload has 32 bytes at most, and is lost when the
    transmit queue is full. -/
def execute (si : Silicon) (wire : List Byte) (s : Radio) : Radio :=
  match wire with
  | [] => s
  | command :: data =>
    if command = W_TX_PAYLOAD then
      if s.tx.length < 3 then { s with tx := s.tx ++ [data.take 32] } else s
    else if command = R_RX_PAYLOAD then { s with rx := s.rx.tail }
    else if command = FLUSH_TX then
      { s with tx := [], gone := s.gone ++ s.tx.map .flushed, sending := false }
    else if command = FLUSH_RX then { s with rx := [] }
    else if command >>> 5 = 1#8 then s.write si (command.setWidth 5) data
    else s

/-- `transfer`, with the chip at the other end: the buffer and the chip afterwards. -/
def transfer (si : Silicon) (stack : CharBuffer) (targetRegister : Byte) (length : Nat)
    (transferType : TransferType) (buffer : CharBuffer) (s : Radio) : CharBuffer × Radio :=
  let wire := (NextLevelRTOS.transfer targetRegister length transferType buffer stack stack).1
  ((NextLevelRTOS.transfer targetRegister length transferType buffer stack (s.answer wire)).2,
    s.execute si wire)

/-- The transfer of `get_nrf_register`, into `rx_buffer`. -/
def getRegister (si : Silicon) (stack : CharBuffer) (register : RegisterName) (s : Radio) :
    Byte × Radio :=
  let (rxBuffer, s') := s.transfer si stack (register.number.setWidth 8) 1 .ReadRegister s.rxBuffer
  (rxBuffer 0, { s' with rxBuffer := rxBuffer })

/-- `transfer(reg_type, length, WriteRegister, payload)` -/
def putRegister (si : Silicon) (stack : CharBuffer) (register : RegisterName) (length : Nat)
    (payload : CharBuffer) (s : Radio) : Unit × Radio :=
  ((), (s.transfer si stack (register.number.setWidth 8) length .WriteRegister payload).2)

end Radio

/-! ### Accesses -/

section Accesses

variable (si : Silicon) (stack : CharBuffer)

/-- `get_nrf_register` -/
def Radio.getNrfRegister (register : RegisterName) : Driver RadioEvent Radio Byte :=
  access Radio.move (Radio.getRegister si stack register)

/-- `get_nrf_register_long` -/
def Radio.getNrfRegisterLong (register : RegisterName) (registerLong : CharBuffer) :
    Driver RadioEvent Radio CharBuffer :=
  access Radio.move fun s =>
    s.transfer si stack (register.number.setWidth 8) 5 .ReadRegister registerLong

/-- `set_nrf_register_long` -/
def Radio.setNrfRegisterLong (register : RegisterName) (payload : CharBuffer) :
    Driver RadioEvent Radio Unit :=
  access Radio.move (Radio.putRegister si stack register 5 payload)

/-- `replace_nrf_register` -/
def Radio.replaceNrfRegister (register : RegisterName) (newValue : Byte) :
    Driver RadioEvent Radio Unit :=
  access Radio.move (Radio.putRegister si stack register 1 fun _ => newValue)

/-- `set_bit_nrf_register` -/
def Radio.setBitNrfRegister (register : RegisterName) (bitPosition : Nat) :
    Driver RadioEvent Radio Unit := do
  let currentValue ← getNrfRegister si stack register
  replaceNrfRegister si stack register (currentValue ||| (1#8 <<< bitPosition))

/-- `clear_bit_nrf_register` -/
def Radio.clearBitNrfRegister (register : RegisterName) (bitPosition : Nat) :
    Driver RadioEvent Radio Unit := do
  let currentValue ← getNrfRegister si stack register
  replaceNrfRegister si stack register (currentValue &&& ~~~(1#8 <<< bitPosition))

/-- `set_ce` -/
def setCe : Driver RadioEvent Radio Unit := access Radio.move fun s => ((), { s with ce := true })

/-- `unset_ce` -/
def unsetCe : Driver RadioEvent Radio Unit :=
  access Radio.move fun s => ((), { s with ce := false })

/-- `osCoreFunctions[readTimerFunctionPtr]()` -/
def readTimer : Driver RadioEvent Radio Word := access Radio.move fun s => (s.timer, s)

end Accesses

/-! ### What happens by itself -/

section Move

variable (e : RadioEvent) (s : Radio)

/-- The end of a transmission takes the payload in front out of the transmit queue.
    Nothing else that happens by itself touches it. -/
theorem move_queue : (s.move e).accepted = s.accepted ∧
    ((s.move e).tx = s.tx ∧ (s.move e).gone = s.gone ∨
      e = .finish ∧ s.sending = true ∧ transmits s.config = true ∧
        ∃ payload, s.tx = payload :: (s.move e).tx ∧
          (s.move e).gone = s.gone ++ [.sent payload]) := by
  cases e with
  | finish =>
      rw [Radio.move]
      split
      next hsending =>
        split
        · exact ⟨rfl, Or.inl ⟨rfl, rfl⟩⟩
        next payload rest htx =>
          exact ⟨rfl, Or.inr ⟨rfl, hsending.1, hsending.2, payload, htx, rfl⟩⟩
      · exact ⟨rfl, Or.inl ⟨rfl, rfl⟩⟩
  | start =>
      rw [Radio.move]
      split <;> exact ⟨rfl, Or.inl ⟨rfl, rfl⟩⟩
  | fail =>
      rw [Radio.move]
      split <;> exact ⟨rfl, Or.inl ⟨rfl, rfl⟩⟩
  | receive pipe bytes =>
      rw [Radio.move]
      split <;> exact ⟨rfl, Or.inl ⟨rfl, rfl⟩⟩
  | sense register value =>
      rw [Radio.move]
      split <;> exact ⟨rfl, Or.inl ⟨rfl, rfl⟩⟩
  | tick n => exact ⟨rfl, Or.inl ⟨rfl, rfl⟩⟩

theorem move_ce : (s.move e).ce = s.ce := by
  cases e with
  | finish =>
      simp only [Radio.move]
      split
      · split <;> rfl
      · rfl
  | start =>
      simp only [Radio.move]
      split <;> rfl
  | fail =>
      simp only [Radio.move]
      split <;> rfl
  | receive pipe bytes =>
      simp only [Radio.move]
      split <;> rfl
  | sense register value =>
      simp only [Radio.move]
      split <;> rfl
  | tick n => rfl

/-- Only a receiver takes something in. -/
theorem move_rx : (s.move e).rx = s.rx ∨ receives s.config = true := by
  cases e with
  | receive pipe bytes =>
      rw [Radio.move]
      split
      next hreceives => exact Or.inr hreceives.2.1
      · exact Or.inl rfl
  | finish =>
      rw [Radio.move]
      split
      · split <;> exact Or.inl rfl
      · exact Or.inl rfl
  | start =>
      rw [Radio.move]
      split <;> exact Or.inl rfl
  | fail =>
      rw [Radio.move]
      split <;> exact Or.inl rfl
  | sense register value =>
      rw [Radio.move]
      split <;> exact Or.inl rfl
  | tick n => exact Or.inl rfl

/-- The registers that change by themselves: `STATUS`, and the two in which the chip
    reports what it has noticed. -/
def Spontaneous (number : BitVec 5) : Prop :=
  number = RegisterName.STATUS.number ∨ number = RegisterName.OBSERVE_TX.number ∨
    number = RegisterName.RPD.number

theorem raiseFlag_register {number : BitVec 5} (h : ¬ Spontaneous number) (bit : Nat) :
    (s.raiseFlag bit).registers number = s.registers number :=
  Function.update_of_ne (fun hc => h (Or.inl hc)) _ _

theorem move_register {number : BitVec 5} (h : ¬ Spontaneous number) :
    (s.move e).registers number = s.registers number := by
  cases e with
  | start =>
      simp only [Radio.move]
      split <;> rfl
  | finish =>
      simp only [Radio.move]
      split
      · split
        · rfl
        · exact raiseFlag_register s h 5
      · rfl
  | fail =>
      simp only [Radio.move]
      split
      · exact raiseFlag_register s h 4
      · rfl
  | receive pipe bytes =>
      simp only [Radio.move]
      split
      · exact raiseFlag_register s h 6
      · rfl
  | sense register value =>
      simp only [Radio.move]
      split
      next hsense =>
        refine Function.update_of_ne (fun hc => h ?_) _ _
        rcases hsense with rfl | rfl
        · exact Or.inr (Or.inl hc)
        · exact Or.inr (Or.inr hc)
      · rfl
  | tick n => rfl

end Move

/-! ### What they do -/

section Commands

theorem readCommand_other : ∀ number : BitVec 5,
    0b000#3 ++ number ≠ W_TX_PAYLOAD ∧ 0b000#3 ++ number ≠ R_RX_PAYLOAD ∧
      0b000#3 ++ number ≠ FLUSH_TX ∧ 0b000#3 ++ number ≠ FLUSH_RX ∧
      (0b000#3 ++ number) >>> 5 ≠ 1#8 := by
  decide

theorem writeCommand_other : ∀ number : BitVec 5,
    0b001#3 ++ number ≠ W_TX_PAYLOAD ∧ 0b001#3 ++ number ≠ R_RX_PAYLOAD ∧
      0b001#3 ++ number ≠ FLUSH_TX ∧ 0b001#3 ++ number ≠ FLUSH_RX ∧
      (0b001#3 ++ number) >>> 5 = 1#8 ∧ (0b001#3 ++ number).setWidth 5 = number := by
  decide

variable {si : Silicon} {stack : CharBuffer} {s : Radio}

/-- A register is read without changing anything. -/
theorem execute_read (number : BitVec 5) (data : List Byte) :
    s.execute si ((0b000#3 ++ number) :: data) = s := by
  rcases readCommand_other number with ⟨hload, hreceive, hflushTx, hflushRx, hwrite⟩
  rw [Radio.execute, if_neg hload, if_neg hreceive, if_neg hflushTx, if_neg hflushRx, if_neg hwrite]

theorem execute_write (number : BitVec 5) (data : List Byte) :
    s.execute si ((0b001#3 ++ number) :: data) = s.write si number data := by
  rcases writeCommand_other number with ⟨hload, hreceive, hflushTx, hflushRx, hwrite, hnumber⟩
  rw [Radio.execute, if_neg hload, if_neg hreceive, if_neg hflushTx, if_neg hflushRx, if_pos hwrite,
    hnumber]

/-- What a read of a register brings. -/
theorem answer_read (number : BitVec 5) (data : List Byte) {t : Nat} (ht : t ≠ 0) :
    s.answer ((0b000#3 ++ number) :: data) t = s.read number (t - 1) := by
  rcases readCommand_other number with ⟨_, hreceive, _, _, _⟩
  rw [Radio.answer, if_neg ht, List.headD_cons, if_neg hreceive, opcode_register]

/-- What goes out begins with the command. -/
theorem transfer_head (stack : CharBuffer) (targetRegister : Byte) (length : Nat)
    (transferType : TransferType)
    (buffer : CharBuffer) :
    (NextLevelRTOS.transfer targetRegister length transferType buffer stack stack).1.head? =
      some (configurePackageType targetRegister transferType) := by
  have hwire : (NextLevelRTOS.transfer targetRegister length transferType buffer stack stack).1 =
      spiWrite (fillTxBuffer targetRegister length transferType buffer stack) length := by
    cases transferType <;> rfl
  rw [hwire, spiWrite, loop_collect, List.nil_append, List.range_succ_eq_map, List.map_cons,
    fillTxBuffer_command, List.head?_cons]

/-- A register is read over the wire: as many bytes as were asked for, and nothing
    else happens. -/
theorem transfer_read (register : RegisterName) {length : Nat} (hfits : length ≤ PackageBufferSize)
    (buffer : CharBuffer) :
    s.transfer si stack (register.number.setWidth 8) length .ReadRegister buffer =
      (fun k => if k < length then s.read register.number k else buffer k, s) := by
  have hwire : (NextLevelRTOS.transfer (register.number.setWidth 8) length .ReadRegister buffer
      stack stack).1 = (0b000#3 ++ register.number) :: (List.range length).map buffer := by
    rw [← readRegister_carries register.number]
    exact transfer_wire (by decide) hfits
  rw [Radio.transfer, hwire]
  refine Prod.ext (funext fun k => ?_) (execute_read _ _)
  refine (spiRead_eq _ length buffer k).trans ?_
  rw [answer_read _ _ (Nat.succ_ne_zero k)]
  rfl

/-- A register is written over the wire, with as many bytes as were given. -/
theorem transfer_write (register : RegisterName) {length : Nat}
    (hfits : length ≤ PackageBufferSize) (payload : CharBuffer) :
    (s.transfer si stack (register.number.setWidth 8) length .WriteRegister payload).2 =
      s.write si register.number ((List.range length).map payload) := by
  have hwire : (NextLevelRTOS.transfer (register.number.setWidth 8) length .WriteRegister payload
      stack stack).1 = (0b001#3 ++ register.number) :: (List.range length).map payload := by
    rw [← writeRegister_carries register.number]
    exact transfer_wire (by decide) hfits
  rw [Radio.transfer, hwire]
  exact execute_write _ _

/-- `get_nrf_register` returns the register and changes the buffer only. -/
theorem getRegister_eq (register : RegisterName) :
    s.getRegister si stack register = (s.read register.number 0,
      { s with rxBuffer := Function.update s.rxBuffer 0 (s.read register.number 0) }) := by
  have hbuffer : (fun k => if k < 1 then s.read register.number k else s.rxBuffer k) =
      Function.update s.rxBuffer 0 (s.read register.number 0) := by
    funext k
    by_cases hk : k = 0
    · rw [hk, if_pos Nat.one_pos, Function.update_self]
    · rw [if_neg (by omega), Function.update_of_ne hk]
  rw [Radio.getRegister, transfer_read register (by decide), hbuffer]
  dsimp only
  rw [Function.update_self]

theorem putRegister_eq (register : RegisterName) {length : Nat}
    (hfits : length ≤ PackageBufferSize) (payload : CharBuffer) :
    s.putRegister si stack register length payload =
      ((), s.write si register.number ((List.range length).map payload)) :=
  Prod.ext rfl (transfer_write register hfits payload)

end Commands

section Status

variable {s : Radio}

theorem read_fifoStatus : s.read RegisterName.FIFO_STATUS.number 0 = s.fifoStatus := rfl

/-- The queues are independent of each other in the status. -/
theorem fifoStatus_full : s.fifoStatus &&& (1#8 <<< 5) ≠ 0#8 ↔ 3 ≤ s.tx.length := by
  by_cases h : 3 ≤ s.tx.length
  · refine iff_of_true ?_ h
    rw [Radio.fifoStatus, if_pos h]
    split <;> split <;> split <;> decide
  · refine iff_of_false (not_not_intro ?_) h
    rw [Radio.fifoStatus, if_neg h]
    split <;> split <;> split <;> rfl

theorem fifoStatus_empty : s.fifoStatus &&& (1#8 <<< 4) ≠ 0#8 ↔ s.tx = [] := by
  by_cases h : s.tx = []
  · refine iff_of_true ?_ h
    rw [Radio.fifoStatus, if_pos h]
    split <;> split <;> split <;> decide
  · refine iff_of_false (not_not_intro ?_) h
    rw [Radio.fifoStatus, if_neg h]
    split <;> split <;> split <;> rfl

theorem pipe_bits : ∀ pipe : Fin 6, (BitVec.ofNat 8 pipe.val <<< 1).getLsbD 4 = false := by
  decide

/-- The flag of a failed transmission is read as it is. -/
theorem status_failed : s.status &&& (1#8 <<< 4) ≠ 0#8 ↔ s.flags.getLsbD 4 = true := by
  have hpipe : (match s.rx with
      | [] => 7#8 <<< 1
      | front :: _ => BitVec.ofNat 8 front.pipe.val <<< 1).getLsbD 4 = false := by
    split
    · rfl
    · exact pipe_bits _
  have hfull : (if 3 ≤ s.tx.length then 1#8 else 0#8).getLsbD 4 = false := by
    split <;> rfl
  rw [test_iff _ (by decide), Radio.status, BitVec.getLsbD_or, BitVec.getLsbD_or, hpipe, hfull,
    BitVec.getLsbD_and, Bool.or_false, Bool.or_false, show (0x70#8).getLsbD 4 = true by rfl,
    Bool.and_true]

end Status

end NextLevelRTOS
