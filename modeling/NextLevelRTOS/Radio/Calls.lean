import NextLevelRTOS.Radio.Chip

/-!
# The Driver of the Radio

The functions of the driver, over the accesses of the chip: what is loaded into the
transmit queue and sent, what is received, and how the chip is configured and
switched between the two directions. Between any two accesses the chip goes on by
itself.

`timeToSettle` is a variable that the receiver sets and the sender reads. It is a
parameter here, as is what lies on the stack.

## Main definitions

* `loadTxBuffer`, `transmitSinglePackage`, `transmitAllPackages`: The transmit queue.
* `enableRxAndListen`, `disableRx`: The two directions.
* `configureDevice`, `getNrfConfig`: The registers as a whole.
* `RadioCall`, `session`: Any number of calls.
* `Steady`: A property that the chip keeps by itself.
* `Calm`: One that most calls keep.

## Theorems

* `maintains_get`, `maintains_put`: What single accesses keep.
* `maintains_setBit`, `maintains_clearBit`, `maintains_checkTx`,
  `maintains_readFields`: What the functions keep that are made of them.
* `maintains_calm`: What the calls keep that configure and load nothing.
-/

namespace NextLevelRTOS

open Polling

/-- `OperatingMode_t` -/
inductive OperatingMode where
  | SLAVE
  | MASTER
  deriving DecidableEq, Repr

/-- `Nrf24l01Registers_t`: a field for each register. -/
abbrev RegisterFile := RegisterName → CharBuffer

/-- The order of the fields. -/
def registerNames : List RegisterName :=
  [.CONFIG, .EN_AA, .EN_RXADDR, .SETUP_AW, .SETUP_RETR, .RF_CH, .RF_SETUP, .STATUS, .OBSERVE_TX,
    .RPD, .RX_ADDR_P0, .RX_ADDR_P1, .RX_ADDR_P2, .RX_ADDR_P3, .RX_ADDR_P4, .RX_ADDR_P5, .TX_ADDR,
    .RX_PW_P0, .RX_PW_P1, .RX_PW_P2, .RX_PW_P3, .RX_PW_P4, .RX_PW_P5, .FIFO_STATUS, .DYNDP,
    .FEATURE]

/-- The payload that `load_tx_buffer` hands to the chip: one byte more than it was
    asked for, if there is room for it. -/
def loadedPayload (length : Nat) (payload : CharBuffer) : List Byte :=
  (List.range (min 32 (length + 1))).map payload

namespace Radio

section Functions

variable (si : Silicon) (stack : CharBuffer) (timeToSettle : Word)

/-- `nrf_power_off` -/
def nrfPowerOff : Driver RadioEvent Radio Unit := clearBitNrfRegister si stack .CONFIG 1

/-- `nrf_power_on` -/
def nrfPowerOn : Driver RadioEvent Radio Unit := setBitNrfRegister si stack .CONFIG 1

/-- `clear_ir_maxrt_flag` -/
def clearIrMaxrtFlag : Driver RadioEvent Radio Unit := setBitNrfRegister si stack .STATUS 4

/-- `clear_tx_ds_flag` -/
def clearTxDsFlag : Driver RadioEvent Radio Unit := setBitNrfRegister si stack .STATUS 5

/-- `clear_rx_dr_flag` -/
def clearRxDrFlag : Driver RadioEvent Radio Unit := setBitNrfRegister si stack .STATUS 6

/-- `enable_crc` -/
def enableCrc : Driver RadioEvent Radio Nat := do
  setBitNrfRegister si stack .CONFIG 3
  let config ← getNrfRegister si stack .CONFIG
  pure (if config &&& (1#8 <<< 3) ≠ 0#8 then 1 else 0)

/-- `disable_crc` -/
def disableCrc : Driver RadioEvent Radio Nat := do
  clearBitNrfRegister si stack .CONFIG 3
  let config ← getNrfRegister si stack .CONFIG
  pure (if config &&& (1#8 <<< 3) = 0#8 then 1 else 0)

/-- `start_listening` -/
def startListening : Driver RadioEvent Radio Unit := setCe

/-- `stop_listening` -/
def stopListening : Driver RadioEvent Radio Unit := unsetCe

/-- `nrf_flush_rx` -/
def nrfFlushRx : Driver RadioEvent Radio Unit :=
  access move fun s => ((), (s.transfer si stack (-1) 0 .FlushRX fun _ => 0).2)

/-- `nrf_flush_tx` -/
def nrfFlushTx : Driver RadioEvent Radio Unit :=
  access move fun s => ((), (s.transfer si stack (-1) 0 .FlushTX fun _ => 0).2)

/-- `nrf_receive_payload` -/
def nrfReceivePayload (payloadLength : Nat) (buffer : CharBuffer) :
    Driver RadioEvent Radio CharBuffer :=
  access move fun s => s.transfer si stack (-1) payloadLength .RRxPayload buffer

/-- `check_for_received_data` -/
def checkForReceivedData (config : Nrf24l01Registers) (responseBuffer : CharBuffer) :
    Driver RadioEvent Radio (Nat × CharBuffer) := do
  let status ← getNrfRegister si stack .STATUS
  let pipe := ((status >>> 1) &&& 7#8).toNat
  if pipe ≤ 5 then do
    stopListening
    let buffer ← nrfReceivePayload si stack (config.rxPw pipe).toNat responseBuffer
    startListening
    pure (1, buffer)
  else pure (0, responseBuffer)

/-- `enable_rx_and_listen` -/
def enableRxAndListen : Driver RadioEvent Radio Unit := do
  nrfPowerOff si stack
  setBitNrfRegister si stack .CONFIG PRIM_RX
  nrfPowerOn si stack
  startListening

/-- `disable_rx` -/
def disableRx : Driver RadioEvent Radio Unit := do
  nrfPowerOff si stack
  clearBitNrfRegister si stack .CONFIG PRIM_RX
  nrfPowerOn si stack
  stopListening

/-- `check_tx_availability` -/
def checkTxAvailability : Driver RadioEvent Radio Nat := do
  let fifoStatus ← getNrfRegister si stack .FIFO_STATUS
  if fifoStatus &&& (1#8 <<< 4) ≠ 0#8 then pure 0
  else do
    let nrfStatus ← getNrfRegister si stack .STATUS
    if nrfStatus &&& (1#8 <<< 4) ≠ 0#8 then clearIrMaxrtFlag si stack else pure ()
    pure 1

/-- `transfer(-1, length + 1, WTxPayload, payload)` -/
def loadPayload (length : Nat) (payload : CharBuffer) (s : Radio) : Unit × Radio :=
  ((), (s.transfer si stack (-1) (length + 1) .WTxPayload payload).2)

/-- `load_tx_buffer` -/
def loadTxBuffer (length : Nat) (payload : CharBuffer) : Driver RadioEvent Radio Nat := do
  let fifoStatus ← getNrfRegister si stack .FIFO_STATUS
  if fifoStatus &&& (1#8 <<< 5) ≠ 0#8 then pure 0
  else do
    access move (loadPayload si stack length payload)
    note fun s => { s with accepted := s.accepted ++ [loadedPayload length payload] }
    pure 1

/-- `while ((read_timer() - tStart) < timeToSettle)` -/
def waitUntilSettled (tStart : Word) : Driver RadioEvent Radio Word :=
  poll move (fun s => (s.timer, s)) fun tEnd => !decide (tEnd - tStart < timeToSettle)

/-- `transmit_single_package` -/
def transmitSinglePackage (settle : Bool) : Driver RadioEvent Radio Nat := do
  let available ← checkTxAvailability si stack
  if available = 0 then pure 0
  else do
    let tStart ← readTimer
    setCe
    if settle then do
      let _ ← waitUntilSettled timeToSettle tStart
    else pure ()
    unsetCe
    pure 1

/-- `while (!(get_nrf_register(FIFO_STATUS) & (1 << 4)))` -/
def waitUntilSent : Driver RadioEvent Radio Byte :=
  poll move (getRegister si stack .FIFO_STATUS) fun fifoStatus => fifoStatus &&& (1#8 <<< 4) ≠ 0#8

/-- `transmit_all_packages` -/
def transmitAllPackages : Driver RadioEvent Radio Nat := do
  let available ← checkTxAvailability si stack
  if available = 0 then pure 0
  else do
    setCe
    let _ ← waitUntilSent si stack
    unsetCe
    pure 1

/-- One field of `get_nrf_config`. -/
def readField (register : RegisterName) (field : CharBuffer) :
    Driver RadioEvent Radio CharBuffer :=
  if registerWidth register.number = 5 then getNrfRegisterLong si stack register field
  else do
    let value ← getNrfRegister si stack register
    pure (Function.update field 0 value)

/-- The fields, one after the other. -/
def readFields : List RegisterName → RegisterFile → Driver RadioEvent Radio RegisterFile
  | [], file => pure file
  | register :: registers, file => do
    let field ← readField si stack register (file register)
    readFields registers (Function.update file register field)

/-- `get_nrf_config` -/
def getNrfConfig (currentNrfConfig : RegisterFile) : Driver RadioEvent Radio RegisterFile :=
  readFields si stack registerNames currentNrfConfig

/-- The branch of `configure_device` over the mode. -/
def setDirection : OperatingMode → Driver RadioEvent Radio Unit
  | .SLAVE => setBitNrfRegister si stack .CONFIG PRIM_RX
  | .MASTER => clearBitNrfRegister si stack .CONFIG PRIM_RX

/-- What `configure_device` writes before it reads everything back. -/
def writeConfiguration (nrfRegs : RegisterFile) : Driver RadioEvent Radio Unit := do
  setNrfRegisterLong si stack .RX_ADDR_P0 (nrfRegs .RX_ADDR_P0)
  setNrfRegisterLong si stack .RX_ADDR_P1 (nrfRegs .RX_ADDR_P1)
  replaceNrfRegister si stack .RX_PW_P0 (nrfRegs .RX_PW_P0 0)
  replaceNrfRegister si stack .RX_PW_P1 (nrfRegs .RX_PW_P1 0)
  setNrfRegisterLong si stack .TX_ADDR (nrfRegs .TX_ADDR)
  replaceNrfRegister si stack .RF_CH (nrfRegs .RF_CH 0)
  replaceNrfRegister si stack .RF_SETUP (nrfRegs .RF_SETUP 0)
  replaceNrfRegister si stack .EN_AA (nrfRegs .EN_AA 0)
  replaceNrfRegister si stack .EN_RXADDR (nrfRegs .EN_RXADDR 0)
  replaceNrfRegister si stack .SETUP_AW (nrfRegs .SETUP_AW 0)
  replaceNrfRegister si stack .SETUP_RETR (nrfRegs .SETUP_RETR 0)

/-- The comparison at the end of `configure_device`. -/
def readBack (nrfRegs memory : RegisterFile) : Driver RadioEvent Radio Nat := do
  let config ← getNrfConfig si stack memory
  pure (if config .RF_CH 0 ≠ nrfRegs .RF_CH 0 ∨ config .RF_SETUP 0 ≠ nrfRegs .RF_SETUP 0 ∨
      config .SETUP_AW 0 ≠ nrfRegs .SETUP_AW 0 ∨ config .EN_RXADDR 0 ≠ nrfRegs .EN_RXADDR 0 then 0
    else 1)

/-- `configure_device`, with what is in the memory of its local variable. -/
def configureDevice (nrfRegs : RegisterFile) (mode : OperatingMode) (memory : RegisterFile) :
    Driver RadioEvent Radio Nat := do
  unsetCe
  nrfPowerOff si stack
  replaceNrfRegister si stack .CONFIG (nrfRegs .CONFIG 0)
  setDirection si stack mode
  replaceNrfRegister si stack .EN_RXADDR (nrfRegs .EN_RXADDR 0)
  let disabled ← disableCrc si stack
  if disabled = 0 then pure 0
  else do
    writeConfiguration si stack nrfRegs
    nrfPowerOn si stack
    readBack si stack nrfRegs memory

end Functions

end Radio

/-! ### Calls -/

/-- A call of the driver. -/
inductive RadioCall where
  | loadTxBuffer (length : Nat) (payload : CharBuffer)
  | transmitSinglePackage (settle : Bool)
  | transmitAllPackages
  | enableRxAndListen
  | disableRx
  | nrfPowerOn
  | nrfPowerOff
  | startListening
  | stopListening
  | nrfFlushTx
  | nrfFlushRx
  | clearRxDrFlag
  | clearTxDsFlag
  | clearIrMaxrtFlag
  | enableCrc
  | disableCrc
  | checkForReceivedData (config : Nrf24l01Registers) (responseBuffer : CharBuffer)
  | getNrfConfig (currentNrfConfig : RegisterFile)
  | configureDevice (nrfRegs : RegisterFile) (mode : OperatingMode) (memory : RegisterFile)

/-- The payload that is offered to the transmit queue. -/
def RadioCall.payload : RadioCall → Option (List Byte)
  | .loadTxBuffer length payload => some (loadedPayload length payload)
  | _ => none

/-- What the call returns is not looked at. -/
def ignore {α : Type} (m : Driver RadioEvent Radio α) : Driver RadioEvent Radio Unit := do
  let _ ← m

/-- A call. -/
def RadioCall.perform (si : Silicon) (stack : CharBuffer) (timeToSettle : Word) :
    RadioCall → Driver RadioEvent Radio Unit
  | .loadTxBuffer length payload => ignore (Radio.loadTxBuffer si stack length payload)
  | .transmitSinglePackage settle =>
    ignore (Radio.transmitSinglePackage si stack timeToSettle settle)
  | .transmitAllPackages => ignore (Radio.transmitAllPackages si stack)
  | .enableRxAndListen => Radio.enableRxAndListen si stack
  | .disableRx => Radio.disableRx si stack
  | .nrfPowerOn => Radio.nrfPowerOn si stack
  | .nrfPowerOff => Radio.nrfPowerOff si stack
  | .startListening => Radio.startListening
  | .stopListening => Radio.stopListening
  | .nrfFlushTx => Radio.nrfFlushTx si stack
  | .nrfFlushRx => Radio.nrfFlushRx si stack
  | .clearRxDrFlag => Radio.clearRxDrFlag si stack
  | .clearTxDsFlag => Radio.clearTxDsFlag si stack
  | .clearIrMaxrtFlag => Radio.clearIrMaxrtFlag si stack
  | .enableCrc => ignore (Radio.enableCrc si stack)
  | .disableCrc => ignore (Radio.disableCrc si stack)
  | .checkForReceivedData config responseBuffer =>
    ignore (Radio.checkForReceivedData si stack config responseBuffer)
  | .getNrfConfig currentNrfConfig => ignore (Radio.getNrfConfig si stack currentNrfConfig)
  | .configureDevice nrfRegs mode memory =>
    ignore (Radio.configureDevice si stack nrfRegs mode memory)

/-- Calls, one after the other. -/
def session (si : Silicon) (stack : CharBuffer) (timeToSettle : Word) (calls : List RadioCall) :
    Driver RadioEvent Radio Unit :=
  each (RadioCall.perform si stack timeToSettle) calls

/-! ### What they keep -/

/-- A property that the chip keeps by itself, and that does not depend on the buffer. -/
structure Steady (P : Radio → Prop) : Prop where
  stable : Stable Radio.move P
  buffer : ∀ s b, P s → P { s with rxBuffer := b }

theorem Steady.and {P Q : Radio → Prop} (hP : Steady P) (hQ : Steady Q) :
    Steady fun s => P s ∧ Q s :=
  ⟨stable_and hP.stable hQ.stable, fun s b hs => ⟨hP.buffer s b hs.1, hQ.buffer s b hs.2⟩⟩

section Maintained

variable {si : Silicon} {stack : CharBuffer} {P I : Radio → Prop} {register : RegisterName}

/-- Reading a register changes the buffer only, and brings what is in it. -/
theorem triple_get {Q : Byte → Radio → Prop} (h : Steady P) (hI : ∀ s, P s → I s)
    (hQ : ∀ s, P s → ∀ b, Q (s.read register.number 0) { s with rxBuffer := b }) :
    Triple I P (Radio.getNrfRegister si stack register) Q := by
  refine triple_access h.stable hI fun s hs => ?_
  rw [getRegister_eq]
  exact hQ s hs _

/-- Writing a register writes the value. -/
theorem triple_put {Q : Unit → Radio → Prop} {value : Byte} (h : Steady P) (hI : ∀ s, P s → I s)
    (hQ : ∀ s, P s → Q () (s.write si register.number [value])) :
    Triple I P (Radio.replaceNrfRegister si stack register value) Q := by
  refine triple_access h.stable hI fun s hs => ?_
  rw [putRegister_eq register (by decide)]
  exact hQ s hs

theorem maintains_get (h : Steady P) : Maintains P (Radio.getNrfRegister si stack register) :=
  triple_get h (fun _ hs => hs) fun s hs b => h.buffer s b hs

theorem maintains_put {value : Byte} (h : Steady P)
    (hwrite : ∀ s data, P s → P (s.write si register.number data)) :
    Maintains P (Radio.replaceNrfRegister si stack register value) :=
  triple_put h (fun _ hs => hs) fun s hs => hwrite s _ hs

theorem maintains_setBit {bitPosition : Nat} (h : Steady P)
    (hwrite : ∀ s data, P s → P (s.write si register.number data)) :
    Maintains P (Radio.setBitNrfRegister si stack register bitPosition) :=
  maintains_bind (maintains_get h) fun _ => maintains_put h hwrite

theorem maintains_clearBit {bitPosition : Nat} (h : Steady P)
    (hwrite : ∀ s data, P s → P (s.write si register.number data)) :
    Maintains P (Radio.clearBitNrfRegister si stack register bitPosition) :=
  maintains_bind (maintains_get h) fun _ => maintains_put h hwrite

theorem maintains_putLong {payload : CharBuffer} (h : Steady P)
    (hwrite : ∀ s data, P s → P (s.write si register.number data)) :
    Maintains P (Radio.setNrfRegisterLong si stack register payload) := by
  refine maintains_access h.stable fun s hs => ?_
  rw [putRegister_eq register (by decide)]
  exact hwrite s _ hs

/-- Whether something is to be sent, and the flag of a failed transmission. -/
theorem maintains_checkTx (h : Steady P)
    (hwrite : ∀ s data, P s → P (s.write si RegisterName.STATUS.number data)) :
    Maintains P (Radio.checkTxAvailability si stack) := by
  refine maintains_bind (maintains_get h) fun fifoStatus => ?_
  split
  · exact maintains_pure
  · refine maintains_bind (maintains_get h) fun nrfStatus => ?_
    dsimp only
    split
    · exact maintains_bind (maintains_setBit h hwrite) fun _ => maintains_pure
    · exact maintains_pure

theorem maintains_readField (h : Steady P) {field : CharBuffer} :
    Maintains P (Radio.readField si stack register field) := by
  unfold Radio.readField
  split
  · refine maintains_access h.stable fun s hs => ?_
    rw [transfer_read register (by decide)]
    exact hs
  · exact maintains_bind (maintains_get h) fun _ => maintains_pure

/-- All registers are read. -/
theorem maintains_readFields (h : Steady P) (registers : List RegisterName) :
    ∀ file, Maintains P (Radio.readFields si stack registers file) := by
  induction registers with
  | nil => exact fun _ => maintains_pure
  | cons register registers ih =>
      exact fun file => maintains_bind (maintains_readField h) fun field => ih _

theorem maintains_waitUntilSettled {timeToSettle tStart : Word} (h : Steady P) :
    Maintains P (Radio.waitUntilSettled timeToSettle tStart) :=
  maintains_poll h.stable fun _ hs => hs

theorem maintains_waitUntilSent (h : Steady P) : Maintains P (Radio.waitUntilSent si stack) := by
  refine maintains_poll h.stable fun s hs => ?_
  rw [getRegister_eq]
  exact h.buffer s _ hs

theorem maintains_ce (h : Steady P) (hce : ∀ s ce, P s → P { s with ce := ce }) (ce : Bool) :
    Maintains P (access Radio.move fun s => ((), { s with ce := ce })) :=
  maintains_access h.stable fun s hs => hce s ce hs

theorem maintains_ignore {α : Type} {m : Driver RadioEvent Radio α} (h : Maintains P m) :
    Maintains P (ignore m) :=
  maintains_bind h fun _ => maintains_pure

/-- A property that no call disturbs unless it writes to a register of the configuration
    or loads a payload. -/
structure Calm (si : Silicon) (P : Radio → Prop) : Prop extends Steady P where
  status : ∀ s data, P s → P (s.write si RegisterName.STATUS.number data)
  ce : ∀ s ce, P s → P { s with ce := ce }
  rx : ∀ s rx, rx <:+ s.rx → P s → P { s with rx := rx }
  flush : ∀ s, P s →
    P { s with tx := [], gone := s.gone ++ s.tx.map .flushed, sending := false }

section Calm

variable {timeToSettle : Word}

theorem maintains_flag (h : Calm si P) (n : Nat) :
    Maintains P (Radio.setBitNrfRegister si stack .STATUS n) :=
  maintains_setBit h.toSteady h.status

theorem maintains_transmitSingle (h : Calm si P) (settle : Bool) :
    Maintains P (Radio.transmitSinglePackage si stack timeToSettle settle) := by
  refine maintains_bind (maintains_checkTx h.toSteady h.status) fun available => ?_
  split
  · exact maintains_pure
  · refine maintains_bind (maintains_access h.stable fun _ hs => hs) fun tStart =>
      maintains_bind (maintains_ce h.toSteady h.ce true) fun _ => ?_
    dsimp only
    split
    · exact maintains_bind (maintains_waitUntilSettled h.toSteady) fun _ =>
        maintains_bind (maintains_ce h.toSteady h.ce false) fun _ => maintains_pure
    · exact maintains_bind (maintains_ce h.toSteady h.ce false) fun _ => maintains_pure

theorem maintains_transmitAll (h : Calm si P) :
    Maintains P (Radio.transmitAllPackages si stack) := by
  refine maintains_bind (maintains_checkTx h.toSteady h.status) fun available => ?_
  split
  · exact maintains_pure
  · exact maintains_bind (maintains_ce h.toSteady h.ce true) fun _ =>
      maintains_bind (maintains_waitUntilSent h.toSteady) fun _ =>
      maintains_bind (maintains_ce h.toSteady h.ce false) fun _ => maintains_pure

/-- The transfers that concern the queues and bring no payload. -/
theorem transfer_calm (h : Calm si P) {length : Nat} {transferType : TransferType}
    {buffer : CharBuffer} {s : Radio}
    (htype : transferType = .RRxPayload ∨ transferType = .FlushTX ∨ transferType = .FlushRX)
    (hs : P s) : P (s.transfer si stack (-1) length transferType buffer).2 := by
  have hwire := transfer_head stack (-1) length transferType buffer
  change P (s.execute si (transfer (-1) length transferType buffer stack stack).1)
  cases hbytes : (transfer (-1) length transferType buffer stack stack).1 with
  | nil => exact hs
  | cons command data =>
      rw [hbytes, List.head?_cons] at hwire
      rw [Option.some.inj hwire]
      rcases htype with rfl | rfl | rfl
      · exact h.rx s s.rx.tail (List.tail_suffix _) hs
      · exact h.flush s hs
      · exact h.rx s [] List.nil_suffix hs

theorem maintains_flushTx (h : Calm si P) : Maintains P (Radio.nrfFlushTx si stack) := by
  refine maintains_access h.stable fun s hs => ?_
  dsimp only
  exact transfer_calm h (Or.inr (Or.inl rfl)) hs

theorem maintains_flushRx (h : Calm si P) : Maintains P (Radio.nrfFlushRx si stack) := by
  refine maintains_access h.stable fun s hs => ?_
  dsimp only
  exact transfer_calm h (Or.inr (Or.inr rfl)) hs

theorem maintains_checkReceived (h : Calm si P) (config : Nrf24l01Registers)
    (responseBuffer : CharBuffer) :
    Maintains P (Radio.checkForReceivedData si stack config responseBuffer) := by
  refine maintains_bind (maintains_get h.toSteady) fun status => ?_
  dsimp only
  split
  · refine maintains_bind (maintains_ce h.toSteady h.ce false) fun _ => maintains_bind ?_ fun _ =>
      maintains_bind (maintains_ce h.toSteady h.ce true) fun _ => maintains_pure
    exact maintains_access h.stable fun _ hs => transfer_calm h (Or.inl rfl) hs
  · exact maintains_pure

/-- The calls that load nothing and write to no register of the configuration. -/
def RadioCall.isCalm : RadioCall → Bool
  | .transmitSinglePackage _ | .transmitAllPackages | .startListening | .stopListening
  | .nrfFlushTx | .nrfFlushRx | .clearRxDrFlag | .clearTxDsFlag | .clearIrMaxrtFlag
  | .checkForReceivedData _ _ | .getNrfConfig _ => true
  | _ => false

theorem maintains_calm (h : Calm si P) {call : RadioCall} (hcalm : call.isCalm = true) :
    Maintains P (call.perform si stack timeToSettle) := by
  cases call with
  | transmitSinglePackage settle => exact maintains_ignore (maintains_transmitSingle h settle)
  | transmitAllPackages => exact maintains_ignore (maintains_transmitAll h)
  | startListening => exact maintains_ce h.toSteady h.ce true
  | stopListening => exact maintains_ce h.toSteady h.ce false
  | nrfFlushTx => exact maintains_flushTx h
  | nrfFlushRx => exact maintains_flushRx h
  | clearRxDrFlag => exact maintains_flag h 6
  | clearTxDsFlag => exact maintains_flag h 5
  | clearIrMaxrtFlag => exact maintains_flag h 4
  | checkForReceivedData config responseBuffer =>
      exact maintains_ignore (maintains_checkReceived h config responseBuffer)
  | getNrfConfig currentNrfConfig => exact maintains_ignore (maintains_readFields h.toSteady _ _)
  | _ => exact Bool.noConfusion hcalm

end Calm

end Maintained

end NextLevelRTOS
