import NextLevelRTOS.Lib.Acknowledge
import NextLevelRTOS.Radio.Wire

/-!
# Pending Interrupts

The acknowledgements of three kinds of flags: lines of the EXTI unit, lines of the
NVIC, and the three flags in the status register of the radio. A flag is pending when
its bit is set, and is cleared by writing a one to it.

All of them read the register, set the bit of their flag and write the result back.
So all flags that are pending in the register when it is read are cleared along with
it. In the radio, `tx_ack_receive_isr` clears `RX_DR` and looks for `TX_DS`
afterwards, which then is gone.

## Main definitions

* `Interrupts`: The registers.
* `extiAcknowledgeInterrupt`, `clearNvicInterrupt`, `clearRxDrFlag`,
  `clearTxDsFlag`, `clearIrMaxrtFlag`: The functions.
* `Flag`, `flagBank`: The flags as a bank.
* `acknowledgeFlag`: The function for each of them.

## Theorems

* `getNrfRegister_eq`, `writeStatus_eq`: A register of the radio is read and written.
* `flags_acknowledged`: When nothing else is cleared, and when no flag is lost.
-/

namespace NextLevelRTOS

open Acknowledge Buffer Machine

/-- The registers: the pending register of the EXTI unit, those of the NVIC by their
    addresses, and those of the radio by their numbers. -/
structure Interrupts where
  pr1 : Word
  nvic : Word → Word
  radio : BitVec 5 → Byte

/-! ### The EXTI unit -/

/-- `WRITE_REGISTER(&exti_registers->pr1, value)` -/
def Interrupts.writePr1 (value : Word) (s : Interrupts) : Interrupts :=
  { s with pr1 := writeOnes s.pr1 value }

/-- `exti_acknowledge_interrupt` -/
def extiAcknowledgeInterrupt (pin : Nat) (s : Interrupts) : Interrupts :=
  s.writePr1 (s.pr1 ||| (1#32 <<< pin))

/-! ### The NVIC -/

/-- `NvicType_t` -/
inductive NvicType where
  | NVIC_ENABLE
  | NVIC_CLEAR
  | NVIC_SET_PENDING
  | NVIC_CLEAR_PENDING
  | NVIC_IS_ACTIVE
  deriving DecidableEq, Repr

/-- `calculate_nvic_target_register` -/
def calculateNvicTargetRegister (nvicNumber : Word) (nvicType : NvicType) : Word :=
  let nvicRegisterBlock := nvicNumber / 32#32
  let nvicRegisterBase :=
    match nvicType with
    | .NVIC_ENABLE => 0xE000E100#32
    | .NVIC_CLEAR => 0xE000E180#32
    | .NVIC_SET_PENDING => 0xE000E200#32
    | .NVIC_CLEAR_PENDING => 0xE000E280#32
    | .NVIC_IS_ACTIVE => 0xE000E300#32
  nvicRegisterBase + 0x04#32 * nvicRegisterBlock

/-- `WRITE_REGISTER(nvic_clear, value)` -/
def Interrupts.writeIcpr (address value : Word) (s : Interrupts) : Interrupts :=
  { s with nvic := Function.update s.nvic address (writeOnes (s.nvic address) value) }

/-- `clear_nvic_interrupt` -/
def clearNvicInterrupt (nvicNumber : Word) (s : Interrupts) : Interrupts :=
  let nvicClear := calculateNvicTargetRegister nvicNumber .NVIC_CLEAR_PENDING
  s.writeIcpr nvicClear (s.nvic nvicClear ||| (1#32 <<< (nvicNumber % 32#32).toNat))

/-- The clear-pending registers lie one behind the other. -/
def icprAddress (block : Nat) : Word := BitVec.ofNat 32 (0xE000E280 + 4 * block)

/-! ### The radio -/

/-- `STATUS` -/
def STATUS : BitVec 5 := 7#5

/-- What the radio answers: its status, and the register the command names. -/
def radioAnswer (registers : BitVec 5 → Byte) (wire : List Byte) : CharBuffer :=
  fun t => if t = 0 then registers STATUS else registers ((wire.headD 0).setWidth 5)

/-- What it does: of the status register only bits 4 to 6 can be written, and a one
    clears them. -/
def radioExecute (registers : BitVec 5 → Byte) (wire : List Byte) : BitVec 5 → Byte :=
  match wire with
  | command :: value :: _ =>
    let register := command.setWidth 5
    if command >>> 5 = 1#8 then
      Function.update registers register
        (if register = STATUS then writeOnes (registers STATUS) (value &&& 0x70#8) else value)
    else registers
  | _ => registers

/-- `transfer`, with the radio at the other end: the buffer and the registers
    afterwards. -/
def radioTransfer (targetRegister : Byte) (length : Nat) (transferType : TransferType)
    (buffer stack : CharBuffer) (registers : BitVec 5 → Byte) :
    CharBuffer × (BitVec 5 → Byte) :=
  let wire := (transfer targetRegister length transferType buffer stack stack).1
  ((transfer targetRegister length transferType buffer stack (radioAnswer registers wire)).2,
    radioExecute registers wire)

/-- `get_nrf_register`, with what is in `rx_buffer` and on the stack. -/
def getNrfRegister (regType : Byte) (rxBuffer stack : CharBuffer)
    (registers : BitVec 5 → Byte) : Byte :=
  (radioTransfer regType 1 .ReadRegister rxBuffer stack registers).1 0

/-- `transfer(reg_type, 1, WriteRegister, &new_value)` -/
def writeNrfRegister (regType newValue : Byte) (stack : CharBuffer)
    (registers : BitVec 5 → Byte) : BitVec 5 → Byte :=
  (radioTransfer regType 1 .WriteRegister (fun _ => newValue) stack registers).2

/-- `set_bit_nrf_register` -/
def setBitNrfRegister (regType : Byte) (bitPosition : Nat) (rxBuffer stack : CharBuffer)
    (registers : BitVec 5 → Byte) : BitVec 5 → Byte :=
  let currentValue := getNrfRegister regType rxBuffer stack registers
  let newValue := currentValue ||| (1#8 <<< bitPosition)
  writeNrfRegister regType newValue stack registers

/-- `clear_rx_dr_flag` -/
def clearRxDrFlag (rxBuffer stack : CharBuffer) (s : Interrupts) : Interrupts :=
  { s with radio := setBitNrfRegister (STATUS.setWidth 8) 6 rxBuffer stack s.radio }

/-- `clear_tx_ds_flag` -/
def clearTxDsFlag (rxBuffer stack : CharBuffer) (s : Interrupts) : Interrupts :=
  { s with radio := setBitNrfRegister (STATUS.setWidth 8) 5 rxBuffer stack s.radio }

/-- `clear_ir_maxrt_flag` -/
def clearIrMaxrtFlag (rxBuffer stack : CharBuffer) (s : Interrupts) : Interrupts :=
  { s with radio := setBitNrfRegister (STATUS.setWidth 8) 4 rxBuffer stack s.radio }

/-! ### The flags -/

/-- The flags of the radio. -/
inductive RadioFlag where
  | rxDr
  | txDs
  | maxRt
  deriving DecidableEq, Repr

/-- The bit of the status register. -/
def RadioFlag.bit : RadioFlag → Nat
  | .rxDr => 6
  | .txDs => 5
  | .maxRt => 4

/-- The flags: the bits of the EXTI register, the 240 lines of the NVIC and the flags
    of the radio. -/
inductive Flag where
  | exti (line : Fin 32)
  | nvic (line : Fin 240)
  | radio (flag : RadioFlag)
  deriving DecidableEq, Repr

/-- A write that is on its way. -/
inductive RegisterWrite where
  | pr1 (value : Word)
  | icpr (address value : Word)
  | status (value : Byte)
  deriving DecidableEq, Repr

namespace Flag

/-- The bit of the flag is set. -/
def pending (s : Interrupts) : Flag → Bool
  | exti line => s.pr1.getLsbD line
  | nvic line => (s.nvic (icprAddress (line / 32))).getLsbD (line % 32)
  | radio flag => (s.radio STATUS).getLsbD flag.bit

/-- The hardware raises the flag. -/
def raise (f : Flag) (s : Interrupts) : Interrupts :=
  match f with
  | exti line => { s with pr1 := s.pr1 ||| (1#32 <<< line.val) }
  | nvic line => { s with
      nvic := Function.update s.nvic (icprAddress (line / 32))
        (s.nvic (icprAddress (line / 32)) ||| (1#32 <<< (line % 32 : Nat))) }
  | radio flag => { s with
      radio := Function.update s.radio STATUS (s.radio STATUS ||| (1#8 <<< flag.bit)) }

/-- Flags of one register. -/
def Shares : Flag → Flag → Prop
  | exti _, exti _ => True
  | nvic line, nvic line' => line.val / 32 = line'.val / 32
  | radio _, radio _ => True
  | _, _ => False

/-- The write has a one for the flag. -/
def covered (write : RegisterWrite) (f : Flag) : Bool :=
  match write, f with
  | .pr1 value, exti line => value.getLsbD line
  | .icpr address value, nvic line =>
    decide (address = icprAddress (line / 32)) && value.getLsbD (line % 32)
  | .status value, radio flag => value.getLsbD flag.bit
  | _, _ => false

/-- The handler of the flag reads, and sets its bit. -/
def fetch (rxBuffer stack : CharBuffer) (f : Flag) (s : Interrupts) : RegisterWrite :=
  match f with
  | exti line => .pr1 (s.pr1 ||| (1#32 <<< line.val))
  | nvic line =>
    let nvicNumber := BitVec.ofNat 32 line
    let nvicClear := calculateNvicTargetRegister nvicNumber .NVIC_CLEAR_PENDING
    .icpr nvicClear (s.nvic nvicClear ||| (1#32 <<< (nvicNumber % 32#32).toNat))
  | radio flag =>
    .status (getNrfRegister (STATUS.setWidth 8) rxBuffer stack s.radio ||| (1#8 <<< flag.bit))

/-- What the function that acknowledges the flag writes is stored. -/
def store (stack : CharBuffer) (write : RegisterWrite) (s : Interrupts) : Interrupts :=
  match write with
  | .pr1 value => s.writePr1 value
  | .icpr address value => s.writeIcpr address value
  | .status value => { s with radio := writeNrfRegister (STATUS.setWidth 8) value stack s.radio }

end Flag

/-- The function that acknowledges a flag. -/
def acknowledgeFlag (rxBuffer stack : CharBuffer) (f : Flag) (s : Interrupts) : Interrupts :=
  match f with
  | .exti line => extiAcknowledgeInterrupt line s
  | .nvic line => clearNvicInterrupt (BitVec.ofNat 32 line) s
  | .radio .rxDr => clearRxDrFlag rxBuffer stack s
  | .radio .txDs => clearTxDsFlag rxBuffer stack s
  | .radio .maxRt => clearIrMaxrtFlag rxBuffer stack s

/-! ### Their registers -/

theorem icprAddress_inj {a b : Nat} (ha : a < 8) (hb : b < 8)
    (h : icprAddress a = icprAddress b) : a = b := by
  have hnat := congrArg BitVec.toNat h
  rw [icprAddress, icprAddress, BitVec.toNat_ofNat, BitVec.toNat_ofNat] at hnat
  omega

/-- The register of a line. -/
theorem calculateNvicTargetRegister_eq {line : Nat} (hline : line < 240) :
    calculateNvicTargetRegister (BitVec.ofNat 32 line) .NVIC_CLEAR_PENDING =
      icprAddress (line / 32) := by
  have hblock : BitVec.ofNat 32 line / 32#32 = BitVec.ofNat 32 (line / 32) := by
    rw [← BitVec.toNat_inj, BitVec.toNat_udiv, show (32#32 : Word).toNat = 32 by rfl,
      BitVec.toNat_ofNat, BitVec.toNat_ofNat]
    omega
  rw [calculateNvicTargetRegister, icprAddress, BitVec.ofNat_add, BitVec.ofNat_mul, ← hblock]

/-- The bit of a line in its register. -/
theorem nvicBit_eq (line : Nat) :
    (BitVec.ofNat 32 line % 32#32).toNat = line % 32 := by
  rw [BitVec.toNat_umod, show (32#32 : Word).toNat = 32 by rfl, BitVec.toNat_ofNat]
  omega

theorem opcode_register : ∀ register : BitVec 5, (0b000#3 ++ register).setWidth 5 = register := by
  decide

/-- A register of the radio is read as it is. -/
theorem getNrfRegister_eq (register : BitVec 5) (rxBuffer stack : CharBuffer)
    (registers : BitVec 5 → Byte) :
    getNrfRegister (register.setWidth 8) rxBuffer stack registers = registers register := by
  have hwire : (transfer (register.setWidth 8) 1 .ReadRegister rxBuffer stack stack).1 =
      [0b000#3 ++ register, rxBuffer 0] := by
    rw [← readRegister_carries register]
    exact transfer_wire (by decide) (by decide)
  have hread : getNrfRegister (register.setWidth 8) rxBuffer stack registers =
      spiRead (radioAnswer registers [0b000#3 ++ register, rxBuffer 0]) 1 rxBuffer 0 := by
    rw [← hwire]
    rfl
  rw [hread, spiRead_eq, if_pos Nat.one_pos]
  exact congrArg registers (opcode_register register)

/-- What is written to the status register clears. -/
theorem writeStatus_eq (value : Byte) (stack : CharBuffer) (registers : BitVec 5 → Byte) :
    writeNrfRegister (STATUS.setWidth 8) value stack registers =
      Function.update registers STATUS (writeOnes (registers STATUS) (value &&& 0x70#8)) := by
  have hwire : (transfer (STATUS.setWidth 8) 1 .WriteRegister (fun _ => value) stack stack).1 =
      [0x27#8, value] := transfer_wire (by decide) (by decide)
  have hwrite : writeNrfRegister (STATUS.setWidth 8) value stack registers =
      radioExecute registers [0x27#8, value] := by
    rw [← hwire]
    rfl
  rw [hwrite]
  rfl

/-! ### The bank -/

section Bank

variable {w : Nat}

/-- Raising a flag sets its bit. -/
theorem setBit_pending (value : BitVec w) {n : Nat} (hn : n < w) (i : Nat) :
    (value ||| (1#w <<< n)).getLsbD i = true ↔ value.getLsbD i = true ∨ i = n := by
  rw [getLsbD_setBit value hn, Bool.or_eq_true, decide_eq_true_eq, @eq_comm _ n i]

/-- Writing clears the bits that are ones. -/
theorem writeOnes_pending (pending value : BitVec w) (i : Nat) :
    (writeOnes pending value).getLsbD i = true ↔
      pending.getLsbD i = true ∧ ¬ value.getLsbD i = true := by
  rw [getLsbD_writeOnes, Bool.and_eq_true, Bool.not_eq_true', Bool.not_eq_true]

theorem RadioFlag.bit_lt (flag : RadioFlag) : flag.bit < 8 := by
  cases flag <;> decide

/-- A flag of the radio is given by its bit. -/
theorem RadioFlag.eq_iff_bit {flag flag' : RadioFlag} : flag = flag' ↔ flag.bit = flag'.bit := by
  cases flag <;> cases flag' <;> decide

/-- The flags of the radio can be cleared. -/
theorem statusMask_bit (value : Byte) (flag : RadioFlag) :
    (value &&& 0x70#8).getLsbD flag.bit = value.getLsbD flag.bit := by
  have hmask : (0x70#8).getLsbD flag.bit = true := by
    cases flag <;> rfl
  rw [BitVec.getLsbD_and, hmask, Bool.and_true]

/-- A line of the NVIC is given by its register and its bit. -/
theorem nvic_line_eq {line line' : Fin 240} (hblock : line.val / 32 = line'.val / 32)
    (hbit : line.val % 32 = line'.val % 32) : line = line' := by
  refine Fin.ext ?_
  omega

end Bank

namespace Flag

/-- Raising a flag sets its bit and no other. -/
theorem pending_raise (f g : Flag) (s : Interrupts) :
    pending (raise f s) g = true ↔ pending s g = true ∨ g = f := by
  -- Flags of another kind are in other registers.
  have hother : g ≠ f → (pending s g = true ↔ pending s g = true ∨ g = f) :=
    fun hne => (or_iff_left hne).symm
  cases f with
  | exti line =>
      cases g with
      | exti line' =>
          rw [exti.injEq, Fin.ext_iff]
          exact setBit_pending s.pr1 line.isLt line'
      | nvic line' => exact hother fun hc => Flag.noConfusion hc
      | radio flag' => exact hother fun hc => Flag.noConfusion hc
  | nvic line =>
      cases g with
      | exti line' => exact hother fun hc => Flag.noConfusion hc
      | nvic line' =>
          by_cases hblock : line'.val / 32 = line.val / 32
          · have hline : line' = line ↔ line'.val % 32 = line.val % 32 :=
              ⟨fun h => by rw [h], fun h => nvic_line_eq hblock h⟩
            rw [nvic.injEq, hline]
            simp only [pending, raise]
            rw [hblock, Function.update_self]
            exact setBit_pending _ (Nat.mod_lt _ (by decide)) _
          · have hne : icprAddress (line'.val / 32) ≠ icprAddress (line.val / 32) :=
              fun hc => hblock (icprAddress_inj (by omega) (by omega) hc)
            have hkeep : pending (raise (nvic line) s) (nvic line') = pending s (nvic line') := by
              simp only [pending, raise]
              rw [Function.update_of_ne hne]
            rw [hkeep]
            exact hother fun hc => hblock (by rw [nvic.inj hc])
      | radio flag' => exact hother fun hc => Flag.noConfusion hc
  | radio flag =>
      cases g with
      | exti line' => exact hother fun hc => Flag.noConfusion hc
      | nvic line' => exact hother fun hc => Flag.noConfusion hc
      | radio flag' =>
          rw [radio.injEq, RadioFlag.eq_iff_bit]
          simp only [pending, raise]
          rw [Function.update_self]
          exact setBit_pending _ flag.bit_lt _

/-- What is written covers what was pending in the register, and the flag itself. -/
theorem covered_fetch (rxBuffer stack : CharBuffer) (f g : Flag) (s : Interrupts) :
    covered (fetch rxBuffer stack f s) g = true ↔
      g = f ∨ (Shares f g ∧ pending s g = true) := by
  -- Flags of another kind share no register with `f`, and what is written does not
  -- reach them.
  have hother : g ≠ f → ¬ Shares f g →
      (false = true ↔ g = f ∨ (Shares f g ∧ pending s g = true)) :=
    fun hne hshares => iff_of_false Bool.false_ne_true fun hc =>
      hc.elim hne fun hc => hshares hc.1
  cases f with
  | exti line =>
      cases g with
      | exti line' =>
          rw [exti.injEq, Fin.ext_iff, Shares, true_and, or_comm]
          exact setBit_pending s.pr1 line.isLt line'
      | nvic line' => exact hother (fun hc => Flag.noConfusion hc) id
      | radio flag' => exact hother (fun hc => Flag.noConfusion hc) id
  | nvic line =>
      cases g with
      | exti line' => exact hother (fun hc => Flag.noConfusion hc) id
      | nvic line' =>
          -- The write goes to the register of `f` with what was pending there. So the
          -- line is found by both, its register and its bit.
          simp only [covered, fetch, Shares, pending]
          rw [calculateNvicTargetRegister_eq line.isLt, nvicBit_eq, Bool.and_eq_true,
            decide_eq_true_eq, setBit_pending _ (Nat.mod_lt _ (by decide)), nvic.injEq]
          constructor
          · rintro ⟨haddress, hbit⟩
            have hblock := icprAddress_inj (by omega) (by omega) haddress
            rcases hbit with hbit | hbit
            · rw [haddress] at hbit
              exact Or.inr ⟨hblock, hbit⟩
            · exact Or.inl (nvic_line_eq hblock.symm hbit)
          · rintro (rfl | ⟨hblock, hbit⟩)
            · exact ⟨rfl, Or.inr rfl⟩
            · rw [hblock]
              exact ⟨rfl, Or.inl hbit⟩
      | radio flag' => exact hother (fun hc => Flag.noConfusion hc) id
  | radio flag =>
      cases g with
      | exti line' => exact hother (fun hc => Flag.noConfusion hc) id
      | nvic line' => exact hother (fun hc => Flag.noConfusion hc) id
      | radio flag' =>
          -- The status register is read over the wire, as it is.
          rw [radio.injEq, RadioFlag.eq_iff_bit, Shares, true_and, or_comm]
          simp only [covered, fetch, pending]
          rw [getNrfRegister_eq]
          exact setBit_pending _ flag.bit_lt _

/-- A write clears the flags that it covers, and no other. -/
theorem pending_store (stack : CharBuffer) (write : RegisterWrite) (g : Flag) (s : Interrupts) :
    pending (store stack write s) g = true ↔ pending s g = true ∧ ¬ covered write g = true := by
  have hother : pending s g = true ↔ pending s g = true ∧ ¬ false = true :=
    (and_iff_left Bool.false_ne_true).symm
  cases write with
  | pr1 value =>
      cases g with
      | exti line => exact writeOnes_pending s.pr1 value line
      | nvic line => exact hother
      | radio flag => exact hother
  | icpr address value =>
      cases g with
      | exti line => exact hother
      | nvic line =>
          simp only [pending, store, Interrupts.writeIcpr, covered]
          -- Only the register with the address of the write changes.
          by_cases haddress : icprAddress (line.val / 32) = address
          · rw [haddress, Function.update_self, writeOnes_pending, decide_eq_true rfl,
              Bool.true_and]
          · rw [Function.update_of_ne haddress, decide_eq_false fun hc => haddress hc.symm,
              Bool.false_and]
            exact hother
      | radio flag => exact hother
  | status value =>
      cases g with
      | exti line => exact hother
      | nvic line => exact hother
      | radio flag =>
          simp only [pending, store, covered]
          -- The mask of the radio lets all three flags through.
          rw [writeStatus_eq, Function.update_self, writeOnes_pending, statusMask_bit]

end Flag

/-- The flags are a bank. -/
def flagBank (rxBuffer stack : CharBuffer) : Bank Flag Interrupts RegisterWrite :=
  { pending := Flag.pending
    shares := Flag.Shares
    covers := Flag.covered
    raise := Flag.raise
    fetch := Flag.fetch rxBuffer stack
    store := Flag.store stack
    pending_raise := Flag.pending_raise
    covers_fetch := Flag.covered_fetch rxBuffer stack
    pending_store := Flag.pending_store stack }

/-- The functions acknowledge as the bank does. -/
theorem acknowledgeFlag_eq (rxBuffer stack : CharBuffer) (f : Flag) (s : Interrupts) :
    acknowledgeFlag rxBuffer stack f s = (flagBank rxBuffer stack).acknowledge f s := by
  cases f with
  | exti line => rfl
  | nvic line => rfl
  | radio flag =>
      cases flag with
      | rxDr => rfl
      | txDs => rfl
      | maxRt => rfl

/-- Each of the functions clears exactly its own flag if and only if no other flag of
    the register is pending when it reads; and in every run in which all reads are
    like that, whatever is raised in between, every flag raised is pending until its
    own handler has written. -/
theorem flags_acknowledged (rxBuffer stack : CharBuffer) :
    (∀ f s, (flagBank rxBuffer stack).ClearsOnly f s (acknowledgeFlag rxBuffer stack f s) ↔
      (flagBank rxBuffer stack).Alone f s) ∧
    ∀ es s t,
      Meets (flagBank rxBuffer stack).step (flagBank rxBuffer stack).ReadsAlone es
        ((flagBank rxBuffer stack).start s) →
      run (flagBank rxBuffer stack).step es ((flagBank rxBuffer stack).start s) = some t →
      (flagBank rxBuffer stack).NothingLost t := by
  refine ⟨fun f s => ?_, fun es s t halone hrun => run_kept halone hrun⟩
  rw [acknowledgeFlag_eq]
  exact acknowledge_exact_iff f s

/-- Nothing is pending. -/
def quiet : Interrupts := { pr1 := 0#32, nvic := fun _ => 0#32, radio := fun _ => 0#8 }

theorem quiet_pending (f : Flag) : f.pending quiet = false := by
  cases f <;> exact BitVec.getLsbD_zero

/-- The two flags of `tx_ack_receive_isr`. -/
def twoFlags : List (Access Flag) :=
  [.raise (.radio .rxDr), .fetch (.radio .rxDr), .raise (.radio .txDs), .store (.radio .rxDr)]

/-- The second is raised after the read. -/
theorem flags_acknowledged_twoFlags :
    Ends (flagBank zeros zeros).step twoFlags ((flagBank zeros zeros).start quiet)
      (flagBank zeros zeros).NothingLost := by
  have halone : (flagBank zeros zeros).Alone (.radio .rxDr)
      (Flag.raise (.radio .rxDr) quiet) := by
    intro g hg _
    rcases (Flag.pending_raise (.radio .rxDr) g quiet).mp hg with hc | hc
    · rw [quiet_pending] at hc
      exact Bool.noConfusion hc
    · exact hc
  exact ⟨_, rfl, (flags_acknowledged zeros zeros).2 twoFlags quiet _
    ⟨trivial, halone, trivial, trivial, trivial⟩ rfl⟩

/-- `RX_DR` and `TX_DS` of the radio are pending. -/
def bothFlags : Interrupts := { quiet with radio := Function.update quiet.radio STATUS 0x60#8 }

/-- A flag of the same register that is raised before the read is cleared along with the
    first. -/
theorem second_flag_lost :
    ¬ (flagBank zeros zeros).ClearsOnly (.radio .rxDr) bothFlags
      (acknowledgeFlag zeros zeros (.radio .rxDr) bothFlags) ∧
    Ends (flagBank zeros zeros).step
      [.raise (.radio .rxDr), .raise (.radio .txDs), .fetch (.radio .rxDr), .store (.radio .rxDr)]
      ((flagBank zeros zeros).start quiet) fun t => ¬ (flagBank zeros zeros).NothingLost t := by
  constructor
  · intro h
    have hkept := (h (.radio .txDs)).mpr ⟨by decide, by decide⟩
    exact absurd hkept (by decide)
  · refine ⟨_, rfl, fun h => ?_⟩
    have hpending := h (.radio .txDs) rfl
    exact absurd hpending (by decide)

end NextLevelRTOS
