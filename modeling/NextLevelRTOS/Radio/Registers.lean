import NextLevelRTOS.Radio.Sending

/-!
# The Settings of the Radio

The registers that hold the configuration are changed by the driver only. So what is in
them after any number of calls follows from the calls, whatever the chip has sent and
received in between: switching the direction touches two bits of `CONFIG`, the CRC
functions a third, `configure_device` writes twelve registers, and no other call
writes to any of them.

`configure_device` writes `EN_RXADDR` twice, `CONFIG` in four steps, and compares four
registers with what they should be. It succeeds exactly if the values for these have no
ones and zeros in bits that the chip does not have. The others are not compared. If all
values fit, `get_nrf_config` reads back what was configured.

## Main definitions

* `Settings`, `Reflects`: The registers that only the driver changes.
* `RadioCall.settings`: What a call does to them.
* `Fits`: A value that can be stored.

## Theorems

* `setBit_reflects`, `clearBit_reflects`: Single bits of `CONFIG`.
* `configureDevice_reflects`: What is configured.
* `session_settings`: The settings after any session.
* `configure_readBack`: What is read back.
-/

namespace NextLevelRTOS

open Acknowledge Bits Polling

/-- The bytes of the registers. -/
abbrev Settings := BitVec 5 → CharBuffer

namespace Settings

/-- `CONFIG` -/
def config (f : Settings) : Byte := f RegisterName.CONFIG.number 0

/-- The settings with another `CONFIG`. -/
def withConfig (value : Byte) (f : Settings) : Settings :=
  Function.update f RegisterName.CONFIG.number
    (Function.update (f RegisterName.CONFIG.number) 0 value)

/-- As many bytes as there are are stored in a register, as far as it has the bits. -/
def put (si : Silicon) (f : Settings) (register : RegisterName) (length : Nat)
    (payload : CharBuffer) : Settings :=
  Function.update f register.number fun t =>
    if t < length ∧ t < registerWidth register.number then
      mergeBits (si.bits register.number) (f register.number t) (payload t)
    else f register.number t

/-- A register is set as a whole. -/
def set (si : Silicon) (nrfRegs : RegisterFile) (f : Settings) (register : RegisterName) :
    Settings :=
  f.put si register (registerWidth register.number) (nrfRegs register)

end Settings

/-- The chip has these settings. -/
def Reflects (f : Settings) (s : Radio) : Prop :=
  ∀ number, ¬ Spontaneous number → s.registers number = f number

/-- The registers that `configure_device` sets, apart from `CONFIG`. -/
def configuredNames : List RegisterName :=
  [.RX_ADDR_P0, .RX_ADDR_P1, .RX_PW_P0, .RX_PW_P1, .TX_ADDR, .RF_CH, .RF_SETUP, .EN_AA,
    .EN_RXADDR, .SETUP_AW, .SETUP_RETR]

/-- The registers that `configure_device` compares. -/
def comparedNames : List RegisterName := [.RF_CH, .RF_SETUP, .SETUP_AW, .EN_RXADDR]

/-- `CONFIG` when it is through: powered, without CRC, and with the direction of the
    mode. -/
def configuredConfig (mode : OperatingMode) (config : Byte) : Byte :=
  match mode with
  | .SLAVE => (config ||| 0x03#8) &&& 0xF7#8
  | .MASTER => (config ||| 0x02#8) &&& 0xF6#8

/-- The settings that `configure_device` makes. -/
def Settings.configured (si : Silicon) (nrfRegs : RegisterFile) (mode : OperatingMode)
    (f : Settings) : Settings :=
  configuredNames.foldl (Settings.set si nrfRegs)
    (f.withConfig (configuredConfig mode (mergeBits 0x7F#8 f.config (nrfRegs .CONFIG 0))))

/-- What a call does to the settings. -/
def RadioCall.settings (si : Silicon) (f : Settings) : RadioCall → Settings
  | .enableRxAndListen => f.withConfig (f.config ||| 0x03#8)
  | .disableRx => f.withConfig ((f.config ||| 0x02#8) &&& 0xFE#8)
  | .nrfPowerOn => f.withConfig (f.config ||| 0x02#8)
  | .nrfPowerOff => f.withConfig (f.config &&& 0xFD#8)
  | .enableCrc => f.withConfig (f.config ||| 0x08#8)
  | .disableCrc => f.withConfig (f.config &&& 0xF7#8)
  | .configureDevice nrfRegs mode _ => f.configured si nrfRegs mode
  | _ => f

/-! ### Settings -/

section Settings

variable {si : Silicon} {f : Settings} {s : Radio}

theorem registerNames_all (register : RegisterName) : register ∈ registerNames := by
  cases register <;> decide

/-- A register is given by its number. -/
theorem number_inj {register register' : RegisterName} (h : register.number = register'.number) :
    register = register' :=
  List.inj_on_of_nodup_map (by decide) (registerNames_all register) (registerNames_all register') h

/-- A byte that has the old bits where the register has none is stored. -/
theorem mergeBits_of_agree {bits old new : Byte}
    (h : ∀ i < 8, bits.getLsbD i = false → new.getLsbD i = old.getLsbD i) :
    mergeBits bits old new = new := by
  apply BitVec.eq_of_getLsbD_eq
  intro i hi
  rw [mergeBits, BitVec.getLsbD_or, BitVec.getLsbD_and, BitVec.getLsbD_and, BitVec.getLsbD_not,
    decide_eq_true hi, Bool.true_and]
  cases hbit : bits.getLsbD i with
  | true => rw [Bool.not_true, Bool.and_false, Bool.and_true, Bool.false_or]
  | false => rw [h i hi hbit, Bool.not_false, Bool.and_true, Bool.and_false, Bool.or_false]

/-- `CONFIG` has no bit 7. -/
theorem configBits {i : Nat} (hi : i < 8) (h : (0x7F#8).getLsbD i = false) : i = 7 := by
  interval_cases i <;> first | rfl | exact absurd h (by decide)

theorem mergeBits_setBit (config : Byte) {n : Nat} (hn : n < 7) :
    mergeBits 0x7F#8 config (config ||| (1#8 <<< n)) = config ||| (1#8 <<< n) := by
  refine mergeBits_of_agree fun i hi h => ?_
  rw [getLsbD_setBit config (by omega), decide_eq_false (by have := configBits hi h; omega),
    Bool.or_false]

theorem mergeBits_clearBit (config : Byte) {n : Nat} (hn : n < 7) :
    mergeBits 0x7F#8 config (config &&& ~~~(1#8 <<< n)) = config &&& ~~~(1#8 <<< n) := by
  refine mergeBits_of_agree fun i hi h => ?_
  rw [getLsbD_clearBit config (by omega), decide_eq_false (by have := configBits hi h; omega),
    Bool.not_false, Bool.and_true]

/-- Storing a byte twice is storing it once. -/
theorem mergeBits_mergeBits (bits old new : Byte) :
    mergeBits bits (mergeBits bits old new) new = mergeBits bits old new := by
  apply BitVec.eq_of_getLsbD_eq
  intro i hi
  simp only [mergeBits, BitVec.getLsbD_or, BitVec.getLsbD_and, BitVec.getLsbD_not,
    decide_eq_true hi, Bool.true_and]
  cases bits.getLsbD i <;> simp only [Bool.not_true, Bool.not_false, Bool.and_true, Bool.and_false,
    Bool.or_false, Bool.false_or]

namespace Settings

variable {register register' : RegisterName} {length : Nat} {payload : CharBuffer} {value : Byte}

theorem withConfig_config (f : Settings) (value : Byte) : (f.withConfig value).config = value := by
  rw [config, withConfig, Function.update_self, Function.update_self]

theorem withConfig_withConfig (f : Settings) (value value' : Byte) :
    (f.withConfig value).withConfig value' = f.withConfig value' := by
  rw [withConfig, withConfig, withConfig, Function.update_idem, Function.update_self,
    Function.update_idem]

/-- `CONFIG` is put like any other register. -/
theorem put_config (payload : CharBuffer) : f.put si .CONFIG 1 payload =
    f.withConfig (mergeBits 0x7F#8 f.config (payload 0)) := by
  rw [put, withConfig, si.config]
  congr 1
  funext t
  by_cases ht : t = 0
  · rw [ht, if_pos ⟨Nat.one_pos, by decide⟩, Function.update_self]
    rfl
  · rw [if_neg fun hc => ht (Nat.lt_one_iff.mp hc.1), Function.update_of_ne ht]

theorem put_of_ne {number : BitVec 5} (hne : number ≠ register.number) :
    f.put si register length payload number = f number :=
  Function.update_of_ne hne _ _

theorem put_self (t : Nat) : f.put si register length payload register.number t =
    if t < length ∧ t < registerWidth register.number then
      mergeBits (si.bits register.number) (f register.number t) (payload t)
    else f register.number t := by
  rw [put, Function.update_self]

/-- Different registers are put in any order. -/
theorem put_comm {length' : Nat} {payload' : CharBuffer} (hne : register ≠ register') :
    (f.put si register length payload).put si register' length' payload' =
      (f.put si register' length' payload').put si register length payload := by
  have hnumber : register.number ≠ register'.number := fun hc => hne (number_inj hc)
  rw [put, put_of_ne hnumber.symm, put, put, put_of_ne hnumber, put]
  exact Function.update_comm hnumber _ _ _

theorem put_put : (f.put si register length payload).put si register length payload =
    f.put si register length payload := by
  funext number
  by_cases hnumber : number = register.number
  · rw [hnumber]
    funext t
    rw [put_self, put_self]
    split
    · exact mergeBits_mergeBits _ _ _
    · rfl
  · rw [put_of_ne hnumber]

theorem put_congr {payload' : CharBuffer} (h : ∀ t < length, payload t = payload' t) :
    f.put si register length payload = f.put si register length payload' := by
  rw [put, put]
  congr 1
  funext t
  split
  next ht => rw [h t ht.1]
  · rfl

theorem put_withConfig (hne : register ≠ .CONFIG) :
    (f.withConfig value).put si register length payload =
      (f.put si register length payload).withConfig value := by
  have hnumber : register.number ≠ RegisterName.CONFIG.number := fun hc => hne (number_inj hc)
  rw [put, withConfig, Function.update_of_ne hnumber, withConfig, put_of_ne hnumber.symm, put]
  exact Function.update_comm hnumber.symm _ _ _

/-- What is set once more behind is not needed in front. -/
theorem foldl_set_absorb (nrfRegs : RegisterFile) {registers : List RegisterName}
    (hmem : register ∈ registers) (f : Settings) :
    registers.foldl (set si nrfRegs) (f.set si nrfRegs register) =
      registers.foldl (set si nrfRegs) f := by
  induction registers generalizing f with
  | nil => exact absurd hmem List.not_mem_nil
  | cons register' registers ih =>
      rw [List.foldl_cons, List.foldl_cons]
      by_cases heq : register = register'
      · rw [heq, set, set, put_put]
      · have hrest := (List.mem_cons.mp hmem).resolve_left heq
        rw [← ih hrest (f.set si nrfRegs register'), set, set, put_comm heq]
        rfl

end Settings

end Settings

/-! ### What the accesses do to them -/

section Reflected

variable {si : Silicon} {stack : CharBuffer} {f : Settings} {s : Radio}
variable {register : RegisterName}

/-- The register is stored, and only the driver changes it. -/
def Stored (register : RegisterName) : Prop :=
  ¬ Spontaneous register.number ∧ register ≠ .FIFO_STATUS

/-- The chip by itself changes no setting. -/
theorem reflects_steady : Steady (Reflects f) :=
  ⟨fun e s hs number hquiet => (move_register e s hquiet).trans (hs number hquiet),
    fun _ _ hs => hs⟩

theorem read_stored (h : Reflects f s) (hstored : Stored register) (t : Nat) :
    s.read register.number t = f register.number t := by
  rw [Radio.read, if_neg fun hc => hstored.1 (Or.inl hc),
    if_neg fun hc => hstored.2 (number_inj hc), h _ hstored.1]

/-- A register is put. -/
theorem write_reflects (h : Reflects f s) (hstored : Stored register) (length : Nat)
    (payload : CharBuffer) : Reflects (f.put si register length payload)
      (s.write si register.number ((List.range length).map payload)) := by
  intro number hquiet
  by_cases hnumber : number = register.number
  · rw [hnumber]
    funext t
    rw [Settings.put_self, Radio.write]
    dsimp only
    rw [Function.update_self, List.length_map, List.length_range, h _ hstored.1]
    split
    next ht =>
      rw [if_neg fun hc => hstored.1 (Or.inl hc), List.getD_eq_getElem?_getD, List.getElem?_map,
        List.getElem?_range ht.1]
      rfl
    · rfl
  · rw [Settings.put_of_ne hnumber, ← h number hquiet]
    exact Function.update_of_ne hnumber _ _

/-- The flags are no settings. -/
theorem writeStatus_reflects (h : Reflects f s) (data : List Byte) :
    Reflects f (s.write si RegisterName.STATUS.number data) := by
  intro number hquiet
  rw [← h number hquiet]
  exact writeStatus_register (fun hc => hquiet (Or.inl hc)) data

/-- Where a driver waits is not looked at. -/
def Anywhere (_ : Radio) : Prop := True

theorem get_reflects (hstored : Stored register) : Triple Anywhere (Reflects f)
    (Radio.getNrfRegister si stack register)
    fun value s => value = f register.number 0 ∧ Reflects f s :=
  triple_get reflects_steady (fun _ _ => trivial) fun _ hs _ => ⟨read_stored hs hstored 0, hs⟩

theorem put_reflects (hstored : Stored register) {value : Byte} : Triple Anywhere (Reflects f)
    (Radio.replaceNrfRegister si stack register value)
    fun _ => Reflects (f.put si register 1 fun _ => value) :=
  triple_put reflects_steady (fun _ _ => trivial) fun _ hs => write_reflects hs hstored 1 _

theorem putLong_reflects (hstored : Stored register) {payload : CharBuffer} :
    Triple Anywhere (Reflects f) (Radio.setNrfRegisterLong si stack register payload)
      fun _ => Reflects (f.put si register 5 payload) := by
  refine triple_access reflects_steady.stable (fun _ _ => trivial) fun s hs => ?_
  rw [putRegister_eq register (by decide)]
  exact write_reflects hs hstored 5 payload

theorem config_stored : Stored .CONFIG := ⟨config_quiet, by decide⟩

/-- A bit of `CONFIG` is set. -/
theorem setBit_reflects {n : Nat} (hn : n < 7) : Triple Anywhere (Reflects f)
    (Radio.setBitNrfRegister si stack .CONFIG n)
    fun _ => Reflects (f.withConfig (f.config ||| (1#8 <<< n))) := by
  refine triple_bind (get_reflects config_stored) fun value => triple_assume ?_
  rintro rfl
  refine triple_mono (put_reflects config_stored) (fun _ hs => hs) fun _ s hs => ?_
  rw [Settings.put_config] at hs
  rwa [← mergeBits_setBit f.config hn]

/-- A bit of `CONFIG` is cleared. -/
theorem clearBit_reflects {n : Nat} (hn : n < 7) : Triple Anywhere (Reflects f)
    (Radio.clearBitNrfRegister si stack .CONFIG n)
    fun _ => Reflects (f.withConfig (f.config &&& ~~~(1#8 <<< n))) := by
  refine triple_bind (get_reflects config_stored) fun value => triple_assume ?_
  rintro rfl
  refine triple_mono (put_reflects config_stored) (fun _ hs => hs) fun _ s hs => ?_
  rw [Settings.put_config] at hs
  rwa [← mergeBits_clearBit f.config hn]

/-- The queues and the pin are no settings. -/
theorem reflects_calm : Calm si (Reflects f) :=
  { toSteady := reflects_steady
    status := fun _ data hs => writeStatus_reflects hs data
    ce := fun _ _ hs => hs
    rx := fun _ _ _ hs => hs
    flush := fun _ hs => hs }

theorem maintained_reflects {α : Type} {m : Driver RadioEvent Radio α}
    (h : Maintains (Reflects f) m) : Triple Anywhere (Reflects f) m fun _ => Reflects f :=
  triple_wait h fun _ _ => trivial

end Reflected

/-! ### What is configured -/

section Configured

variable {si : Silicon} {stack : CharBuffer} {f : Settings} {nrfRegs memory : RegisterFile}

theorem configuredNames_stored : ∀ register ∈ configuredNames, Stored register := by
  unfold Stored Spontaneous
  decide

theorem configuredNames_config : .CONFIG ∉ configuredNames := by decide

/-- A register of one byte is set. -/
theorem set_reflects {register : RegisterName} (hmem : register ∈ configuredNames)
    (hwidth : registerWidth register.number = 1) : Triple Anywhere (Reflects f)
      (Radio.replaceNrfRegister si stack register (nrfRegs register 0))
      fun _ => Reflects (f.set si nrfRegs register) := by
  have hbyte : f.set si nrfRegs register = f.put si register 1 fun _ => nrfRegs register 0 := by
    rw [Settings.set, hwidth]
    exact Settings.put_congr fun t ht => by rw [Nat.lt_one_iff.mp ht]
  rw [hbyte]
  exact put_reflects (configuredNames_stored register hmem)

/-- A register of five bytes is set. -/
theorem setLong_reflects {register : RegisterName} (hmem : register ∈ configuredNames)
    (hwidth : registerWidth register.number = 5) : Triple Anywhere (Reflects f)
      (Radio.setNrfRegisterLong si stack register (nrfRegs register))
      fun _ => Reflects (f.set si nrfRegs register) := by
  rw [Settings.set, hwidth]
  exact putLong_reflects (configuredNames_stored register hmem)

theorem writeConfiguration_reflects : Triple Anywhere (Reflects f)
    (Radio.writeConfiguration si stack nrfRegs)
    fun _ => Reflects (configuredNames.foldl (Settings.set si nrfRegs) f) :=
  triple_bind (setLong_reflects (by decide) rfl) fun _ =>
    triple_bind (setLong_reflects (by decide) rfl) fun _ =>
    triple_bind (set_reflects (by decide) rfl) fun _ =>
    triple_bind (set_reflects (by decide) rfl) fun _ =>
    triple_bind (setLong_reflects (by decide) rfl) fun _ =>
    triple_bind (set_reflects (by decide) rfl) fun _ =>
    triple_bind (set_reflects (by decide) rfl) fun _ =>
    triple_bind (set_reflects (by decide) rfl) fun _ =>
    triple_bind (set_reflects (by decide) rfl) fun _ =>
    triple_bind (set_reflects (by decide) rfl) fun _ =>
    set_reflects (by decide) rfl

theorem clearedBit (config : Byte) {n : Nat} (hn : n < 8) :
    (config &&& ~~~(1#8 <<< n)) &&& (1#8 <<< n) = 0#8 := by
  by_contra hc
  have hbit := (test_iff _ hn).mp hc
  rw [getLsbD_clearBit config hn, decide_eq_true rfl, Bool.not_true, Bool.and_false] at hbit
  exact Bool.noConfusion hbit

/-- The bit is cleared, so the function says that it is. -/
theorem disableCrc_reflects : Triple Anywhere (Reflects f) (Radio.disableCrc si stack)
    fun disabled s => disabled = 1 ∧
      Reflects (f.withConfig (f.config &&& ~~~(1#8 <<< 3))) s := by
  refine triple_bind (clearBit_reflects (by decide)) fun _ =>
    triple_bind (get_reflects config_stored) fun value => triple_assume fun hvalue => ?_
  have hclear : value &&& (1#8 <<< 3) = 0#8 := by
    rw [hvalue]
    exact (congrArg (· &&& (1#8 <<< 3)) (Settings.withConfig_config f _)).trans
      (clearedBit f.config (by decide))
  exact triple_pure fun _ hs => ⟨if_pos hclear, hs⟩

theorem enableCrc_reflects : Triple Anywhere (Reflects f) (Radio.enableCrc si stack)
    fun _ => Reflects (f.withConfig (f.config ||| (1#8 <<< 3))) :=
  triple_bind (setBit_reflects (by decide)) fun _ =>
    triple_bind (get_reflects config_stored) fun _ => triple_pure fun _ hs => hs.2

/-- The fields of the file that are settings are read as they are. -/
theorem readField_reflects {register : RegisterName} {field : CharBuffer} :
    Triple Anywhere (Reflects f) (Radio.readField si stack register field) fun field' s =>
      (Stored register → ∀ t < registerWidth register.number, field' t = f register.number t) ∧
        Reflects f s := by
  unfold Radio.readField
  split
  next hwidth =>
    refine triple_access reflects_steady.stable (fun _ _ => trivial) fun s hs => ?_
    rw [transfer_read register (by decide)]
    refine ⟨fun hstored t ht => ?_, hs⟩
    dsimp only
    rw [if_pos (hwidth ▸ ht), read_stored hs hstored]
  next hwidth =>
    refine triple_bind (Q := fun value s =>
      (Stored register → value = f register.number 0) ∧ Reflects f s)
      (triple_get reflects_steady (fun _ _ => trivial) fun s hs _ =>
        ⟨fun hstored => read_stored hs hstored 0, hs⟩) fun value => ?_
    refine triple_pure fun s hs => ⟨fun hstored t ht => ?_, hs.2⟩
    have hzero : t = 0 := by
      unfold registerWidth at hwidth ht
      split at hwidth
      · exact absurd rfl hwidth
      next hshort =>
        rw [if_neg hshort] at ht
        exact Nat.lt_one_iff.mp ht
    rw [hzero, Function.update_self]
    exact hs.1 hstored

/-- The file agrees with the settings in the registers that have been read. -/
def AgreesOn (registers : List RegisterName) (file : RegisterFile) (f : Settings) : Prop :=
  ∀ register ∈ registers, Stored register →
    ∀ t < registerWidth register.number, file register t = f register.number t

theorem readFields_reflects (registers : List RegisterName) : ∀ done file, AgreesOn done file f →
    Triple Anywhere (Reflects f) (Radio.readFields si stack registers file)
      fun file' s => AgreesOn (done ++ registers) file' f ∧ Reflects f s := by
  induction registers with
  | nil =>
      intro done file hdone
      rw [List.append_nil]
      exact triple_pure fun _ hs => ⟨hdone, hs⟩
  | cons register registers ih =>
      intro done file hdone
      refine triple_bind readField_reflects fun field => triple_assume fun hfield => ?_
      have hnext : AgreesOn (done ++ [register]) (Function.update file register field) f := by
        intro register' hmem hstored t ht
        by_cases heq : register' = register
        · rw [heq] at hstored ht ⊢
          rw [Function.update_self]
          exact hfield hstored t ht
        · rw [Function.update_of_ne heq]
          refine hdone register' ?_ hstored t ht
          exact (List.mem_append.mp hmem).resolve_right fun hc => heq (List.mem_singleton.mp hc)
      have hrest := ih _ _ hnext
      rw [List.append_assoc, List.singleton_append] at hrest
      exact hrest

/-- All settings are read. -/
theorem getNrfConfig_reflects : Triple Anywhere (Reflects f)
    (Radio.getNrfConfig si stack memory) fun file s =>
      AgreesOn registerNames file f ∧ Reflects f s :=
  readFields_reflects registerNames [] memory fun _ hmem => absurd hmem List.not_mem_nil

/-! ### All of it -/

/-- What was set is in none of the other registers. -/
theorem foldl_set_of_not_mem {registers : List RegisterName} {number : BitVec 5}
    (hout : ∀ register ∈ registers, number ≠ register.number) (f : Settings) :
    registers.foldl (Settings.set si nrfRegs) f number = f number := by
  induction registers generalizing f with
  | nil => rfl
  | cons register registers ih =>
      rw [List.foldl_cons, ih fun r hr => hout r (List.mem_cons_of_mem _ hr)]
      exact Settings.put_of_ne (hout register List.mem_cons_self)

/-- What was set is in its own register, as far as it fits. -/
theorem foldl_set_of_mem {registers : List RegisterName} (hnodup : registers.Nodup)
    {register : RegisterName} (hmem : register ∈ registers) {t : Nat}
    (ht : t < registerWidth register.number) (f : Settings) :
    registers.foldl (Settings.set si nrfRegs) f register.number t =
      mergeBits (si.bits register.number) (f register.number t) (nrfRegs register t) := by
  induction registers generalizing f with
  | nil => exact absurd hmem List.not_mem_nil
  | cons head registers ih =>
      rcases List.nodup_cons.mp hnodup with ⟨hhead, hrest⟩
      rw [List.foldl_cons]
      rcases List.mem_cons.mp hmem with rfl | hmem
      · have hlast : ∀ r ∈ registers, register.number ≠ r.number :=
          fun r hr hc => hhead (by rw [number_inj hc]; exact hr)
        rw [foldl_set_of_not_mem hlast, Settings.set, Settings.put_self, if_pos ⟨ht, ht⟩]
      · have hother : register.number ≠ head.number :=
          fun hc => hhead (by rw [← number_inj hc]; exact hmem)
        rw [ih hrest hmem, Settings.set, Settings.put_of_ne hother]

theorem configuredNames_numbers : ∀ register ∈ configuredNames,
    RegisterName.CONFIG.number ≠ register.number := by
  decide

theorem foldl_set_config (si : Silicon) (nrfRegs : RegisterFile) (f : Settings) :
    (configuredNames.foldl (Settings.set si nrfRegs) f).config = f.config := by
  rw [Settings.config, foldl_set_of_not_mem configuredNames_numbers]
  rfl

theorem foldl_set_withConfig {registers : List RegisterName} (hout : .CONFIG ∉ registers)
    (f : Settings) (value : Byte) :
    registers.foldl (Settings.set si nrfRegs) (f.withConfig value) =
      (registers.foldl (Settings.set si nrfRegs) f).withConfig value := by
  induction registers generalizing f with
  | nil => rfl
  | cons register registers ih =>
      rw [List.foldl_cons, List.foldl_cons,
        ← ih fun hc => hout (List.mem_cons_of_mem register hc), Settings.set,
        Settings.put_withConfig fun hc => hout (hc ▸ List.mem_cons_self)]
      rfl

/-- What the configured settings are. -/
theorem configured_apply (f : Settings) (mode : OperatingMode) {register : RegisterName}
    (hmem : register ∈ configuredNames) {t : Nat} (ht : t < registerWidth register.number) :
    f.configured si nrfRegs mode register.number t =
      mergeBits (si.bits register.number) (f register.number t) (nrfRegs register t) := by
  rw [Settings.configured, foldl_set_of_mem (by decide) hmem ht, Settings.withConfig,
    Function.update_of_ne (configuredNames_numbers register hmem).symm]

/-- `CONFIG` is written in four steps, the first of which does not matter. -/
theorem configuredConfig_eq (old new : Byte) :
    configuredConfig .SLAVE (mergeBits 0x7F#8 old new) =
      ((mergeBits 0x7F#8 (old &&& ~~~(1#8 <<< 1)) new ||| (1#8 <<< 0)) &&& ~~~(1#8 <<< 3)) |||
        (1#8 <<< 1) ∧
    configuredConfig .MASTER (mergeBits 0x7F#8 old new) =
      ((mergeBits 0x7F#8 (old &&& ~~~(1#8 <<< 1)) new &&& ~~~(1#8 <<< 0)) &&& ~~~(1#8 <<< 3)) |||
        (1#8 <<< 1) := by
  constructor <;> apply BitVec.eq_of_getLsbD_eq <;> intro i hi <;>
    simp only [configuredConfig, mergeBits] <;> interval_cases i <;> simp

/-- `CONFIG` behind the branch over the mode. -/
def directed (mode : OperatingMode) (config : Byte) : Byte :=
  match mode with
  | .SLAVE => config ||| (1#8 <<< 0)
  | .MASTER => config &&& ~~~(1#8 <<< 0)

theorem setDirection_reflects (mode : OperatingMode) :
    Triple Anywhere (Reflects f) (Radio.setDirection si stack mode)
      fun _ => Reflects (f.withConfig (directed mode f.config)) := by
  cases mode with
  | SLAVE => exact setBit_reflects (by decide)
  | MASTER => exact clearBit_reflects (by decide)

/-- The values that are compared are in the registers. -/
theorem readBack_reflects : Triple Anywhere (Reflects f) (Radio.readBack si stack nrfRegs memory)
    fun result s => (result = 1 ↔ ∀ register ∈ comparedNames,
      f register.number 0 = nrfRegs register 0) ∧ Reflects f s := by
  refine triple_bind getNrfConfig_reflects fun file => triple_assume fun hfile => ?_
  refine triple_pure fun s hs => ⟨?_, hs⟩
  have hread : ∀ register ∈ comparedNames, file register 0 = f register.number 0 := by
    intro register hmem
    refine hfile register (registerNames_all register) (configuredNames_stored register ?_) 0 ?_
    · revert register
      decide
    · revert register
      decide
  have hcompare : (∀ register ∈ comparedNames, f register.number 0 = nrfRegs register 0) ↔
      ∀ register ∈ comparedNames, file register 0 = nrfRegs register 0 :=
    forall₂_congr fun register hmem => by rw [hread register hmem]
  rw [hcompare]
  simp only [comparedNames, List.forall_mem_cons, List.not_mem_nil, false_implies, implies_true,
    and_true]
  split
  next hbad =>
    refine iff_of_false (by decide) ?_
    rintro ⟨hch, hsetup, haw, haddr⟩
    rcases hbad with hc | hc | hc | hc <;> exact hc (by assumption)
  next hgood =>
    rcases not_or.mp hgood with ⟨hch, hgood⟩
    rcases not_or.mp hgood with ⟨hsetup, hgood⟩
    rcases not_or.mp hgood with ⟨haw, haddr⟩
    exact iff_of_true rfl ⟨not_not.mp hch, not_not.mp hsetup, not_not.mp haw, not_not.mp haddr⟩

/-- The value is stored as it is, behind what the bits are that the register has not. -/
def Settings.Fits (si : Silicon) (f : Settings) (register : RegisterName) (t : Nat)
    (value : Byte) : Prop :=
  mergeBits (si.bits register.number) (f register.number t) value = value

/-- `CONFIG` is written while the chip is configured, and again when it is powered. -/
theorem configured_eq (mode : OperatingMode) :
    ((configuredNames.foldl (Settings.set si nrfRegs) f).withConfig
      ((directed mode (mergeBits 0x7F#8 (f.config &&& ~~~(1#8 <<< 1)) (nrfRegs .CONFIG 0)) &&&
        ~~~(1#8 <<< 3)) ||| (1#8 <<< 1))) = f.configured si nrfRegs mode := by
  rw [Settings.configured, foldl_set_withConfig configuredNames_config]
  congr 1
  rcases configuredConfig_eq f.config (nrfRegs .CONFIG 0) with ⟨hslave, hmaster⟩
  cases mode with
  | SLAVE => exact hslave.symm
  | MASTER => exact hmaster.symm

/-- The whole of `configure_device`: the settings, and the verdict. -/
theorem configureDevice_reflects (mode : OperatingMode) : Triple Anywhere (Reflects f)
    (Radio.configureDevice si stack nrfRegs mode memory) fun result s =>
      (result = 1 ↔ ∀ register ∈ comparedNames,
        f.Fits si register 0 (nrfRegs register 0)) ∧
        Reflects (f.configured si nrfRegs mode) s := by
  let a := mergeBits 0x7F#8 (f.config &&& ~~~(1#8 <<< 1)) (nrfRegs .CONFIG 0)
  let d := directed mode a &&& ~~~(1#8 <<< 3)
  refine triple_bind
    (maintained_reflects (maintains_ce reflects_steady (fun _ _ hs => hs) false)) fun _ =>
    triple_bind (clearBit_reflects (by decide)) fun _ =>
    triple_bind (Q := fun _ => Reflects (f.withConfig a)) ?_ fun _ =>
    triple_bind (Q := fun _ => Reflects (f.withConfig (directed mode a))) ?_ fun _ =>
    triple_bind (set_reflects (by decide) rfl) fun _ =>
    triple_bind (Q := fun disabled s => disabled = 1 ∧
      Reflects ((f.withConfig d).set si nrfRegs .EN_RXADDR) s) ?_ fun disabled => ?_
  · refine triple_mono (put_reflects config_stored) (fun _ hs => hs) fun _ s hs => ?_
    rwa [Settings.put_config, Settings.withConfig_config, Settings.withConfig_withConfig] at hs
  · refine triple_mono (setDirection_reflects mode) (fun _ hs => hs) fun _ s hs => ?_
    rwa [Settings.withConfig_config, Settings.withConfig_withConfig] at hs
  · refine triple_mono disableCrc_reflects (fun _ hs => hs) fun disabled s hs => ⟨hs.1, ?_⟩
    have hset : (f.withConfig (directed mode a)).set si nrfRegs .EN_RXADDR =
        (f.set si nrfRegs .EN_RXADDR).withConfig (directed mode a) :=
      Settings.put_withConfig (by decide)
    rw [hset, Settings.withConfig_config, Settings.withConfig_withConfig] at hs
    rw [Settings.set, Settings.put_withConfig (by decide)]
    exact hs.2
  · refine triple_assume fun hdisabled => ?_
    rw [hdisabled, if_neg Nat.one_ne_zero]
    refine triple_bind (Q := fun _ => Reflects
        ((configuredNames.foldl (Settings.set si nrfRegs) f).withConfig d))
      (triple_mono writeConfiguration_reflects (fun _ hs => hs) fun _ s hs => ?_) fun _ =>
      triple_bind (Q := fun _ => Reflects (f.configured si nrfRegs mode))
        (triple_mono (setBit_reflects (by decide)) (fun _ hs => hs) fun _ s hs => ?_) fun _ =>
      triple_mono readBack_reflects (fun _ hs => hs) fun result s hs => ⟨?_, hs.2⟩
    · -- The register that was written before is written again.
      rwa [Settings.foldl_set_absorb nrfRegs (by decide),
        foldl_set_withConfig configuredNames_config] at hs
    · rw [Settings.withConfig_config, Settings.withConfig_withConfig, configured_eq] at hs
      exact hs
    · rw [hs.1]
      refine forall₂_congr fun register hmem => ?_
      have hwritten : register ∈ configuredNames ∧ 0 < registerWidth register.number := by
        revert register
        decide
      rw [configured_apply f mode hwritten.1 hwritten.2, Settings.Fits]

end Configured

/-! ### Sessions -/

section Session

variable {si : Silicon} {stack : CharBuffer} {timeToSettle : Word} {f : Settings}

/-- A payload is no setting. -/
theorem load_reflects (length : Nat) (payload : CharBuffer) : Maintains (Reflects f)
    (Radio.loadTxBuffer si stack length payload) := by
  refine maintains_bind (maintains_get reflects_steady) fun fifoStatus => ?_
  split
  · exact maintains_pure
  · refine maintains_bind (maintains_access reflects_steady.stable fun s hs => ?_) fun _ =>
      maintains_bind (triple_note fun _ hs => hs) fun _ => maintains_pure
    rcases payload_wire stack length payload with ⟨data, hwire, _⟩
    change Reflects f (s.execute si (transfer (-1) (length + 1) .WTxPayload payload stack stack).1)
    rw [hwire, Radio.execute, if_pos rfl]
    split <;> exact hs

theorem setBit_withConfig {n : Nat} (hn : n < 7) (value : Byte) :
    Triple Anywhere (Reflects (f.withConfig value)) (Radio.setBitNrfRegister si stack .CONFIG n)
      fun _ => Reflects (f.withConfig (value ||| (1#8 <<< n))) := by
  refine triple_mono (setBit_reflects hn) (fun _ hs => hs) fun _ s hs => ?_
  rwa [Settings.withConfig_config, Settings.withConfig_withConfig] at hs

theorem clearBit_withConfig {n : Nat} (hn : n < 7) (value : Byte) :
    Triple Anywhere (Reflects (f.withConfig value)) (Radio.clearBitNrfRegister si stack .CONFIG n)
      fun _ => Reflects (f.withConfig (value &&& ~~~(1#8 <<< n))) := by
  refine triple_mono (clearBit_reflects hn) (fun _ hs => hs) fun _ s hs => ?_
  rwa [Settings.withConfig_config, Settings.withConfig_withConfig] at hs

/-- Switching the direction, bit by bit. -/
theorem directionBits (config : Byte) :
    ((config &&& ~~~(1#8 <<< 1)) ||| (1#8 <<< PRIM_RX)) ||| (1#8 <<< 1) = config ||| 0x03#8 ∧
    ((config &&& ~~~(1#8 <<< 1)) &&& ~~~(1#8 <<< PRIM_RX)) ||| (1#8 <<< 1) =
      (config ||| 0x02#8) &&& 0xFE#8 := by
  constructor <;> apply BitVec.eq_of_getLsbD_eq <;> intro i hi <;> simp only [PRIM_RX] <;>
    interval_cases i <;> simp

theorem enableRx_reflects : Triple Anywhere (Reflects f) (Radio.enableRxAndListen si stack)
    fun _ => Reflects (f.withConfig (f.config ||| 0x03#8)) := by
  rw [← (directionBits f.config).1]
  exact triple_bind (clearBit_reflects (by decide)) fun _ =>
    triple_bind (setBit_withConfig (by decide) _) fun _ =>
    triple_bind (setBit_withConfig (by decide) _) fun _ =>
    maintained_reflects (maintains_ce reflects_steady (fun _ _ hs => hs) true)

theorem disableRx_reflects : Triple Anywhere (Reflects f) (Radio.disableRx si stack)
    fun _ => Reflects (f.withConfig ((f.config ||| 0x02#8) &&& 0xFE#8)) := by
  rw [← (directionBits f.config).2]
  exact triple_bind (clearBit_reflects (by decide)) fun _ =>
    triple_bind (clearBit_withConfig (by decide) _) fun _ =>
    triple_bind (setBit_withConfig (by decide) _) fun _ =>
    maintained_reflects (maintains_ce reflects_steady (fun _ _ hs => hs) false)

theorem ignore_reflects {α : Type} {m : Driver RadioEvent Radio α} {g : Settings}
    (h : Triple Anywhere (Reflects f) m fun _ => Reflects g) :
    Triple Anywhere (Reflects f) (ignore m) fun _ => Reflects g :=
  triple_bind h fun _ => triple_pure fun _ hs => hs

/-- What a call does to the settings. -/
theorem perform_reflects (call : RadioCall) : Triple Anywhere (Reflects f)
    (call.perform si stack timeToSettle) fun _ => Reflects (call.settings si f) := by
  cases call with
  | loadTxBuffer length payload =>
      exact ignore_reflects (maintained_reflects (load_reflects length payload))
  | enableRxAndListen => exact enableRx_reflects
  | disableRx => exact disableRx_reflects
  | nrfPowerOn => exact setBit_reflects (by decide)
  | nrfPowerOff => exact clearBit_reflects (by decide)
  | enableCrc => exact ignore_reflects enableCrc_reflects
  | disableCrc =>
      exact ignore_reflects (triple_mono disableCrc_reflects (fun _ hs => hs) fun _ _ hs => hs.2)
  | configureDevice nrfRegs mode memory =>
      exact ignore_reflects (triple_mono (configureDevice_reflects mode) (fun _ hs => hs)
        fun _ _ hs => hs.2)
  | _ => exact maintained_reflects (maintains_calm reflects_calm rfl)

end Session

/-- After any session the registers of the configuration are what the calls have made of
    them, one after the other, whatever the chip has done by itself. -/
theorem session_settings (si : Silicon) (stack : CharBuffer) (timeToSettle : Word)
    (calls : List RadioCall) (sched rest : List (List RadioEvent)) (s s' : Radio)
    (hdone : session si stack timeToSettle calls sched s = .done () rest s') :
    Reflects (calls.foldl (RadioCall.settings si) s.registers) s' := by
  let Inv : List RadioCall → List RadioCall → Radio → Prop := fun before _ =>
    Reflects (before.foldl (RadioCall.settings si) s.registers)
  have hbody : ∀ before call after, Triple Anywhere (Inv before (call :: after))
      (call.perform si stack timeToSettle) fun _ => Inv (before ++ [call]) after := by
    intro before call after
    refine triple_mono (perform_reflects call) (fun _ hs => hs) fun _ t ht => ?_
    simp only [Inv, List.foldl_append, List.foldl_cons, List.foldl_nil]
    exact ht
  have hsession := triple_each Inv hbody [] calls sched s fun _ _ => rfl
  rw [session] at hdone
  rw [hdone] at hsession
  exact hsession

/-! ### That they end -/

section Straight

variable {si : Silicon} {stack : CharBuffer}
variable {register : RegisterName} {nrfRegs memory : RegisterFile}

/-- Without a busy wait a driver ends, after `n` accesses at most. -/
def Straight (n : Nat) {α : Type} (m : Driver RadioEvent Radio α) : Prop :=
  Completes (fun _ => True) n Anywhere m fun _ => Anywhere

theorem straight_done {α : Type} {n : Nat} {m : Driver RadioEvent Radio α} (h : Straight n m)
    {sched : List (List RadioEvent)} (s : Radio) (hlong : n ≤ sched.length) :
    ∃ a rest s', m sched s = .done a rest s' ∧ sched.length ≤ rest.length + n := by
  rcases h sched s trivial (countP_all sched ▸ hlong) with ⟨a, rest, s', hdone, _, hleft⟩
  rw [countP_all, countP_all] at hleft
  exact ⟨a, rest, s', hdone, hleft⟩

theorem straight_pure {α : Type} {a : α} {n : Nat} :
    Straight n (pure a : Driver RadioEvent Radio α) :=
  completes_mono (completes_pure fun _ _ => trivial) (Nat.zero_le n) (fun _ hs => hs)
    fun _ _ hs => hs

theorem straight_bind {α β : Type} {n k : Nat} {m : Driver RadioEvent Radio α}
    {f : α → Driver RadioEvent Radio β} (hm : Straight n m)
    (hf : ∀ a, Straight k (f a)) : Straight (n + k) (m >>= f) :=
  completes_bind hm hf

theorem straight_access {α : Type} {f : Radio → α × Radio} :
    Straight 1 (access Radio.move f) :=
  completes_access (fun _ _ _ => trivial) fun _ _ => trivial

theorem straight_setBit {n : Nat} : Straight 2 (Radio.setBitNrfRegister si stack register n) :=
  straight_bind straight_access fun _ => straight_access

theorem straight_clearBit {n : Nat} :
    Straight 2 (Radio.clearBitNrfRegister si stack register n) :=
  straight_bind straight_access fun _ => straight_access

theorem straight_readField {field : CharBuffer} :
    Straight 1 (Radio.readField si stack register field) := by
  unfold Radio.readField
  split
  · exact straight_access
  · exact straight_bind (k := 0) straight_access fun _ => straight_pure

theorem straight_readFields (registers : List RegisterName) :
    ∀ file, Straight registers.length (Radio.readFields si stack registers file) := by
  induction registers with
  | nil => exact fun _ => straight_pure
  | cons register registers ih =>
      intro file
      rw [List.length_cons, Nat.add_comm]
      exact straight_bind straight_readField fun field => ih _

/-- `configure_device` takes 49 accesses at most, 26 of which read the registers. -/
theorem straight_configureDevice (mode : OperatingMode) :
    Straight 49 (Radio.configureDevice si stack nrfRegs mode memory) := by
  have hmode : Straight 2 (Radio.setDirection si stack mode) := by
    cases mode with
    | SLAVE => exact straight_setBit
    | MASTER => exact straight_clearBit
  have hcrc : Straight 3 (Radio.disableCrc si stack) :=
    straight_bind (n := 2) (k := 1) straight_clearBit fun _ =>
      straight_bind (k := 0) straight_access fun _ => straight_pure
  have hwrites : Straight 11 (Radio.writeConfiguration si stack nrfRegs) :=
    straight_bind (k := 10) straight_access fun _ =>
      straight_bind (k := 9) straight_access fun _ =>
      straight_bind (k := 8) straight_access fun _ =>
      straight_bind (k := 7) straight_access fun _ =>
      straight_bind (k := 6) straight_access fun _ =>
      straight_bind (k := 5) straight_access fun _ =>
      straight_bind (k := 4) straight_access fun _ =>
      straight_bind (k := 3) straight_access fun _ =>
      straight_bind (k := 2) straight_access fun _ =>
      straight_bind (k := 1) straight_access fun _ => straight_access
  have hread : Straight 26 (Radio.readBack si stack nrfRegs memory) :=
    straight_bind (k := 0) (straight_readFields registerNames memory) fun _ => straight_pure
  refine straight_bind (n := 1) (k := 48) straight_access fun _ =>
    straight_bind (n := 2) (k := 46) straight_clearBit fun _ =>
    straight_bind (n := 1) (k := 45) straight_access fun _ =>
    straight_bind (n := 2) (k := 43) hmode fun _ =>
    straight_bind (n := 1) (k := 42) straight_access fun _ =>
    straight_bind (n := 3) (k := 39) hcrc fun disabled => ?_
  split
  · exact straight_pure
  · exact straight_bind (n := 11) (k := 28) hwrites fun _ =>
      straight_bind (n := 2) (k := 26) straight_setBit fun _ => hread

end Straight

/-- A chip is made a receiver. -/
theorem session_settings_listening : ∃ rest s',
    session plainSilicon zeros 0#32 [.enableRxAndListen] (List.replicate 7 [.start, .finish])
      restingRadio = .done () rest s' ∧
    Reflects ([.enableRxAndListen].foldl (RadioCall.settings plainSilicon)
      restingRadio.registers) s' := by
  have hce : Straight 1 setCe := straight_access
  have hcall : Straight 7 (Radio.enableRxAndListen plainSilicon zeros) :=
    straight_bind (n := 2) (k := 5) straight_clearBit fun _ =>
      straight_bind (n := 2) (k := 3) straight_setBit fun _ =>
      straight_bind (n := 2) (k := 1) straight_setBit fun _ => hce
  have hsession : Straight 7
      (session plainSilicon zeros 0#32 [.enableRxAndListen]) :=
    straight_bind (k := 0) hcall fun _ => straight_pure
  have hlong : 7 ≤ (List.replicate 7 [RadioEvent.start, .finish]).length := by decide
  rcases straight_done hsession restingRadio hlong with ⟨_, rest, s', hdone, _⟩
  exact ⟨rest, s', hdone, session_settings plainSilicon zeros 0#32 _ _ rest restingRadio s' hdone⟩

/-- The configuration is made, and read back. -/
def configureAndRead (si : Silicon) (stack : CharBuffer) (nrfRegs : RegisterFile)
    (mode : OperatingMode) (memory currentNrfConfig : RegisterFile) :
    Driver RadioEvent Radio (Nat × RegisterFile) := do
  let result ← Radio.configureDevice si stack nrfRegs mode memory
  let file ← Radio.getNrfConfig si stack currentNrfConfig
  pure (result, file)

/-- `configure_device` ends after 49 accesses at most, and succeeds exactly if the values
    of the four registers that it compares fit into them. Every value that fits is read
    back afterwards, and `CONFIG` says that the chip is powered, has its CRC off and the
    direction of the mode. -/
theorem configure_readBack (si : Silicon) (stack : CharBuffer) (nrfRegs : RegisterFile)
    (mode : OperatingMode) (memory currentNrfConfig : RegisterFile)
    (sched : List (List RadioEvent)) (s : Radio) :
    (49 ≤ sched.length → ∃ result rest s',
      Radio.configureDevice si stack nrfRegs mode memory sched s = .done result rest s' ∧
        sched.length ≤ rest.length + 49) ∧
    (75 ≤ sched.length → ∃ result file rest s',
      configureAndRead si stack nrfRegs mode memory currentNrfConfig sched s =
        .done (result, file) rest s' ∧
      (result = 1 ↔ ∀ register ∈ comparedNames,
        Settings.Fits si s.registers register 0 (nrfRegs register 0)) ∧
      (∀ register ∈ configuredNames, ∀ t < registerWidth register.number,
        Settings.Fits si s.registers register t (nrfRegs register t) →
          file register t = nrfRegs register t) ∧
      file .CONFIG 0 =
        configuredConfig mode (mergeBits 0x7F#8 s.config (nrfRegs .CONFIG 0))) := by
  refine ⟨fun hlong => straight_done (straight_configureDevice mode) s hlong, fun hlong => ?_⟩
  let f : Settings := s.registers
  have hrun : Triple Anywhere (Reflects f)
      (configureAndRead si stack nrfRegs mode memory currentNrfConfig) fun read s =>
        (read.1 = 1 ↔ ∀ register ∈ comparedNames, f.Fits si register 0 (nrfRegs register 0)) ∧
          AgreesOn registerNames read.2 (f.configured si nrfRegs mode) :=
    triple_bind (configureDevice_reflects mode) fun result => triple_assume fun hresult =>
      triple_bind getNrfConfig_reflects fun file => triple_pure fun s hs => ⟨hresult, hs.1⟩
  have hends : Straight 75
      (configureAndRead si stack nrfRegs mode memory currentNrfConfig) :=
    straight_bind (n := 49) (k := 26) (straight_configureDevice mode) fun _ =>
      straight_bind (n := 26) (k := 0) (straight_readFields registerNames _) fun _ => straight_pure
  rcases straight_done hends s hlong with ⟨⟨result, file⟩, rest, s', hdone, _⟩
  have hread := hrun sched s fun _ _ => rfl
  rw [hdone] at hread
  obtain ⟨hresult, hfile⟩ : _ ∧ AgreesOn registerNames file (f.configured si nrfRegs mode) := hread
  refine ⟨result, file, rest, s', hdone, hresult, fun register hmem t ht hfits => ?_, ?_⟩
  · have hstored := configuredNames_stored register hmem
    rw [hfile register (registerNames_all register) hstored t ht, configured_apply f mode hmem ht]
    exact hfits
  · rw [hfile .CONFIG (registerNames_all .CONFIG) config_stored 0 (by decide)]
    have hconfig := foldl_set_config si nrfRegs (f.withConfig
      (configuredConfig mode (mergeBits 0x7F#8 f.config (nrfRegs .CONFIG 0))))
    rw [Settings.withConfig_config] at hconfig
    exact hconfig

/-- Values for a receiver. -/
def receiverValues : RegisterFile
  | .RF_CH => fun _ => 3#8
  | .RF_SETUP => fun _ => 6#8
  | .SETUP_AW => fun _ => 3#8
  | .EN_RXADDR => fun _ => 3#8
  | _ => zeros

theorem configure_readBack_receiver : ∃ result file rest s',
    configureAndRead plainSilicon zeros receiverValues .SLAVE (fun _ => zeros) (fun _ => zeros)
      (List.replicate 75 [.start, .finish]) restingRadio = .done (result, file) rest s' ∧
    result = 1 ∧ file .CONFIG 0 = 0x03#8 := by
  rcases (configure_readBack plainSilicon zeros receiverValues .SLAVE (fun _ => zeros)
    (fun _ => zeros) (List.replicate 75 [.start, .finish]) restingRadio).2 (by decide) with
    ⟨result, file, rest, s', hdone, hresult, _, hconfig⟩
  refine ⟨result, file, rest, s', hdone, hresult.mpr ?_, hconfig.trans (by decide)⟩
  unfold Settings.Fits
  decide

end NextLevelRTOS
