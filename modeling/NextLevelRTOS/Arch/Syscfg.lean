import Mathlib.Tactic.IntervalCases
import NextLevelRTOS.Lib.Fields
import NextLevelRTOS.Memory.Entry

/-!
# EXTI Sources

`syscfg_exti_config_0_3` connects the EXTI line of a pin with a port. The four
registers hold four fields of four bits each. The function chooses the register of
the pin, but shifts by four times the number of the pin in every one of them, and
only sets bits.

So for the pins 0 to 3 the field holds the bits of all ports there have been. For the
pins 4 to 7 the bits go behind the fields, and for the others, with a shift by 32 or
more, nowhere: what such a shift gives is left open by the language and zero on this
target.

## Main definitions

* `SysCfgRegisters`: The registers.
* `syscfgExtiConfig03`: The function.
* `SysCfgRegisters.source`: The field of a pin.
* `SourcesConfigured`: Every pin has the port of the last call for it.
* `PortFits`: The port last asked for can be had.

## Theorems

* `source_apply`: What a call does to a field.
* `sources_configured_iff`: When every pin has its port.
-/

namespace NextLevelRTOS

open Fields

/-- `SysCfgRegisterMap_t`, the registers for the EXTI lines. -/
structure SysCfgRegisters where
  exticr1 : Word
  exticr2 : Word
  exticr3 : Word
  exticr4 : Word
  deriving DecidableEq, Repr

/-- `PAx` to `PEx`. -/
def portMap : Char → Option (BitVec 4)
  | 'A' => some 0#4
  | 'B' => some 1#4
  | 'C' => some 2#4
  | 'D' => some 3#4
  | 'E' => some 4#4
  | _ => none

/-- `syscfg_exti_config_0_3`, for a pin below 16: the result and the registers. -/
def syscfgExtiConfig03 (pin : Fin 16) (port : Char) (syscfgRegs : SysCfgRegisters) :
    Int × SysCfgRegisters :=
  let shift := pin.val * 4
  match portMap port with
  | none => (-1, syscfgRegs)
  | some bits =>
    let value : Word := bits.setWidth 32 <<< shift
    if pin.val < 4 then
      (1, { syscfgRegs with exticr1 := syscfgRegs.exticr1 ||| value })
    else if pin.val < 8 then
      (1, { syscfgRegs with exticr2 := syscfgRegs.exticr2 ||| value })
    else if pin.val < 12 then
      (1, { syscfgRegs with exticr3 := syscfgRegs.exticr3 ||| value })
    else
      (1, { syscfgRegs with exticr4 := syscfgRegs.exticr4 ||| value })

/-- A call. -/
structure ExtiCall where
  pin : Fin 16
  port : Char
  deriving DecidableEq, Repr

namespace ExtiCall

/-- What it does. -/
def apply (syscfgRegs : SysCfgRegisters) (call : ExtiCall) : SysCfgRegisters :=
  (syscfgExtiConfig03 call.pin call.port syscfgRegs).2

/-- The port that it asks for, for a pin. -/
def portFor (pin : Fin 16) (call : ExtiCall) : Option (BitVec 4) :=
  if call.pin = pin then portMap call.port else none

end ExtiCall

namespace SysCfgRegisters

/-- The registers one after the other. -/
def register (n : Nat) (syscfgRegs : SysCfgRegisters) : Word :=
  match n with
  | 0 => syscfgRegs.exticr1
  | 1 => syscfgRegs.exticr2
  | 2 => syscfgRegs.exticr3
  | _ => syscfgRegs.exticr4

/-- The field of a pin: four bits in the register of the four pins around it. -/
def source (pin : Fin 16) (syscfgRegs : SysCfgRegisters) : BitVec 4 :=
  field 4 (syscfgRegs.register (pin.val / 4)) (pin.val % 4)

end SysCfgRegisters

/-- After the calls the field of every pin holds the port of the last call for it, or
    what it held before, and a call for another port is rejected and changes nothing. -/
structure SourcesConfigured (calls : List ExtiCall) (syscfgRegs : SysCfgRegisters) : Prop where
  sources : ∀ pin, (calls.foldl ExtiCall.apply syscfgRegs).source pin =
    last (ExtiCall.portFor pin) calls (syscfgRegs.source pin)
  rejects : ∀ pin port syscfgRegs, portMap port = none →
    syscfgExtiConfig03 pin port syscfgRegs = (-1, syscfgRegs)

/-- The port last asked for can be had: for the pins 0 to 3 it has all bits of the
    ports before it and of the initial field, and for the others it is what the field
    held from the beginning. -/
def PortFits (calls : List ExtiCall) (syscfgRegs : SysCfgRegisters) (pin : Fin 16) : Prop :=
  let port := last (ExtiCall.portFor pin) calls (syscfgRegs.source pin)
  if pin.val < 4 then
    syscfgRegs.source pin ||| port = port ∧
      ∀ call ∈ calls, ∀ bits, call.portFor pin = some bits → bits ||| port = port
  else port = syscfgRegs.source pin

section Calls

/-- A call sets bits in the register of its pin. -/
theorem register_apply (syscfgRegs : SysCfgRegisters) {call : ExtiCall} {bits : BitVec 4}
    (hport : portMap call.port = some bits) {n : Nat} (hn : n < 4) :
    (call.apply syscfgRegs).register n =
      if n = call.pin.val / 4 then
        syscfgRegs.register n ||| (bits.setWidth 32 <<< (call.pin.val * 4))
      else syscfgRegs.register n := by
  have hpin := call.pin.isLt
  unfold ExtiCall.apply syscfgExtiConfig03
  rw [hport]
  dsimp only
  -- The branches choose the register by the number of the pin, four pins each.
  by_cases h1 : call.pin.val < 4
  · rw [if_pos h1, show call.pin.val / 4 = 0 by omega]
    interval_cases n <;> rfl
  · rw [if_neg h1]
    by_cases h2 : call.pin.val < 8
    · rw [if_pos h2, show call.pin.val / 4 = 1 by omega]
      interval_cases n <;> rfl
    · rw [if_neg h2]
      by_cases h3 : call.pin.val < 12
      · rw [if_pos h3, show call.pin.val / 4 = 2 by omega]
        interval_cases n <;> rfl
      · rw [if_neg h3, show call.pin.val / 4 = 3 by omega]
        interval_cases n <;> rfl

/-- What a call does to the field of a pin. -/
theorem source_apply (pin : Fin 16) (syscfgRegs : SysCfgRegisters) (call : ExtiCall) :
    (call.apply syscfgRegs).source pin =
      if pin.val < 4 then joinWith (ExtiCall.portFor pin) (syscfgRegs.source pin) call
      else syscfgRegs.source pin := by
  have hpin := pin.isLt
  cases hport : portMap call.port with
  | none =>
      have hsame : call.apply syscfgRegs = syscfgRegs := by
        rw [ExtiCall.apply, syscfgExtiConfig03, hport]
      have hnone : ExtiCall.portFor pin call = none := by
        rw [ExtiCall.portFor, hport, ite_self]
      rw [hsame, joinWith, hnone, ite_self]
  | some bits =>
      rw [SysCfgRegisters.source, SysCfgRegisters.source, joinWith, ExtiCall.portFor, hport,
        register_apply syscfgRegs hport (by omega)]
      by_cases hown : call.pin = pin
      · rw [if_pos hown, hown, if_pos rfl, field_or (by omega)]
        by_cases hlow : pin.val < 4
        · rw [if_pos hlow, if_pos (Nat.mod_eq_of_lt hlow)]
        -- From pin 4 on the bits go behind the fields.
        · rw [if_neg hlow, if_neg (by omega)]
      · have hne : call.pin.val ≠ pin.val := fun hc => hown (Fin.ext hc)
        rw [if_neg hown]
        dsimp only
        rw [ite_self]
        by_cases hblock : pin.val / 4 = call.pin.val / 4
        · rw [if_pos hblock, field_or (by omega), if_neg (by omega)]
        · rw [if_neg hblock]

/-- The field of a pin after a run of calls. -/
theorem source_run (pin : Fin 16) (calls : List ExtiCall) (syscfgRegs : SysCfgRegisters) :
    (calls.foldl ExtiCall.apply syscfgRegs).source pin =
      if pin.val < 4 then
        calls.foldl (joinWith (ExtiCall.portFor pin)) (syscfgRegs.source pin)
      else syscfgRegs.source pin := by
  by_cases hlow : pin.val < 4
  · rw [if_pos hlow]
    refine foldl_joined (fun s call => ?_) calls syscfgRegs
    rw [source_apply, if_pos hlow]
  · rw [if_neg hlow]
    induction calls generalizing syscfgRegs with
    | nil => rfl
    | cons call calls ih => rw [List.foldl_cons, ih, source_apply, if_neg hlow]

/-- A pin has the port last asked for exactly if it can be had. -/
theorem source_configured_iff (pin : Fin 16) (calls : List ExtiCall)
    (syscfgRegs : SysCfgRegisters) :
    (calls.foldl ExtiCall.apply syscfgRegs).source pin =
      last (ExtiCall.portFor pin) calls (syscfgRegs.source pin) ↔
    PortFits calls syscfgRegs pin := by
  rw [source_run, PortFits]
  by_cases hlow : pin.val < 4
  · rw [if_pos hlow, if_pos hlow]
    exact joined_eq_last_iff calls (syscfgRegs.source pin)
  · rw [if_neg hlow, if_neg hlow]
    exact eq_comm

theorem syscfgExtiConfig03_rejects (pin : Fin 16) {port : Char} (syscfgRegs : SysCfgRegisters)
    (hport : portMap port = none) : syscfgExtiConfig03 pin port syscfgRegs = (-1, syscfgRegs) := by
  rw [syscfgExtiConfig03, hport]

end Calls

/-- For every sequence of calls and every register contents: every pin has the port
    that was last asked for exactly if for each of them this port can be had. -/
theorem sources_configured_iff (calls : List ExtiCall) (syscfgRegs : SysCfgRegisters) :
    SourcesConfigured calls syscfgRegs ↔ ∀ pin, PortFits calls syscfgRegs pin := by
  constructor
  · intro h pin
    exact (source_configured_iff pin calls syscfgRegs).mp (h.sources pin)
  · intro h
    exact ⟨fun pin => (source_configured_iff pin calls syscfgRegs).mpr (h pin),
      fun pin port syscfgRegs hport => syscfgExtiConfig03_rejects pin syscfgRegs hport⟩

/-- No line is connected. -/
def blankSysCfg : SysCfgRegisters :=
  { exticr1 := 0#32, exticr2 := 0#32, exticr3 := 0#32, exticr4 := 0#32 }

/-- The line of pin 4 is to be connected with port B. -/
theorem source_not_configured : ¬ SourcesConfigured [{ pin := 4, port := 'B' }] blankSysCfg := by
  intro h
  exact absurd (h.sources 4) (by decide)

end NextLevelRTOS
