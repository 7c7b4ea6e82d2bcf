import Mathlib.Data.List.Induction
import NextLevelRTOS.Lib.Fields
import NextLevelRTOS.Memory.Entry

/-!
# Pin Configuration

The setters of the GPIO driver. Each clears the field of its pin under a mask and
sets the value. The mode, the speed and the pull of a pin have two bits, its alternate
function has four, and all of these are written under a mask of their width. The
output type has one bit but is written under a mask of two, so the next pin becomes
push-pull.

This does no harm where the next pin is push-pull anyway, or where its output type is
set again later.

## Main definitions

* `GpioRegisters`: The registers.
* `setModer`, `intoAf`, `setSpeed`, `setPupdr`, `setOtyper`: The functions.
* `GpioCall`, `configure`: Calls of them.
* `PinsIndependent`: Every pin has what was last set for it.
* `neighbourLast`: The last call that reaches an output type is one for the pin before.

## Theorems

* `setModer_eq`, `intoAf_eq`: The setters write a field.
* `otyper_configure`: What is left of an output type.
* `pins_independent_iff`: When the pins are independent.
-/

namespace NextLevelRTOS

open Fields

/-- `GpioRegisters_t`, as far as pins are configured. -/
structure GpioRegisters where
  moder : Word
  otyper : Word
  ospeedr : Word
  pupdr : Word
  afrl : Word
  afrh : Word
  deriving DecidableEq, Repr

/-- `ModerTypes_t` -/
inductive ModerTypes where
  | InputMode
  | GeneralPurposeOutputMode
  | AlternateFunctionMode
  | AnalogMode
  deriving DecidableEq, Repr

/-- `SpeedModes_t` -/
inductive SpeedModes where
  | Low
  | Medium
  | Fast
  | High
  deriving DecidableEq, Repr

/-- `PullTypes_t` -/
inductive PullTypes where
  | Nothing
  | PullUp
  | PullDown
  deriving DecidableEq, Repr

/-- `OutputTypes_t` -/
inductive OutputTypes where
  | PushPull
  | OpenDrain
  deriving DecidableEq, Repr

/-- `INPUT`, `GENERALPURPOSEOUTPUT`, `ALTERNATE` and `ANALOG`. -/
def ModerTypes.bits : ModerTypes → BitVec 2
  | .InputMode => 0b00#2
  | .GeneralPurposeOutputMode => 0b01#2
  | .AlternateFunctionMode => 0b10#2
  | .AnalogMode => 0b11#2

/-- The value of the enumerator. -/
def SpeedModes.bits : SpeedModes → BitVec 2
  | .Low => 0#2
  | .Medium => 1#2
  | .Fast => 2#2
  | .High => 3#2

/-- The value of the enumerator. -/
def PullTypes.bits : PullTypes → BitVec 2
  | .Nothing => 0#2
  | .PullUp => 1#2
  | .PullDown => 2#2

/-- The value of the enumerator. -/
def OutputTypes.bits : OutputTypes → BitVec 1
  | .PushPull => 0#1
  | .OpenDrain => 1#1

/-- `set_moder` -/
def setModer (pin : Nat) (moder : ModerTypes) (t : GpioRegisters) : GpioRegisters :=
  let t := { t with moder := t.moder &&& ~~~(0b11#32 <<< (pin * 2)) }
  match moder with
  | .InputMode => { t with moder := t.moder ||| (0b00#32 <<< (pin * 2)) }
  | .GeneralPurposeOutputMode => { t with moder := t.moder ||| (0b01#32 <<< (pin * 2)) }
  | .AlternateFunctionMode => { t with moder := t.moder ||| (0b10#32 <<< (pin * 2)) }
  | .AnalogMode => { t with moder := t.moder ||| (0b11#32 <<< (pin * 2)) }

/-- `into_af` -/
def intoAf (pin : Nat) (afNumber : Word) (t : GpioRegisters) : GpioRegisters :=
  if pin < 8 then
    let t := { t with afrl := t.afrl &&& ~~~(0xF#32 <<< (pin * 4)) }
    { t with afrl := t.afrl ||| (afNumber <<< (pin * 4)) }
  else
    let pin := pin - 8
    let t := { t with afrh := t.afrh &&& ~~~(0xF#32 <<< (pin * 4)) }
    { t with afrh := t.afrh ||| (afNumber <<< (pin * 4)) }

/-- `set_speed` -/
def setSpeed (pin : Nat) (speed : SpeedModes) (t : GpioRegisters) : GpioRegisters :=
  let t := { t with ospeedr := t.ospeedr &&& ~~~(0b11#32 <<< (pin * 2)) }
  { t with ospeedr := t.ospeedr ||| (speed.bits.setWidth 32 <<< (pin * 2)) }

/-- `set_pupdr` -/
def setPupdr (pin : Nat) (pullType : PullTypes) (t : GpioRegisters) : GpioRegisters :=
  let t := { t with pupdr := t.pupdr &&& ~~~(0b11#32 <<< (pin * 2)) }
  { t with pupdr := t.pupdr ||| (pullType.bits.setWidth 32 <<< (pin * 2)) }

/-- `set_otyper` -/
def setOtyper (pin : Nat) (otype : OutputTypes) (t : GpioRegisters) : GpioRegisters :=
  let t := { t with otyper := t.otyper &&& ~~~(0b11#32 <<< pin) }
  { t with otyper := t.otyper ||| (otype.bits.setWidth 32 <<< pin) }

/-- A call that configures a pin, with an alternate function below 16. -/
inductive GpioCall where
  | setModer (pin : Fin 16) (moder : ModerTypes)
  | intoAf (pin : Fin 16) (afNumber : BitVec 4)
  | setSpeed (pin : Fin 16) (speed : SpeedModes)
  | setPupdr (pin : Fin 16) (pullType : PullTypes)
  | setOtyper (pin : Fin 16) (otype : OutputTypes)
  deriving DecidableEq

/-- What it does. -/
def GpioCall.apply (t : GpioRegisters) : GpioCall → GpioRegisters
  | setModer pin moder => NextLevelRTOS.setModer pin moder t
  | intoAf pin afNumber => NextLevelRTOS.intoAf pin (afNumber.setWidth 32) t
  | setSpeed pin speed => NextLevelRTOS.setSpeed pin speed t
  | setPupdr pin pullType => NextLevelRTOS.setPupdr pin pullType t
  | setOtyper pin otype => NextLevelRTOS.setOtyper pin otype t

/-- Calls, one after the other. -/
def configure (calls : List GpioCall) (t : GpioRegisters) : GpioRegisters :=
  calls.foldl GpioCall.apply t

namespace GpioRegisters

/-- The mode of a pin. -/
def moderOf (pin : Fin 16) (t : GpioRegisters) : BitVec 2 := field 2 t.moder pin

/-- The speed of a pin. -/
def speedOf (pin : Fin 16) (t : GpioRegisters) : BitVec 2 := field 2 t.ospeedr pin

/-- The pull of a pin. -/
def pullOf (pin : Fin 16) (t : GpioRegisters) : BitVec 2 := field 2 t.pupdr pin

/-- The output type of a pin. -/
def otypeOf (pin : Fin 16) (t : GpioRegisters) : BitVec 1 := field 1 t.otyper pin

/-- The alternate function of a pin. -/
def afOf (pin : Fin 16) (t : GpioRegisters) : BitVec 4 :=
  if pin.val < 8 then field 4 t.afrl pin else field 4 t.afrh (pin.val - 8)

end GpioRegisters

namespace GpioCall

/-- The mode that a call sets for a pin. -/
def moderFor (pin : Fin 16) : GpioCall → Option (BitVec 2)
  | setModer p moder => if p = pin then some moder.bits else none
  | _ => none

/-- The speed. -/
def speedFor (pin : Fin 16) : GpioCall → Option (BitVec 2)
  | setSpeed p speed => if p = pin then some speed.bits else none
  | _ => none

/-- The pull. -/
def pullFor (pin : Fin 16) : GpioCall → Option (BitVec 2)
  | setPupdr p pullType => if p = pin then some pullType.bits else none
  | _ => none

/-- The output type. -/
def otypeFor (pin : Fin 16) : GpioCall → Option (BitVec 1)
  | setOtyper p otype => if p = pin then some otype.bits else none
  | _ => none

/-- The alternate function. -/
def afFor (pin : Fin 16) : GpioCall → Option (BitVec 4)
  | intoAf p afNumber => if p = pin then some afNumber else none
  | _ => none

/-- A call for the output type of the pin, or of the pin before. -/
def neighbourFor (pin : Fin 16) : GpioCall → Option Bool
  | setOtyper p _ =>
    if p = pin then some false else if p.val + 1 = pin.val then some true else none
  | _ => none

end GpioCall

/-- Every field of every pin holds the value of the last call for it, or what it held
    before. -/
structure PinsIndependent (calls : List GpioCall) (t : GpioRegisters) : Prop where
  moder : ∀ pin, (configure calls t).moderOf pin =
    last (GpioCall.moderFor pin) calls (t.moderOf pin)
  speed : ∀ pin, (configure calls t).speedOf pin =
    last (GpioCall.speedFor pin) calls (t.speedOf pin)
  pull : ∀ pin, (configure calls t).pullOf pin =
    last (GpioCall.pullFor pin) calls (t.pullOf pin)
  otype : ∀ pin, (configure calls t).otypeOf pin =
    last (GpioCall.otypeFor pin) calls (t.otypeOf pin)
  af : ∀ pin, (configure calls t).afOf pin = last (GpioCall.afFor pin) calls (t.afOf pin)

/-- Of the calls for the output types of a pin and of the pin before, the last one is
    for the pin before. -/
def neighbourLast (pin : Fin 16) (calls : List GpioCall) : Bool :=
  last (GpioCall.neighbourFor pin) calls false

/-! ### One call -/

section Setters

variable {t : GpioRegisters}

theorem setModer_eq (pin : Nat) (moder : ModerTypes) :
    setModer pin moder t = { t with moder := writeField 2 t.moder (pin * 2) moder.bits } := by
  cases moder <;> rfl

theorem intoAf_eq (pin : Nat) (afNumber : BitVec 4) :
    intoAf pin (afNumber.setWidth 32) t =
      if pin < 8 then { t with afrl := writeField 4 t.afrl (pin * 4) afNumber }
      else { t with afrh := writeField 4 t.afrh ((pin - 8) * 4) afNumber } := rfl

theorem setSpeed_eq (pin : Nat) (speed : SpeedModes) :
    setSpeed pin speed t = { t with ospeedr := writeField 2 t.ospeedr (pin * 2) speed.bits } := rfl

theorem setPupdr_eq (pin : Nat) (pullType : PullTypes) :
    setPupdr pin pullType t =
      { t with pupdr := writeField 2 t.pupdr (pin * 2) pullType.bits } := rfl

/-- The mask is wider than the field. -/
theorem setOtyper_eq (pin : Nat) (otype : OutputTypes) :
    setOtyper pin otype t = { t with otyper := writeField 2 t.otyper pin otype.bits } := rfl

/-- A setter of another kind leaves the field alone, one of this kind changes it for
    its pin. -/
theorem setter_field {α : Type} {p pin : Fin 16} {value old : α} :
    (if pin.val = p.val then value else old) =
      (if p = pin then some value else none).getD old := by
  by_cases h : p = pin
  · rw [if_pos h, h, if_pos rfl]
    rfl
  · rw [if_neg h, if_neg fun hc => h (Fin.ext hc.symm)]
    rfl

theorem moderOf_apply (pin : Fin 16) (t : GpioRegisters) (call : GpioCall) :
    (call.apply t).moderOf pin = (call.moderFor pin).getD (t.moderOf pin) := by
  cases call with
  | setModer p moder =>
      have hp := p.isLt
      have hpin := pin.isLt
      rw [GpioCall.apply, setModer_eq]
      simp only [GpioRegisters.moderOf, GpioCall.moderFor]
      rw [field_writeField (by omega) (by omega), setter_field]
  | intoAf p afNumber =>
      rw [GpioCall.apply, intoAf_eq]
      simp only [GpioCall.moderFor]
      split <;> rfl
  | setSpeed p speed => rfl
  | setPupdr p pullType => rfl
  | setOtyper p otype => rfl

theorem speedOf_apply (pin : Fin 16) (t : GpioRegisters) (call : GpioCall) :
    (call.apply t).speedOf pin = (call.speedFor pin).getD (t.speedOf pin) := by
  cases call with
  | setModer p moder =>
      rw [GpioCall.apply, setModer_eq]
      rfl
  | intoAf p afNumber =>
      rw [GpioCall.apply, intoAf_eq]
      simp only [GpioCall.speedFor]
      split <;> rfl
  | setSpeed p speed =>
      have hp := p.isLt
      have hpin := pin.isLt
      rw [GpioCall.apply, setSpeed_eq]
      simp only [GpioRegisters.speedOf, GpioCall.speedFor]
      rw [field_writeField (by omega) (by omega), setter_field]
  | setPupdr p pullType => rfl
  | setOtyper p otype => rfl

theorem pullOf_apply (pin : Fin 16) (t : GpioRegisters) (call : GpioCall) :
    (call.apply t).pullOf pin = (call.pullFor pin).getD (t.pullOf pin) := by
  cases call with
  | setModer p moder =>
      rw [GpioCall.apply, setModer_eq]
      rfl
  | intoAf p afNumber =>
      rw [GpioCall.apply, intoAf_eq]
      simp only [GpioCall.pullFor]
      split <;> rfl
  | setSpeed p speed => rfl
  | setPupdr p pullType =>
      have hp := p.isLt
      have hpin := pin.isLt
      rw [GpioCall.apply, setPupdr_eq]
      simp only [GpioRegisters.pullOf, GpioCall.pullFor]
      rw [field_writeField (by omega) (by omega), setter_field]
  | setOtyper p otype => rfl

theorem afOf_apply (pin : Fin 16) (t : GpioRegisters) (call : GpioCall) :
    (call.apply t).afOf pin = (call.afFor pin).getD (t.afOf pin) := by
  cases call with
  | setModer p moder =>
      rw [GpioCall.apply, setModer_eq]
      rfl
  | intoAf p afNumber =>
      have hp := p.isLt
      have hpin := pin.isLt
      rw [GpioCall.apply, intoAf_eq]
      simp only [GpioRegisters.afOf, GpioCall.afFor]
      rw [← setter_field]
      -- A pin below 8 and one above are in different registers.
      by_cases hlow : p.val < 8
      · rw [if_pos hlow]
        by_cases hpinlow : pin.val < 8
        · rw [if_pos hpinlow, if_pos hpinlow]
          exact field_writeField (by omega) (by omega) t.afrl afNumber
        · rw [if_neg hpinlow, if_neg hpinlow, if_neg (by omega)]
      · rw [if_neg hlow]
        by_cases hpinlow : pin.val < 8
        · rw [if_pos hpinlow, if_pos hpinlow, if_neg (by omega)]
        · rw [if_neg hpinlow, if_neg hpinlow]
          dsimp only
          rw [field_writeField (by omega) (by omega)]
          by_cases heq : pin.val = p.val
          · rw [if_pos heq, if_pos (by omega)]
          · rw [if_neg heq, if_neg (by omega)]
  | setSpeed p speed => rfl
  | setPupdr p pullType => rfl
  | setOtyper p otype => rfl

/-- What a call leaves of an output type: its own pin gets the value, the next one
    becomes push-pull. -/
def GpioCall.otypeLeft (pin : Fin 16) : GpioCall → Option (BitVec 1)
  | .setOtyper p otype =>
    if p = pin then some otype.bits
    else if p.val + 1 = pin.val then some OutputTypes.PushPull.bits else none
  | _ => none

theorem otypeOf_apply (pin : Fin 16) (t : GpioRegisters) (call : GpioCall) :
    (call.apply t).otypeOf pin = (call.otypeLeft pin).getD (t.otypeOf pin) := by
  cases call with
  | setModer p moder =>
      rw [GpioCall.apply, setModer_eq]
      rfl
  | intoAf p afNumber =>
      rw [GpioCall.apply, intoAf_eq]
      simp only [GpioCall.otypeLeft]
      split <;> rfl
  | setSpeed p speed => rfl
  | setPupdr p pullType => rfl
  | setOtyper p otype =>
      have hp := p.isLt
      have hpin := pin.isLt
      rw [GpioCall.apply, setOtyper_eq]
      simp only [GpioRegisters.otypeOf, GpioCall.otypeLeft]
      -- The field is that of the pin, that of the next one, under the mask as well, or
      -- another.
      by_cases hown : p = pin
      · rw [if_pos hown, hown]
        have hwritten := field_written (show 1 ≤ 2 by omega) (show pin.val * 1 + 1 ≤ 32 by omega)
          t.otyper otype.bits
        rwa [Nat.mul_one] at hwritten
      · have hne : p.val ≠ pin.val := fun hc => hown (Fin.ext hc)
        rw [if_neg hown]
        by_cases hnext : p.val + 1 = pin.val
        · rw [if_pos hnext]
          exact field_cleared (by omega) (by omega) (by omega) t.otyper otype.bits
        · rw [if_neg hnext]
          exact field_outside (by omega) (by omega) (by omega) t.otyper otype.bits

end Setters

/-! ### Runs -/

/-- What is left of an output type after a run of calls. -/
theorem last_otypeLeft (pin : Fin 16) (calls : List GpioCall) (initial : BitVec 1) :
    last (GpioCall.otypeLeft pin) calls initial =
      if neighbourLast pin calls then OutputTypes.PushPull.bits
      else last (GpioCall.otypeFor pin) calls initial := by
  induction calls using List.reverseRecOn with
  | nil => rfl
  | append_singleton calls call ih =>
      rw [neighbourLast] at ih ⊢
      rw [last_append, last_append, last_append, ih]
      cases call with
      | setModer p moder => rfl
      | intoAf p afNumber => rfl
      | setSpeed p speed => rfl
      | setPupdr p pullType => rfl
      | setOtyper p otype =>
          -- A call for the pin settles its type; one for the pin before makes it
          -- push-pull.
          by_cases hown : p = pin
          · rw [show GpioCall.otypeLeft pin (.setOtyper p otype) = some otype.bits from if_pos hown,
              show GpioCall.neighbourFor pin (.setOtyper p otype) = some false from if_pos hown,
              show GpioCall.otypeFor pin (.setOtyper p otype) = some otype.bits from if_pos hown]
            rfl
          · have hfor : GpioCall.otypeFor pin (.setOtyper p otype) = none := if_neg hown
            by_cases hnext : p.val + 1 = pin.val
            · have hleft : GpioCall.otypeLeft pin (.setOtyper p otype) =
                  some OutputTypes.PushPull.bits := (if_neg hown).trans (if_pos hnext)
              have hlast : GpioCall.neighbourFor pin (.setOtyper p otype) = some true :=
                (if_neg hown).trans (if_pos hnext)
              rw [hleft, hlast]
              rfl
            · have hleft : GpioCall.otypeLeft pin (.setOtyper p otype) = none :=
                (if_neg hown).trans (if_neg hnext)
              have hlast : GpioCall.neighbourFor pin (.setOtyper p otype) = none :=
                (if_neg hown).trans (if_neg hnext)
              rw [hleft, hlast, hfor]
              rfl

/-- The output type of a pin after a run. -/
theorem otyper_configure (pin : Fin 16) (calls : List GpioCall) (t : GpioRegisters) :
    (configure calls t).otypeOf pin =
      if neighbourLast pin calls then OutputTypes.PushPull.bits
      else last (GpioCall.otypeFor pin) calls (t.otypeOf pin) := by
  rw [← last_otypeLeft]
  exact foldl_last (otypeOf_apply pin) calls t

/-- For every sequence of calls and every register contents the pins are independent
    exactly if each pin, whose output type the pin before was the last to reach, is to
    be push-pull. -/
theorem pins_independent_iff (calls : List GpioCall) (t : GpioRegisters) :
    PinsIndependent calls t ↔ ∀ pin, neighbourLast pin calls = true →
      last (GpioCall.otypeFor pin) calls (t.otypeOf pin) = OutputTypes.PushPull.bits := by
  constructor
  · intro h pin hneighbour
    rw [← h.otype pin, otyper_configure, if_pos hneighbour]
  · intro h
    refine ⟨fun pin => foldl_last (moderOf_apply pin) calls t,
      fun pin => foldl_last (speedOf_apply pin) calls t,
      fun pin => foldl_last (pullOf_apply pin) calls t, fun pin => ?_,
      fun pin => foldl_last (afOf_apply pin) calls t⟩
    rw [otyper_configure]
    by_cases hneighbour : neighbourLast pin calls = true
    · rw [if_pos hneighbour, h pin hneighbour]
    · rw [if_neg hneighbour]

/-- No pin is configured. -/
def blankGpio : GpioRegisters :=
  { moder := 0#32, otyper := 0#32, ospeedr := 0#32, pupdr := 0#32, afrl := 0#32, afrh := 0#32 }

/-- Pin 5 is made open drain, and then pin 4 push-pull. -/
theorem neighbour_reconfigured :
    ¬ PinsIndependent [.setOtyper 5 .OpenDrain, .setOtyper 4 .PushPull] blankGpio := by
  intro h
  exact absurd (h.otype 5) (by decide)

end NextLevelRTOS
