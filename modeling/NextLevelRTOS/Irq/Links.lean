import Mathlib.Tactic.IntervalCases
import NextLevelRTOS.Arch.Acknowledge
import NextLevelRTOS.Lib.Fields

/-!
# Interrupt Sources

A task links a callback to an interrupt: with `link_exti_src` to the EXTI line of a pin,
with `link_adc_src` to the converter. Either function stores the callback and the
position of the interrupt in the vector table, each in one variable for all tasks, and
then asks the kernel to enable the interrupt whose position is stored there. A task may
be preempted between any two of these, so the kernel may enable the line of another
task's pin. And a pin above 9 leaves the position as it is.

What holds all the same, whatever the tasks do and in whichever order: an interrupt that
is enabled has a handler, and the handlers of the pins have a callback to call.

## Main definitions

* `isrVectors`: The vector table, from the first interrupt on.
* `Irq`: The variables of `gpio_isr.c` and `adc_isr.c`, and the enable registers.
* `linkExtiSrc`, `linkAdcSrc`: The functions.
* `Irq.serve`: What an interrupt calls.
* `IrqEvent`, `irqStep`: The tasks as a machine.
* `LinksKept`: What is known of the variables after a run.

## Theorems

* `enabled_enableNvicInterrupt`: A line is enabled, and no other.
* `irqStep_kept`: A step.
* `run_linkExtiSrc`, `run_linkAdcSrc`: The calls that are not preempted.
* `links_kept`: Every run from the boot.
-/

namespace NextLevelRTOS

open Acknowledge Fields Machine

universe u v

/-- The lines that have a callback each, the last one for five pins. -/
inductive ExtiLine where
  | Exti0
  | Exti1
  | Exti2
  | Exti3
  | Exti4
  | Exti9_5
  deriving DecidableEq, Repr

/-- What an entry of the vector table points to. For `tim2` it is an address in RAM. -/
inductive Handler where
  | dummy
  | exti0IsrHandler
  | exti1IsrHandler
  | exti2IsrHandler
  | exti3IsrHandler
  | exti4IsrHandler
  | exti9_5IsrHandler
  | adcIsrHandler
  | tim2
  | tim3IsrHandler
  | uartIsrHandler
  | dma2Stream5IrHandler
  deriving DecidableEq, Repr

/-- `isr_vectors`, behind the exceptions of the processor. -/
def isrVectors : List (Option Handler) :=
  List.flatten
    [List.replicate 6 (some .dummy),
      [some .exti0IsrHandler, some .exti1IsrHandler, some .exti2IsrHandler,
        some .exti3IsrHandler, some .exti4IsrHandler],
      List.replicate 7 (some .dummy),
      [some .adcIsrHandler, none, none, none, none],
      [some .exti9_5IsrHandler, none, none, none, none],
      [some .tim2, some .tim3IsrHandler], List.replicate 7 none,
      [some .uartIsrHandler, none], List.replicate 29 (some .dummy),
      [some .dma2Stream5IrHandler, none, none, none]]

/-- Where the line is in the vector table. -/
def ExtiLine.position : ExtiLine → Fin 240
  | .Exti0 => 6
  | .Exti1 => 7
  | .Exti2 => 8
  | .Exti3 => 9
  | .Exti4 => 10
  | .Exti9_5 => 23

/-- Where the pins above 9 interrupt, a position without a handler. -/
def exti15_10Position : Fin 240 := 40

/-- The line of a pin, for the pins that are supported. -/
def ExtiLine.ofPin (pin : Fin 16) : Option ExtiLine :=
  match pin.val with
  | 0 => some .Exti0
  | 1 => some .Exti1
  | 2 => some .Exti2
  | 3 => some .Exti3
  | 4 => some .Exti4
  | n => if n < 10 then some .Exti9_5 else none

/-- `GpioIsrConfig`, with `none` for a null pointer. -/
structure GpioIsrConfig (κ : Type u) where
  isrHandler : ExtiLine → Option κ
  extiPosVectorTable : Word

/-- `AdcIsrConfig_t` -/
structure AdcIsrConfig (κ : Type u) where
  isrHandler : Option κ
  adcPosVectorTable : Word

/-- The variables, and the enable registers of the NVIC by their addresses. -/
structure Irq (κ : Type u) where
  gpioConfigExti : GpioIsrConfig κ
  adcIsrConfig : AdcIsrConfig κ
  nvic : Word → Word

section Functions

variable {κ : Type u}

/-- `WRITE_REGISTER(nvic_enable, value)`: a one enables, a zero does nothing. -/
def Irq.writeIser (address value : Word) (s : Irq κ) : Irq κ :=
  { s with nvic := Function.update s.nvic address (s.nvic address ||| value) }

/-- `enable_nvic_interrupt` -/
def enableNvicInterrupt (nvicNumber : Word) (s : Irq κ) : Irq κ :=
  let nvicEnable := calculateNvicTargetRegister nvicNumber .NVIC_ENABLE
  s.writeIser nvicEnable (s.nvic nvicEnable ||| (1#32 <<< (nvicNumber % 32#32).toNat))

/-- `enable_cpu_interrupt_exti` -/
def enableCpuInterruptExti (s : Irq κ) : Irq κ :=
  enableNvicInterrupt s.gpioConfigExti.extiPosVectorTable s

/-- `enable_cpu_interrupt_adc` -/
def enableCpuInterruptAdc (s : Irq κ) : Irq κ :=
  enableNvicInterrupt s.adcIsrConfig.adcPosVectorTable s

/-- The position is stored in `link_exti_src`. -/
def storeExtiPosition (pin : Fin 16) (s : Irq κ) : Irq κ :=
  let extiOffset := 6
  if pin.val ≤ 4 then
    { s with gpioConfigExti :=
        { s.gpioConfigExti with extiPosVectorTable := BitVec.ofNat 32 (pin.val + extiOffset) } }
  else if pin.val > 4 ∧ pin.val < 10 then
    { s with gpioConfigExti := { s.gpioConfigExti with extiPosVectorTable := 23#32 } }
  else s

/-- The callback is stored in `link_exti_src`. -/
def storeExtiHandler (isrCallback : κ) (pin : Fin 16) (s : Irq κ) : Irq κ :=
  match ExtiLine.ofPin pin with
  | some line => { s with gpioConfigExti :=
      { s.gpioConfigExti with
        isrHandler := Function.update s.gpioConfigExti.isrHandler line (some isrCallback) } }
  | none => s

/-- `link_exti_src` -/
def linkExtiSrc (isrCallback : κ) (pin : Fin 16) (s : Irq κ) : Int × Irq κ :=
  (1, enableCpuInterruptExti (storeExtiHandler isrCallback pin (storeExtiPosition pin s)))

/-- The callback is stored in `link_adc_src`. -/
def storeAdcHandler (isrCallback : κ) (s : Irq κ) : Irq κ :=
  { s with adcIsrConfig := { s.adcIsrConfig with isrHandler := some isrCallback } }

/-- The position is stored in `link_adc_src`. -/
def storeAdcPosition (s : Irq κ) : Irq κ :=
  { s with adcIsrConfig := { s.adcIsrConfig with adcPosVectorTable := 18#32 } }

/-- `link_adc_src` -/
def linkAdcSrc (isrCallback : κ) (s : Irq κ) : Irq κ :=
  enableCpuInterruptAdc (storeAdcPosition (storeAdcHandler isrCallback s))

/-- `init_exti_isr_handling` -/
def initExtiIsrHandling (emptyIsr : κ) (s : Irq κ) : Irq κ :=
  { s with gpioConfigExti := { s.gpioConfigExti with isrHandler := fun _ => some emptyIsr } }

/-- What the boot leaves: all variables are zero, `bootstrap` enables the interrupts of
    two timers and `init_uart` those of the DMA stream and of the USART, and the idle task
    stores `empty_isr`. -/
def Irq.boot (emptyIsr : κ) : Irq κ :=
  let zeroed : Irq κ :=
    { gpioConfigExti := { isrHandler := fun _ => none, extiPosVectorTable := 0#32 },
      adcIsrConfig := { isrHandler := none, adcPosVectorTable := 0#32 },
      nvic := fun _ => 0#32 }
  let timers := zeroed.writeIser 0xE000E100#32
    (zeroed.nvic 0xE000E100#32 ||| (1#32 <<< 28) ||| (1#32 <<< 29))
  let dma := timers.writeIser 0xE000E108#32 (timers.nvic 0xE000E108#32 ||| (1#32 <<< 4))
  let usart := dma.writeIser 0xE000E104#32 (dma.nvic 0xE000E104#32 ||| (1#32 <<< 5))
  initExtiIsrHandling emptyIsr usart

/-- The address of an enable register. -/
def iserAddress (block : Nat) : Word := BitVec.ofNat 32 (0xE000E100 + 4 * block)

/-- The interrupt is enabled. -/
def Irq.enabled (s : Irq κ) (n : Fin 240) : Bool :=
  (s.nvic (iserAddress (n / 32))).getLsbD (n % 32)

/-- What runs when an interrupt is taken. -/
inductive Served (κ : Type u) where
  | handler (h : Handler)
  | callback (isrCallback : κ)
  deriving DecidableEq, Repr

/-- The callback of a line is called. -/
def callIsrHandler (line : ExtiLine) (s : Irq κ) : Option (Served κ) :=
  (s.gpioConfigExti.isrHandler line).map .callback

/-- `exti0_isr_handler` -/
def exti0IsrHandler (s : Irq κ) : Option (Served κ) := callIsrHandler .Exti0 s

/-- `exti1_isr_handler` -/
def exti1IsrHandler (s : Irq κ) : Option (Served κ) := callIsrHandler .Exti1 s

/-- `exti2_isr_handler` -/
def exti2IsrHandler (s : Irq κ) : Option (Served κ) := callIsrHandler .Exti2 s

/-- `exti3_isr_handler` -/
def exti3IsrHandler (s : Irq κ) : Option (Served κ) := callIsrHandler .Exti3 s

/-- `exti4_isr_handler` -/
def exti4IsrHandler (s : Irq κ) : Option (Served κ) := callIsrHandler .Exti4 s

/-- `exti9_5_isr_handler` -/
def exti9_5IsrHandler (s : Irq κ) : Option (Served κ) := callIsrHandler .Exti9_5 s

/-- `adc_isr_handler` -/
def adcIsrHandler (s : Irq κ) : Option (Served κ) := s.adcIsrConfig.isrHandler.map .callback

/-- The handler runs. -/
def Handler.run (h : Handler) (s : Irq κ) : Option (Served κ) :=
  match h with
  | .exti0IsrHandler => NextLevelRTOS.exti0IsrHandler s
  | .exti1IsrHandler => NextLevelRTOS.exti1IsrHandler s
  | .exti2IsrHandler => NextLevelRTOS.exti2IsrHandler s
  | .exti3IsrHandler => NextLevelRTOS.exti3IsrHandler s
  | .exti4IsrHandler => NextLevelRTOS.exti4IsrHandler s
  | .exti9_5IsrHandler => NextLevelRTOS.exti9_5IsrHandler s
  | .adcIsrHandler => NextLevelRTOS.adcIsrHandler s
  | h => some (.handler h)

/-- The processor takes an interrupt. Where the entry of the vector table or the callback
    is a null pointer there is no answer. -/
def Irq.serve (s : Irq κ) (n : Fin 240) : Option (Served κ) :=
  match isrVectors[n.val]? with
  | some (some h) => h.run s
  | _ => none

/-! ### The enable registers -/

theorem iserAddress_inj {a b : Nat} (ha : a < 8) (hb : b < 8)
    (h : iserAddress a = iserAddress b) : a = b := by
  have hnat := congrArg BitVec.toNat h
  rw [iserAddress, iserAddress, BitVec.toNat_ofNat, BitVec.toNat_ofNat] at hnat
  omega

theorem calculateNvicTargetRegister_enable (n : Fin 240) :
    calculateNvicTargetRegister (BitVec.ofNat 32 n) .NVIC_ENABLE = iserAddress (n / 32) := by
  have hn := n.isLt
  have hblock : BitVec.ofNat 32 n / 32#32 = BitVec.ofNat 32 (n / 32) := by
    rw [← BitVec.toNat_inj, BitVec.toNat_udiv, show (32#32 : Word).toNat = 32 by rfl,
      BitVec.toNat_ofNat, BitVec.toNat_ofNat]
    omega
  rw [calculateNvicTargetRegister, iserAddress, BitVec.ofNat_add, BitVec.ofNat_mul, ← hblock]

/-- Ones enable. -/
theorem enabled_writeIser (s : Irq κ) {block : Nat} (hblock : block < 8) (value : Word)
    (n : Fin 240) :
    (s.writeIser (iserAddress block) value).enabled n =
      (s.enabled n || (decide (n.val / 32 = block) && value.getLsbD (n % 32))) := by
  have hn := n.isLt
  unfold Irq.enabled Irq.writeIser
  dsimp only
  by_cases h : n.val / 32 = block
  · rw [h, Function.update_self, BitVec.getLsbD_or, decide_eq_true rfl, Bool.true_and]
  · have hne : iserAddress (n / 32) ≠ iserAddress block :=
      fun hc => h (iserAddress_inj (by omega) hblock hc)
    rw [Function.update_of_ne hne, decide_eq_false h, Bool.false_and, Bool.or_false]

/-- A line is enabled, and what was enabled stays so. -/
theorem enabled_enableNvicInterrupt (s : Irq κ) (line n : Fin 240) :
    (enableNvicInterrupt (BitVec.ofNat 32 line) s).enabled n =
      (s.enabled n || decide (line = n)) := by
  have hline := line.isLt
  have hn := n.isLt
  rw [enableNvicInterrupt, calculateNvicTargetRegister_enable, enabled_writeIser s (by omega),
    nvicBit_eq, getLsbD_setBit _ (by omega)]
  by_cases hblock : n.val / 32 = line.val / 32
  · -- The value is that of the register with the bit, so the rest is enabled already.
    rw [decide_eq_true hblock, Bool.true_and, Irq.enabled, hblock, ← Bool.or_assoc,
      Bool.or_self]
    congr 1
    rw [decide_eq_decide]
    exact ⟨fun h => Fin.ext (by omega), fun h => by rw [h]⟩
  · rw [decide_eq_false hblock, Bool.false_and,
      decide_eq_false fun hc : line = n => hblock (by rw [hc])]

end Functions

/-! ### The tasks -/

/-- Where a task is in its call. -/
inductive LinkPoint (κ : Type u) where
  | outside
  | positionStored (pin : Fin 16) (isrCallback : κ)
  | linked
  | adcHandlerStored
  | adcLinked
  deriving DecidableEq, Repr

/-- The task is in `link_adc_src`. -/
def LinkPoint.inAdc {κ : Type u} : LinkPoint κ → Bool
  | adcHandlerStored => true
  | adcLinked => true
  | _ => false

/-- A task comes to the next access of its call, or an interrupt is taken. -/
inductive IrqEvent (τ : Type v) (κ : Type u) where
  | storePosition (task : τ) (pin : Fin 16) (isrCallback : κ)
  | storeHandler (task : τ) (pin : Fin 16) (isrCallback : κ)
  | enable (task : τ)
  | storeAdcHandler (task : τ) (isrCallback : κ)
  | storeAdcPosition (task : τ)
  | enableAdc (task : τ)
  | interrupt (n : Fin 240)
  deriving DecidableEq, Repr

/-- The variables and where every task is. -/
structure LinkingTasks (τ : Type v) (κ : Type u) where
  irq : Irq κ
  point : τ → LinkPoint κ

section Tasks

variable {τ : Type v} {κ : Type u} [DecidableEq τ] [DecidableEq κ]

/-- The transition function. A task goes through its call one access at a time. An interrupt
    is taken only if it is enabled; a callback links nothing. -/
def irqStep (e : IrqEvent τ κ) (s : LinkingTasks τ κ) : Option (LinkingTasks τ κ) :=
  match e with
  | .storePosition task pin isrCallback =>
    if s.point task = .outside then
      some { irq := storeExtiPosition pin s.irq,
             point := Function.update s.point task (.positionStored pin isrCallback) }
    else none
  | .storeHandler task pin isrCallback =>
    if s.point task = .positionStored pin isrCallback then
      some { irq := storeExtiHandler isrCallback pin s.irq,
             point := Function.update s.point task .linked }
    else none
  | .enable task =>
    if s.point task = .linked then
      some { irq := enableCpuInterruptExti s.irq,
             point := Function.update s.point task .outside }
    else none
  | .storeAdcHandler task isrCallback =>
    if s.point task = .outside then
      some { irq := storeAdcHandler isrCallback s.irq,
             point := Function.update s.point task .adcHandlerStored }
    else none
  | .storeAdcPosition task =>
    if s.point task = .adcHandlerStored then
      some { irq := storeAdcPosition s.irq,
             point := Function.update s.point task .adcLinked }
    else none
  | .enableAdc task =>
    if s.point task = .adcLinked then
      some { irq := enableCpuInterruptAdc s.irq,
             point := Function.update s.point task .outside }
    else none
  | .interrupt n =>
    if s.irq.enabled n then (s.irq.serve n).map fun _ => s else none

/-- After the boot no task is in a call. -/
def LinkingTasks.boot (emptyIsr : κ) : LinkingTasks τ κ :=
  { irq := Irq.boot emptyIsr, point := fun _ => .outside }

omit [DecidableEq τ] [DecidableEq κ]

/-- The position that an event stores. -/
def IrqEvent.position : IrqEvent τ κ → Option (Fin 240)
  | .storePosition _ pin _ => (ExtiLine.ofPin pin).map ExtiLine.position
  | _ => none

/-- The callback that it stores for a line. -/
def IrqEvent.callback (line : ExtiLine) : IrqEvent τ κ → Option κ
  | .storeHandler _ pin isrCallback =>
    if ExtiLine.ofPin pin = some line then some isrCallback else none
  | _ => none

/-- The kernel is asked for an interrupt: the one whose position was stored last. -/
def IrqEvent.Asks (n : Fin 240) (before : List (IrqEvent τ κ)) : IrqEvent τ κ → Prop
  | .enable _ => last IrqEvent.position before 0 = n
  | .enableAdc _ => 18 = n
  | _ => False

/-- The interrupts that the boot enables. -/
def bootInterrupts : List (Fin 240) := [28, 29, 37, 68]

/-- What is known of the variables after a run. The interrupts that are enabled are those
    of the boot and those the kernel has been asked for. Each has a handler, and the
    handler of a line calls the callback stored last. And a call gets the line of its pin,
    if no task stores the position of another one before it is through. -/
structure LinksKept (emptyIsr : κ) (es : List (IrqEvent τ κ)) (s : Irq κ) : Prop where
  enabled : ∀ n, s.enabled n = true ↔ n ∈ bootInterrupts ∨ Occurs (IrqEvent.Asks n) es
  callbacks : ∀ line, s.serve line.position =
    some (.callback (last (IrqEvent.callback line) es emptyIsr))
  served : ∀ n, s.enabled n = true → ∃ served, s.serve n = some served
  undisturbed : ∀ before task pin isrCallback line between after,
    es = before ++ .storePosition task pin isrCallback :: between ++ .enable task :: after →
    ExtiLine.ofPin pin = some line →
    (∀ e ∈ between, ∀ n, e.position = some n → n = line.position) →
    s.enabled line.position = true

/-- What is known of the callback of the converter. -/
structure AdcInv (s : LinkingTasks τ κ) : Prop where
  stored : ∀ task, s.point task = .adcHandlerStored ∨ s.point task = .adcLinked →
    s.irq.adcIsrConfig.isrHandler ≠ none
  linked : ∀ task, s.point task = .adcLinked → s.irq.adcIsrConfig.adcPosVectorTable = 18#32
  enabled : s.irq.enabled 18 = true → s.irq.adcIsrConfig.isrHandler ≠ none

/-- What is known of all the variables, after the events of a run. -/
structure LinkingInv (emptyIsr : κ) (es : List (IrqEvent τ κ)) (s : LinkingTasks τ κ) :
    Prop where
  position : s.irq.gpioConfigExti.extiPosVectorTable =
    BitVec.ofNat 32 (last IrqEvent.position es 0).val
  handlers : ∀ line, s.irq.gpioConfigExti.isrHandler line =
    some (last (IrqEvent.callback line) es emptyIsr)
  enabled : ∀ n, s.irq.enabled n = true ↔ n ∈ bootInterrupts ∨ Occurs (IrqEvent.Asks n) es
  adc : AdcInv s

end Tasks

section Stores

variable {κ : Type u}

/-- What the first access of `link_exti_src` writes. -/
theorem storeExtiPosition_eq (pin : Fin 16) (s : Irq κ) :
    storeExtiPosition pin s =
      { s with gpioConfigExti := { s.gpioConfigExti with
          extiPosVectorTable := ((ExtiLine.ofPin pin).map fun line =>
            BitVec.ofNat 32 line.position).getD s.gpioConfigExti.extiPosVectorTable } } := by
  rcases pin with ⟨n, hn⟩
  interval_cases n <;> rfl

/-- What the second access of `link_exti_src` writes. -/
theorem storeExtiHandler_eq (isrCallback : κ) (pin : Fin 16) (s : Irq κ) (line : ExtiLine) :
    (storeExtiHandler isrCallback pin s).gpioConfigExti.isrHandler line =
      if ExtiLine.ofPin pin = some line then some isrCallback
      else s.gpioConfigExti.isrHandler line := by
  unfold storeExtiHandler
  cases hpin : ExtiLine.ofPin pin with
  | none => rw [if_neg (by simp only [reduceCtorEq, not_false_eq_true])]
  | some line' =>
      dsimp only
      by_cases h : line' = line
      · rw [h, Function.update_self, if_pos rfl]
      · rw [Function.update_of_ne (Ne.symm h), if_neg fun hc => h (Option.some.inj hc)]

/-- `store_exti_handler` writes the callbacks of the lines only. -/
theorem storeExtiHandler_frame (isrCallback : κ) (pin : Fin 16) (s : Irq κ) :
    (storeExtiHandler isrCallback pin s).nvic = s.nvic ∧
      (storeExtiHandler isrCallback pin s).adcIsrConfig = s.adcIsrConfig ∧
      (storeExtiHandler isrCallback pin s).gpioConfigExti.extiPosVectorTable =
        s.gpioConfigExti.extiPosVectorTable := by
  unfold storeExtiHandler
  cases ExtiLine.ofPin pin with
  | none => exact ⟨rfl, rfl, rfl⟩
  | some line => exact ⟨rfl, rfl, rfl⟩

theorem boot_enabled (emptyIsr : κ) (n : Fin 240) :
    (Irq.boot emptyIsr).enabled n = true ↔ n ∈ bootInterrupts := by
  have hclosed : ∀ n, (Irq.boot ()).enabled n = true ↔ n ∈ bootInterrupts := by
    decide +kernel
  -- The enable registers do not depend on the callback.
  exact hclosed n

theorem serve_extiLine (s : Irq κ) (line : ExtiLine) :
    s.serve line.position = callIsrHandler line s := by
  cases line <;> rfl

end Stores

section Steps

variable {τ : Type v} {κ : Type u} {emptyIsr : κ} {es : List (IrqEvent τ κ)}
  {s s' : LinkingTasks τ κ}

/-- The position that is stored is that of a line, unless none has been stored. -/
theorem position_cases (es : List (IrqEvent τ κ)) :
    last IrqEvent.position es 0 = 0 ∨
      ∃ line, last IrqEvent.position es 0 = ExtiLine.position line := by
  induction es using List.reverseRecOn with
  | nil => exact Or.inl rfl
  | append_singleton es e ih =>
      rw [last_append]
      cases e with
      | storePosition task pin isrCallback =>
          cases hpin : ExtiLine.ofPin pin with
          | none =>
              rw [IrqEvent.position, hpin]
              exact ih
          | some line =>
              rw [IrqEvent.position, hpin]
              exact Or.inr ⟨line, rfl⟩
      | _ => exact ih

theorem position_ne_adc (es : List (IrqEvent τ κ)) : last IrqEvent.position es 0 ≠ 18 := by
  rcases position_cases es with h | ⟨line, h⟩
  · rw [h]
    decide
  · rw [h]
    cases line <;> decide

/-- A task that is at another point is there already. -/
theorem point_of_update [DecidableEq τ] {point : τ → LinkPoint κ} {task t : τ}
    {p q : LinkPoint κ} (hne : p ≠ q) (h : Function.update point task p t = q) :
    point t = q := by
  by_cases ht : t = task
  · rw [ht, Function.update_self] at h
    exact absurd h hne
  · rwa [Function.update_of_ne ht] at h

/-- What does not concern the converter. -/
theorem AdcInv.frame [DecidableEq τ] (h : AdcInv s) {irq : Irq κ} (task : τ) {p : LinkPoint κ}
    (hp : p.inAdc = false) (hconfig : irq.adcIsrConfig = s.irq.adcIsrConfig)
    (henabled : irq.enabled 18 = true → s.irq.enabled 18 = true) :
    AdcInv { irq := irq, point := Function.update s.point task p } := by
  have hpoint : ∀ t q, LinkPoint.inAdc q = true → Function.update s.point task p t = q →
      s.point t = q := by
    intro t q hq ht
    refine point_of_update (fun hc => ?_) ht
    rw [hc, hq] at hp
    exact Bool.noConfusion hp
  refine ⟨fun t ht => ?_, fun t ht => ?_, fun h18 => ?_⟩
  · rw [hconfig]
    exact h.stored t (ht.imp (hpoint t _ rfl) (hpoint t _ rfl))
  · rw [hconfig]
    exact h.linked t (hpoint t _ rfl ht)
  · rw [hconfig]
    exact h.enabled (henabled h18)

/-- What neither asks for an interrupt nor stores a position or a callback of a line. -/
theorem LinkingInv.frame (h : LinkingInv emptyIsr es s) {e : IrqEvent τ κ}
    (hposition : e.position = none) (hcallback : ∀ line, e.callback line = none)
    (hasks : ∀ n, ¬ IrqEvent.Asks n es e)
    (hgpio : s'.irq.gpioConfigExti = s.irq.gpioConfigExti) (hnvic : s'.irq.nvic = s.irq.nvic)
    (hadc : AdcInv s') : LinkingInv emptyIsr (es ++ [e]) s' := by
  refine ⟨?_, fun line => ?_, fun n => ?_, hadc⟩
  · rw [hgpio, h.position, last_append, hposition, Option.getD_none]
  · rw [hgpio, h.handlers, last_append, hcallback, Option.getD_none]
  · rw [Irq.enabled, hnvic, occurs_append, or_iff_left (hasks n)]
    exact h.enabled n

theorem linkingInv_boot (emptyIsr : κ) :
    LinkingInv emptyIsr [] (LinkingTasks.boot emptyIsr : LinkingTasks τ κ) := by
  refine ⟨rfl, fun _ => rfl, fun n => ?_, ⟨fun t ht => ?_, fun t ht => ?_, fun h18 => ?_⟩⟩
  · rw [or_iff_left occurs_nil]
    exact boot_enabled emptyIsr n
  · simp only [LinkingTasks.boot, reduceCtorEq, or_self] at ht
  · simp only [LinkingTasks.boot, reduceCtorEq] at ht
  · exact absurd ((boot_enabled emptyIsr 18).mp h18) (by decide)

/-- The handler of a line calls the callback that was stored last. -/
theorem serve_position (h : LinkingInv emptyIsr es s) (line : ExtiLine) :
    s.irq.serve line.position = some (.callback (last (IrqEvent.callback line) es emptyIsr)) := by
  rw [serve_extiLine, callIsrHandler, h.handlers, Option.map_some]

/-- An interrupt that is enabled has a handler, and this one a callback. -/
theorem serve_of_enabled (h : LinkingInv emptyIsr es s) {n : Fin 240}
    (hn : s.irq.enabled n = true) : ∃ served, s.irq.serve n = some served := by
  rcases (h.enabled n).mp hn with hboot | ⟨before, e, after, -, hasks⟩
  · -- The boot enables four handlers that call no callback.
    simp only [bootInterrupts, List.mem_cons, List.not_mem_nil, or_false] at hboot
    rcases hboot with rfl | rfl | rfl | rfl <;> exact ⟨_, rfl⟩
  · cases e with
    | enable task =>
        rw [← show last IrqEvent.position before 0 = n from hasks]
        rcases position_cases before with h0 | ⟨line, hposition⟩
        · rw [h0]
          exact ⟨_, rfl⟩
        · rw [hposition]
          exact ⟨_, serve_position h line⟩
    | enableAdc task =>
        rw [← show 18 = n from hasks] at hn ⊢
        rcases Option.ne_none_iff_exists'.mp (h.adc.enabled hn) with ⟨isrCallback, hcallback⟩
        refine ⟨.callback isrCallback, ?_⟩
        rw [show s.irq.serve 18 = s.irq.adcIsrConfig.isrHandler.map .callback by rfl, hcallback,
          Option.map_some]
    | _ => exact absurd hasks not_false

/-- No task stores the position of another line. -/
theorem last_undisturbed {n : Fin 240} (before between : List (IrqEvent τ κ))
    (h : ∀ e ∈ between, ∀ m, e.position = some m → m = n)
    (hbefore : last IrqEvent.position before 0 = n) :
    last IrqEvent.position (before ++ between) 0 = n := by
  induction between using List.reverseRecOn with
  | nil => rw [List.append_nil, hbefore]
  | append_singleton between e ih =>
      rw [← List.append_assoc, last_append]
      cases he : e.position with
      | none =>
          exact ih fun e' he' => h e' (List.mem_append_left _ he')
      | some m => exact h e (List.mem_append_right _ (List.mem_singleton_self e)) m he

/-- A call that is not disturbed gets the line of its pin. -/
theorem enabled_undisturbed (h : LinkingInv emptyIsr es s)
    {before between after : List (IrqEvent τ κ)} {task : τ} {pin : Fin 16} {isrCallback : κ}
    {line : ExtiLine}
    (hes : es = before ++ .storePosition task pin isrCallback :: between ++ .enable task :: after)
    (hpin : ExtiLine.ofPin pin = some line)
    (hbetween : ∀ e ∈ between, ∀ n, e.position = some n → n = line.position) :
    s.irq.enabled line.position = true := by
  refine (h.enabled _).mpr (Or.inr ⟨before ++ .storePosition task pin isrCallback :: between,
    .enable task, after, ?_, ?_⟩)
  · rw [hes]
  · rw [IrqEvent.Asks, ← List.singleton_append, ← List.append_assoc]
    refine last_undisturbed _ _ hbetween ?_
    rw [last_append, IrqEvent.position, hpin, Option.map_some, Option.getD_some]

variable [DecidableEq τ] [DecidableEq κ]

/-- What a step keeps. -/
theorem irqStep_kept (h : LinkingInv emptyIsr es s) {e : IrqEvent τ κ}
    (hstep : irqStep e s = some s') : LinkingInv emptyIsr (es ++ [e]) s' := by
  cases e with
  | storePosition task pin isrCallback =>
      rw [irqStep, Option.ite_none_right_eq_some, Option.some.injEq] at hstep
      rcases hstep with ⟨-, rfl⟩
      refine ⟨?_, fun line => ?_, fun n => ?_, h.adc.frame task rfl ?_ ?_⟩
      · rw [storeExtiPosition_eq, last_append, IrqEvent.position]
        cases ExtiLine.ofPin pin with
        | none => exact h.position
        | some line => rfl
      · rw [storeExtiPosition_eq, last_append]
        exact h.handlers line
      · rw [storeExtiPosition_eq, occurs_append]
        exact (h.enabled n).trans (or_congr_right (or_iff_left not_false).symm)
      · rw [storeExtiPosition_eq]
      · rw [storeExtiPosition_eq]
        exact id
  | storeHandler task pin isrCallback =>
      rw [irqStep, Option.ite_none_right_eq_some, Option.some.injEq] at hstep
      rcases hstep with ⟨-, rfl⟩
      rcases storeExtiHandler_frame isrCallback pin s.irq with ⟨hnvic, hadc, hposition⟩
      refine ⟨?_, fun line => ?_, fun n => ?_, h.adc.frame task rfl hadc ?_⟩
      · rw [hposition, last_append]
        exact h.position
      · rw [storeExtiHandler_eq, last_append, IrqEvent.callback]
        by_cases hline : ExtiLine.ofPin pin = some line
        · rw [if_pos hline, if_pos hline, Option.getD_some]
        · rw [if_neg hline, if_neg hline, Option.getD_none]
          exact h.handlers line
      · rw [Irq.enabled, hnvic, occurs_append]
        exact (h.enabled n).trans (or_congr_right (or_iff_left not_false).symm)
      · rw [Irq.enabled, hnvic]
        exact id
  | enable task =>
      rw [irqStep, Option.ite_none_right_eq_some, Option.some.injEq] at hstep
      rcases hstep with ⟨-, rfl⟩
      have henabled : ∀ n, (enableCpuInterruptExti s.irq).enabled n = true ↔
          s.irq.enabled n = true ∨ last IrqEvent.position es 0 = n := by
        intro n
        rw [enableCpuInterruptExti, h.position, enabled_enableNvicInterrupt, Bool.or_eq_true,
          decide_eq_true_eq]
      refine ⟨?_, fun line => ?_, fun n => ?_, h.adc.frame task rfl rfl fun h18 => ?_⟩
      · rw [last_append]
        exact h.position
      · rw [last_append]
        exact h.handlers line
      · rw [henabled, h.enabled, occurs_append, or_assoc]
        exact Iff.rfl
      -- The position of the converter is not stored here.
      · exact ((henabled 18).mp h18).resolve_right (position_ne_adc es)
  | storeAdcHandler task isrCallback =>
      rw [irqStep, Option.ite_none_right_eq_some, Option.some.injEq] at hstep
      rcases hstep with ⟨-, rfl⟩
      refine h.frame rfl (fun _ => rfl) (fun _ => not_false) rfl rfl
        ⟨fun _ _ => Option.some_ne_none _, fun t ht => ?_, fun _ => Option.some_ne_none _⟩
      exact h.adc.linked t (point_of_update (by simp only [ne_eq, reduceCtorEq,
        not_false_eq_true]) ht)
  | storeAdcPosition task =>
      rw [irqStep, Option.ite_none_right_eq_some, Option.some.injEq] at hstep
      rcases hstep with ⟨hpoint, rfl⟩
      -- The task has stored its callback before.
      have hstored := h.adc.stored task (Or.inl hpoint)
      exact h.frame rfl (fun _ => rfl) (fun _ => not_false) rfl rfl
        ⟨fun _ _ => hstored, fun _ _ => rfl, fun _ => hstored⟩
  | enableAdc task =>
      rw [irqStep, Option.ite_none_right_eq_some, Option.some.injEq] at hstep
      rcases hstep with ⟨hpoint, rfl⟩
      have henabled : ∀ n, (enableCpuInterruptAdc s.irq).enabled n = true ↔
          s.irq.enabled n = true ∨ 18 = n := by
        intro n
        rw [enableCpuInterruptAdc, h.adc.linked task hpoint]
        rw [show 18#32 = BitVec.ofNat 32 (18 : Fin 240).val by rfl, enabled_enableNvicInterrupt,
          Bool.or_eq_true, decide_eq_true_eq]
      have hstored := h.adc.stored task (Or.inr hpoint)
      refine ⟨?_, fun line => ?_, fun n => ?_, ⟨fun _ _ => hstored, fun _ _ => ?_,
        fun _ => hstored⟩⟩
      · rw [last_append]
        exact h.position
      · rw [last_append]
        exact h.handlers line
      · rw [henabled, h.enabled, occurs_append, or_assoc]
        exact Iff.rfl
      · exact h.adc.linked task hpoint
  | interrupt n =>
      rw [irqStep, Option.ite_none_right_eq_some, Option.map_eq_some_iff] at hstep
      rcases hstep with ⟨-, _, -, rfl⟩
      exact h.frame rfl (fun _ => rfl) (fun _ => not_false) rfl rfl h.adc

/-- A call that is not preempted is the function. -/
theorem run_linkExtiSrc (task : τ) (pin : Fin 16) (isrCallback : κ)
    (hpoint : s.point task = .outside) :
    run irqStep [.storePosition task pin isrCallback, .storeHandler task pin isrCallback,
        .enable task] s =
      some { irq := (linkExtiSrc isrCallback pin s.irq).2, point := s.point } := by
  simp only [run, irqStep, hpoint, if_true, Function.update_self, Function.update_idem]
  rw [← hpoint, Function.update_eq_self]
  rfl

theorem run_linkAdcSrc (task : τ) (isrCallback : κ) (hpoint : s.point task = .outside) :
    run irqStep [.storeAdcHandler task isrCallback, .storeAdcPosition task, .enableAdc task] s =
      some { irq := linkAdcSrc isrCallback s.irq, point := s.point } := by
  simp only [run, irqStep, hpoint, if_true, Function.update_self, Function.update_idem]
  rw [← hpoint, Function.update_eq_self]
  rfl

/-- What holds after a run from the boot, with any tasks. -/
theorem linkingInv_run (emptyIsr : κ) {es : List (IrqEvent τ κ)} {s : LinkingTasks τ κ}
    (hrun : run irqStep es (LinkingTasks.boot emptyIsr) = some s) : LinkingInv emptyIsr es s :=
  run_history irqStep (LinkingInv emptyIsr) (linkingInv_boot emptyIsr)
    (fun _ _ _ _ hinv hstep => irqStep_kept hinv hstep) es s hrun

/-- Which interrupts are enabled after a run from the boot, and what they call. -/
theorem links_kept (emptyIsr : κ) {es : List (IrqEvent τ κ)} {s : LinkingTasks τ κ}
    (hrun : run irqStep es (LinkingTasks.boot emptyIsr) = some s) :
    LinksKept emptyIsr es s.irq := by
  have h := linkingInv_run emptyIsr hrun
  refine ⟨h.enabled, serve_position h, fun n hn => serve_of_enabled h hn, ?_⟩
  intro before task pin isrCallback line between after hes hpin hbetween
  exact enabled_undisturbed h hes hpin hbetween

end Steps

/-- A task that links a pin is preempted after its first access by one that links another. -/
def preemptedLink (pin other : Fin 16) : List (IrqEvent Nat Nat) :=
  [.storePosition 0 pin 10, .storePosition 1 other 11, .storeHandler 1 other 11, .enable 1,
    .storeHandler 0 pin 10, .enable 0]

/-- The line of a task that is preempted between its two stores stays disabled. -/
theorem links_kept_preempted :
    ∃ s, run irqStep (preemptedLink 0 7) (LinkingTasks.boot 9) = some s ∧
      s.irq.enabled 6 = false ∧ s.irq.enabled 23 = true ∧
      s.irq.serve 6 = some (.callback 10) ∧ LinksKept 9 (preemptedLink 0 7) s.irq :=
  ⟨_, rfl, by decide, by decide, by decide, links_kept 9 rfl⟩

end NextLevelRTOS
