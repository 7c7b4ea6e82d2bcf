import NextLevelRTOS.Arch.Syscfg
import NextLevelRTOS.Irq.Links

/-!
# From an Edge to a Callback

A module that wants to be called on an edge of a pin makes five calls: it links its
callback, turns on the clock of the system configuration, connects the line of the pin
with the port, unmasks the line, and chooses the edge. An edge then has to find its way
through as many registers: its port must be the one that is connected, the line must be
unmasked and watch for this edge, and the interrupt of the line must be enabled; only
then the vector table leads to the callback.

The modules make these calls one after the other. What an edge does after any number of
them is said in terms of the calls: which edges interrupt, and which callback each of
them is for. From pin 4 on only port A gets through, whatever port was asked for, and
from pin 10 on nothing does.

## Main definitions

* `Wiring`: The registers.
* `extiActivateIrLine`, `extiDetectRisingEdge`, `extiDetectFallingEdge`,
  `syscfgEnableClock`: The functions.
* `Setup`, `setUp`: The five calls.
* `Wiring.interrupts`: The edge interrupts.
* `Setup.GetsThrough`: The edge interrupts, told from the calls.

## Theorems

* `run_setUp`: The calls as a run of one task.
* `source_setUp`, `lines_setUp`: The registers after the calls.
* `edges_served`: What an edge does.
-/

namespace NextLevelRTOS

open Acknowledge Fields Machine

universe u

/-- The edges a line can watch for. -/
inductive Edge where
  | rising
  | falling
  deriving DecidableEq, Repr

/-- `ExtiRegisterMap_t` as far as it is used, the registers for the sources of the lines
    and the register with their clock, and what `link_exti_src` is about. -/
structure Wiring (κ : Type u) where
  irq : Irq κ
  apb2enr : Word
  syscfgRegs : SysCfgRegisters
  imr1 : Word
  emr1 : Word
  rtsr1 : Word
  ftsr1 : Word

section Functions

variable {κ : Type u}

/-- `SyscfgEn` -/
def syscfgEn : Nat := 14

/-- `syscfg_enable_clock` -/
def syscfgEnableClock (s : Wiring κ) : Wiring κ :=
  { s with apb2enr := s.apb2enr ||| (1#32 <<< syscfgEn) }

/-- `syscfg_exti_config_0_3`. Without its clock the unit takes no values. -/
def Wiring.syscfgExtiConfig (pin : Fin 16) (port : Char) (s : Wiring κ) : Wiring κ :=
  if s.apb2enr.getLsbD syscfgEn then
    { s with syscfgRegs := (syscfgExtiConfig03 pin port s.syscfgRegs).2 }
  else s

/-- `exti_activate_ir_line` -/
def extiActivateIrLine (pin : Fin 16) (s : Wiring κ) : Wiring κ :=
  let s' := { s with imr1 := s.imr1 ||| (1#32 <<< pin.val) }
  { s' with emr1 := s'.emr1 ||| (1#32 <<< pin.val) }

/-- `exti_detect_rising_edge` -/
def extiDetectRisingEdge (pin : Fin 16) (s : Wiring κ) : Wiring κ :=
  { s with rtsr1 := s.rtsr1 ||| (1#32 <<< pin.val) }

/-- `exti_detect_falling_edge` -/
def extiDetectFallingEdge (pin : Fin 16) (s : Wiring κ) : Wiring κ :=
  { s with ftsr1 := s.ftsr1 ||| (1#32 <<< pin.val) }

/-- What a module asks for. -/
structure Setup (κ : Type u) where
  isrCallback : κ
  pin : Fin 16
  port : Char
  edge : Edge

/-- The calls of a module, in their order. -/
def setUp (s : Wiring κ) (u : Setup κ) : Wiring κ :=
  let linked := { s with irq := (linkExtiSrc u.isrCallback u.pin s.irq).2 }
  let connected := (syscfgEnableClock linked).syscfgExtiConfig u.pin u.port
  let unmasked := extiActivateIrLine u.pin connected
  match u.edge with
  | .rising => extiDetectRisingEdge u.pin unmasked
  | .falling => extiDetectFallingEdge u.pin unmasked

/-- After the boot no line is connected or unmasked, and the clock is that of the USART. -/
def Wiring.boot (emptyIsr : κ) : Wiring κ :=
  { irq := Irq.boot emptyIsr, apb2enr := 1#32 <<< 4, syscfgRegs := blankSysCfg, imr1 := 0#32,
    emr1 := 0#32, rtsr1 := 0#32, ftsr1 := 0#32 }

/-! ### The hardware -/

/-- The interrupt of a pin's line. The pins from 5 to 9 share one, and those from 10 on. -/
def extiInterrupt (pin : Fin 16) : Fin 240 :=
  match ExtiLine.ofPin pin with
  | some line => line.position
  | none => exti15_10Position

/-- The line watches for the edge. -/
def Wiring.watches (s : Wiring κ) (edge : Edge) (pin : Fin 16) : Bool :=
  match edge with
  | .rising => s.rtsr1.getLsbD pin
  | .falling => s.ftsr1.getLsbD pin

/-- An edge of a pin of a port interrupts. -/
def Wiring.interrupts (s : Wiring κ) (edge : Edge) (port : BitVec 4) (pin : Fin 16) : Bool :=
  decide (s.syscfgRegs.source pin = port) && s.watches edge pin && s.imr1.getLsbD pin &&
    s.irq.enabled (extiInterrupt pin)

end Functions

/-! ### The calls -/

namespace Setup

variable {κ : Type u}

/-- The call for the system configuration. -/
def extiCall (u : Setup κ) : ExtiCall := { pin := u.pin, port := u.port }

/-- The accesses of `link_exti_src`. -/
def linkEvents (u : Setup κ) : List (IrqEvent Unit κ) :=
  [.storePosition () u.pin u.isrCallback, .storeHandler () u.pin u.isrCallback, .enable ()]

/-- The callback for a line. -/
def callbackFor (line : ExtiLine) (u : Setup κ) : Option κ :=
  if ExtiLine.ofPin u.pin = some line then some u.isrCallback else none

/-- The ports that were asked for, for a pin, with all bits of all of them. -/
def joinedPort (us : List (Setup κ)) (pin : Fin 16) : BitVec 4 :=
  (us.map extiCall).foldl (joinWith (ExtiCall.portFor pin)) 0#4

/-- The edge interrupts, told from the calls: its pin is supported, some module asked for
    this edge of the pin, and the port is the one that was asked for. Where several were,
    it is the one that has the bits of all, and from pin 4 on it is port A. -/
structure GetsThrough (us : List (Setup κ)) (edge : Edge) (port : BitVec 4) (pin : Fin 16) :
    Prop where
  supported : ∃ line, ExtiLine.ofPin pin = some line
  asked : ∃ u ∈ us, u.pin = pin ∧ u.edge = edge
  connected : port = if pin.val < 4 then joinedPort us pin else 0#4

end Setup

section Runs

variable {κ : Type u}

/-- With the clock on, the values are taken. -/
theorem syscfgExtiConfig_clocked (pin : Fin 16) (port : Char) (s : Wiring κ) :
    (syscfgEnableClock s).syscfgExtiConfig pin port =
      { syscfgEnableClock s with syscfgRegs := (syscfgExtiConfig03 pin port s.syscfgRegs).2 } := by
  have hclock : (syscfgEnableClock s).apb2enr.getLsbD syscfgEn = true := by
    rw [syscfgEnableClock, getLsbD_setBit _ (by decide), decide_eq_true rfl, Bool.or_true]
  rw [Wiring.syscfgExtiConfig, if_pos hclock]
  rfl

/-- What the five calls do. -/
theorem setUp_eq (s : Wiring κ) (u : Setup κ) :
    setUp s u =
      { irq := (linkExtiSrc u.isrCallback u.pin s.irq).2,
        apb2enr := s.apb2enr ||| (1#32 <<< syscfgEn),
        syscfgRegs := u.extiCall.apply s.syscfgRegs,
        imr1 := s.imr1 ||| (1#32 <<< u.pin.val),
        emr1 := s.emr1 ||| (1#32 <<< u.pin.val),
        rtsr1 := if u.edge = .rising then s.rtsr1 ||| (1#32 <<< u.pin.val) else s.rtsr1,
        ftsr1 := if u.edge = .falling then s.ftsr1 ||| (1#32 <<< u.pin.val) else s.ftsr1 } := by
  rw [setUp, syscfgExtiConfig_clocked]
  cases u.edge <;> rfl

/-- The bit of a pin is set. -/
theorem setBit_pin (value : Word) (pin n : Fin 16) :
    (value ||| (1#32 <<< pin.val)).getLsbD n = (value.getLsbD n || decide (pin = n)) := by
  have hpin := pin.isLt
  rw [getLsbD_setBit _ (by omega)]
  congr 1
  rw [decide_eq_decide]
  exact Fin.ext_iff.symm

/-- The bit of a pin is set for one of the edges only. -/
theorem setBit_edge (value : Word) (u : Setup κ) (edge : Edge) (n : Fin 16) :
    (if u.edge = edge then value ||| (1#32 <<< u.pin.val) else value).getLsbD n =
      (value.getLsbD n || decide (u.pin = n ∧ u.edge = edge)) := by
  by_cases hedge : u.edge = edge
  · rw [if_pos hedge, setBit_pin]
    congr 1
    rw [decide_eq_decide, and_iff_left hedge]
  · rw [if_neg hedge, decide_eq_false fun h => hedge h.2, Bool.or_false]

/-- The lines that are unmasked. -/
theorem imr1_run (us : List (Setup κ)) (s : Wiring κ) (pin : Fin 16) :
    (us.foldl setUp s).imr1.getLsbD pin =
      (s.imr1.getLsbD pin || us.any fun u => decide (u.pin = pin)) := by
  refine foldl_set (fun s => s.imr1.getLsbD pin) (fun s u => ?_) us s
  rw [setUp_eq]
  exact setBit_pin _ _ _

/-- The edges that are watched for. -/
theorem watches_run (us : List (Setup κ)) (s : Wiring κ) (edge : Edge) (pin : Fin 16) :
    (us.foldl setUp s).watches edge pin =
      (s.watches edge pin || us.any fun u => decide (u.pin = pin ∧ u.edge = edge)) := by
  refine foldl_set (fun s => s.watches edge pin) (fun s u => ?_) us s
  rw [setUp_eq]
  cases edge with
  | rising => exact setBit_edge _ u .rising pin
  | falling => exact setBit_edge _ u .falling pin

/-- The ports that are connected. -/
theorem syscfgRegs_run (us : List (Setup κ)) (s : Wiring κ) :
    (us.foldl setUp s).syscfgRegs = (us.map Setup.extiCall).foldl ExtiCall.apply s.syscfgRegs := by
  rw [List.foldl_map]
  exact (List.foldl_hom Wiring.syscfgRegs fun s u => by rw [setUp_eq]).symm

/-- The calls, one after the other, as a run of one task. -/
theorem run_setUp [DecidableEq κ] (us : List (Setup κ)) (s : Wiring κ) :
    run irqStep (us.flatMap Setup.linkEvents) { irq := s.irq, point := fun _ => .outside } =
      some { irq := (us.foldl setUp s).irq, point := fun _ => .outside } := by
  induction us generalizing s with
  | nil => rfl
  | cons u us ih =>
      rw [List.flatMap_cons, run_append, List.foldl_cons, Setup.linkEvents,
        run_linkExtiSrc _ _ _ rfl, Option.bind_some, ← ih, setUp_eq]

/-- What is known of the variables in a run is known after the calls. -/
theorem linkingInv_setUp [DecidableEq κ] (emptyIsr : κ) (us : List (Setup κ)) :
    LinkingInv emptyIsr (us.flatMap Setup.linkEvents)
      { irq := (us.foldl setUp (Wiring.boot emptyIsr)).irq,
        point := fun _ : Unit => .outside } :=
  linkingInv_run emptyIsr (run_setUp us (Wiring.boot emptyIsr))

/-- The callback of a line is the one it was last given. -/
theorem last_linkEvents (us : List (Setup κ)) (line : ExtiLine) (emptyIsr : κ) :
    last (IrqEvent.callback line) (us.flatMap Setup.linkEvents) emptyIsr =
      last (Setup.callbackFor line) us emptyIsr :=
  last_flatMap (fun _ _ => rfl) us emptyIsr

/-- A pin that a module asked for has its interrupt enabled, if it is supported. -/
theorem enabled_of_asked {us : List (Setup κ)} {emptyIsr : κ} {s : LinkingTasks Unit κ}
    (h : LinkingInv emptyIsr (us.flatMap Setup.linkEvents) s) {u : Setup κ} (hu : u ∈ us)
    {line : ExtiLine} (hline : ExtiLine.ofPin u.pin = some line) :
    s.irq.enabled line.position = true := by
  rcases List.append_of_mem hu with ⟨before, after, rfl⟩
  have hcall : (before ++ u :: after).flatMap Setup.linkEvents =
      before.flatMap Setup.linkEvents ++ .storePosition () u.pin u.isrCallback ::
        [.storeHandler () u.pin u.isrCallback] ++ .enable () ::
          after.flatMap Setup.linkEvents := by
    rw [List.flatMap_append, List.flatMap_cons, Setup.linkEvents]
    simp only [List.cons_append, List.nil_append, List.append_assoc]
  refine enabled_undisturbed h hcall hline fun e he n hn => ?_
  rw [List.mem_singleton.mp he] at hn
  exact absurd hn (by simp only [IrqEvent.position, reduceCtorEq, not_false_eq_true])

theorem extiInterrupt_some {pin : Fin 16} {line : ExtiLine} (h : ExtiLine.ofPin pin = some line) :
    extiInterrupt pin = line.position := by
  rw [extiInterrupt, h]

theorem extiInterrupt_none {pin : Fin 16} (h : ExtiLine.ofPin pin = none) :
    extiInterrupt pin = exti15_10Position := by
  rw [extiInterrupt, h]

/-- The interrupt of the pins from 10 on is never enabled. -/
theorem not_enabled_unsupported {es : List (IrqEvent Unit κ)} {emptyIsr : κ}
    {s : LinkingTasks Unit κ} (h : LinkingInv emptyIsr es s) :
    s.irq.enabled exti15_10Position ≠ true := by
  intro hc
  rcases (h.enabled exti15_10Position).mp hc with hboot | ⟨before, e, after, -, hasks⟩
  · exact absurd hboot (by decide)
  · cases e with
    | enable task =>
        have hlast : last IrqEvent.position before 0 = exti15_10Position := hasks
        rcases position_cases before with h0 | ⟨line, hposition⟩
        · rw [h0] at hlast
          exact absurd hlast (by decide)
        · rw [hposition] at hlast
          revert hlast
          cases line <;> decide
    | enableAdc task => exact absurd hasks (by simp only [IrqEvent.Asks]; decide)
    | _ => exact absurd hasks not_false

theorem source_blank : ∀ pin, blankSysCfg.source pin = 0#4 := by
  decide

theorem watches_boot (emptyIsr : κ) (edge : Edge) (pin : Fin 16) :
    (Wiring.boot emptyIsr).watches edge pin = false := by
  cases edge <;> exact BitVec.getLsbD_zero

theorem imr1_boot (emptyIsr : κ) (pin : Fin 16) :
    (Wiring.boot emptyIsr).imr1.getLsbD pin = false := BitVec.getLsbD_zero

end Runs

/-- What edges do after the calls: which of them interrupt, and whose callback is called. -/
structure EdgesServed {κ : Type u} (emptyIsr : κ) (us : List (Setup κ)) (s : Wiring κ) :
    Prop where
  interrupts : ∀ edge port pin,
    s.interrupts edge port pin = true ↔ Setup.GetsThrough us edge port pin
  serves : ∀ pin line, ExtiLine.ofPin pin = some line →
    s.irq.serve (extiInterrupt pin) =
      some (.callback (last (Setup.callbackFor line) us emptyIsr))

/-- For any calls of any modules, one module after the other. -/
theorem edges_served {κ : Type u} [DecidableEq κ] (emptyIsr : κ) (us : List (Setup κ)) :
    EdgesServed emptyIsr us (us.foldl setUp (Wiring.boot emptyIsr)) := by
  have h := linkingInv_setUp emptyIsr us
  refine ⟨fun edge port pin => ?_, fun pin line hline => ?_⟩
  · have hsource : (us.foldl setUp (Wiring.boot emptyIsr)).syscfgRegs.source pin =
        if pin.val < 4 then Setup.joinedPort us pin else 0#4 := by
      rw [syscfgRegs_run, source_run, show (Wiring.boot emptyIsr).syscfgRegs.source pin = 0#4 from
        source_blank pin]
      rfl
    rw [Wiring.interrupts, Bool.and_eq_true, Bool.and_eq_true, Bool.and_eq_true,
      decide_eq_true_eq, hsource, watches_run, watches_boot, imr1_run, imr1_boot, Bool.false_or,
      Bool.false_or, List.any_eq_true, List.any_eq_true]
    constructor
    · rintro ⟨⟨⟨hport, u, hu, hasked⟩, -⟩, henabled⟩
      refine ⟨?_, ⟨u, hu, of_decide_eq_true hasked⟩, hport.symm⟩
      -- The line of an unsupported pin is not enabled.
      cases hline : ExtiLine.ofPin pin with
      | some line => exact ⟨line, rfl⟩
      | none =>
          have hoff := not_enabled_unsupported h
          rw [extiInterrupt_none hline] at henabled
          exact absurd henabled hoff
    · rintro ⟨⟨line, hline⟩, ⟨u, hu, hpin, hedge⟩, hport⟩
      have hon := enabled_of_asked h hu (by rw [hpin, hline])
      rw [extiInterrupt_some hline]
      exact ⟨⟨⟨hport.symm, u, hu, decide_eq_true ⟨hpin, hedge⟩⟩, u, hu, decide_eq_true hpin⟩, hon⟩
  · have hserve := serve_position h line
    rw [extiInterrupt_some hline, ← last_linkEvents]
    exact hserve

/-- Two modules ask for pin 1, of port B and of port C, and get that of port D. -/
example :
    ([{ isrCallback := 10, pin := 1, port := 'B', edge := .falling },
        { isrCallback := 11, pin := 1, port := 'C', edge := .falling }].foldl setUp
      (Wiring.boot 9)).interrupts .falling 3#4 1 = true := by
  decide

end NextLevelRTOS
