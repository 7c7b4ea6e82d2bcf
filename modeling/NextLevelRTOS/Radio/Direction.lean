import NextLevelRTOS.Radio.Registers

/-!
# One Direction at a Time

The radio is a receiver or a transmitter, and the bit `PRIM_RX` of `CONFIG` says which.
A receiver sends nothing, whatever is in its transmit queue and whichever function is
called, until `disable_rx` or `configure_device` has made it a transmitter: not in the
middle of a call either, when `CONFIG` has been written in part. And a transmitter takes
nothing in until `enable_rx_and_listen` or `configure_device` has made it a receiver.

## Main definitions

* `RadioCall.turns`: The calls that may change the direction.
* `OneWay`: What a chip does not do that has a direction.

## Theorems

* `setBit_oneWay`, `clearBit_oneWay`: The other bits of `CONFIG`.
* `half_duplex`: What holds while the direction is kept.
-/

namespace NextLevelRTOS

open Acknowledge Bits Polling

/-- The payload, if it was sent. -/
def Departure.sentPayload : Departure → Option (List Byte)
  | .sent payload => some payload
  | .flushed _ => none

/-- What has been sent. -/
def Radio.sentPayloads (s : Radio) : List (List Byte) := s.gone.filterMap Departure.sentPayload

/-- The chip is a receiver. -/
def Radio.primRx (s : Radio) : Bool := s.config.getLsbD PRIM_RX

/-- The call may make a receiver a transmitter, or the other way round. -/
def RadioCall.turns (receiver : Bool) : RadioCall → Bool
  | .disableRx => receiver
  | .enableRxAndListen => !receiver
  | .configureDevice _ _ _ => true
  | _ => false

/-- The chip has its direction, and has done nothing in the other one. -/
def OneWay (receiver : Bool) (before s : Radio) : Prop :=
  s.primRx = receiver ∧
    if receiver then s.sentPayloads = before.sentPayloads else s.rx <:+ before.rx

section OneWay

variable {si : Silicon} {stack : CharBuffer} {receiver : Bool} {before : Radio}

/-- What does not concern the direction. -/
theorem oneWay_of_eq {s s' : Radio} (h : OneWay receiver before s) (hconfig : s'.config = s.config)
    (hgone : s'.sentPayloads = s.sentPayloads) (hrx : s'.rx <:+ s.rx) :
    OneWay receiver before s' := by
  rcases h with ⟨hprim, hkept⟩
  refine ⟨by rw [Radio.primRx, hconfig]; exact hprim, ?_⟩
  cases receiver with
  | true => exact hgone.trans hkept
  | false => exact hrx.trans hkept

theorem oneWay_steady : Steady (OneWay receiver before) := by
  refine ⟨fun e s hs => ?_, fun s b hs => oneWay_of_eq hs rfl rfl (List.suffix_refl _)⟩
  rcases hs with ⟨hprim, hkept⟩
  have hconfig := move_config e s
  refine ⟨by rw [Radio.primRx, hconfig]; exact hprim, ?_⟩
  cases receiver with
  | true =>
      rcases move_queue e s with ⟨_, ⟨_, hgone⟩ | ⟨_, _, htransmits, _⟩⟩
      · rw [if_pos rfl, Radio.sentPayloads, hgone]
        exact hkept
      · -- A receiver does not transmit.
        rw [transmits, show s.config.getLsbD PRIM_RX = true from hprim, Bool.not_true,
          Bool.and_false] at htransmits
        exact Bool.noConfusion htransmits
  | false =>
      rcases move_rx e s with hrx | hreceives
      · rw [if_neg Bool.false_ne_true, hrx]
        exact hkept
      · rw [receives, show s.config.getLsbD PRIM_RX = false from hprim, Bool.and_false]
          at hreceives
        exact Bool.noConfusion hreceives

theorem oneWay_ce : ∀ s ce, OneWay receiver before s → OneWay receiver before { s with ce := ce } :=
  fun _ _ hs => oneWay_of_eq hs rfl rfl (List.suffix_refl _)

/-- What is thrown away is not sent. -/
theorem flush_sentPayloads (s : Radio) :
    (s.gone ++ s.tx.map Departure.flushed).filterMap Departure.sentPayload = s.sentPayloads := by
  rw [List.filterMap_append, List.filterMap_map]
  have hnone : s.tx.filterMap (Departure.sentPayload ∘ Departure.flushed) = [] :=
    List.filterMap_eq_nil_iff.mpr fun _ _ => rfl
  rw [hnone, List.append_nil]
  rfl

theorem oneWay_calm : Calm si (OneWay receiver before) :=
  { toSteady := oneWay_steady
    status := fun s data hs => oneWay_of_eq hs
      (congrFun (writeStatus_register (by decide) data) 0) rfl (List.suffix_refl _)
    ce := oneWay_ce
    rx := fun s rx hrx hs => oneWay_of_eq hs rfl rfl hrx
    flush := fun s hs => oneWay_of_eq hs rfl (flush_sentPayloads s) (List.suffix_refl _) }

theorem writeConfig_config (si : Silicon) (s : Radio) (value : Byte) :
    (s.write si RegisterName.CONFIG.number [value]).config = mergeBits 0x7F#8 s.config value := by
  have hput : Reflects (Settings.put si s.registers .CONFIG 1 fun _ => value)
      (s.write si RegisterName.CONFIG.number [value]) :=
    write_reflects (fun _ _ => rfl) config_stored 1 fun _ => value
  rw [Settings.put_config] at hput
  exact (congrFun (hput _ config_quiet) 0).trans (Settings.withConfig_config s.registers _)

/-- A bit that the register has is stored. -/
theorem mergeBits_bit {bits : Byte} (old new : Byte) {i : Nat} (hbit : bits.getLsbD i = true) :
    (mergeBits bits old new).getLsbD i = new.getLsbD i := by
  rw [mergeBits, BitVec.getLsbD_or, BitVec.getLsbD_and, BitVec.getLsbD_and, BitVec.getLsbD_not,
    hbit, Bool.not_true, Bool.and_false, Bool.and_false, Bool.and_true, Bool.false_or]

/-- `CONFIG` is written with the direction that the chip has. -/
theorem putConfig_oneWay {value : Byte} (hvalue : value.getLsbD PRIM_RX = receiver) :
    Maintains (OneWay receiver before) (Radio.replaceNrfRegister si stack .CONFIG value) := by
  refine triple_put oneWay_steady (fun _ hs => hs) fun s hs => ⟨?_, hs.2⟩
  rw [Radio.primRx, writeConfig_config, mergeBits_bit _ _ rfl]
  exact hvalue

theorem getConfig_oneWay : Triple (OneWay receiver before) (OneWay receiver before)
    (Radio.getNrfRegister si stack .CONFIG)
    fun config s => config.getLsbD PRIM_RX = receiver ∧ OneWay receiver before s := by
  refine triple_get oneWay_steady (fun _ hs => hs) fun s hs b =>
    ⟨?_, oneWay_steady.buffer s b hs⟩
  rw [read_stored (fun _ _ => rfl) config_stored 0]
  exact hs.1

/-- A bit is set that leaves the direction as it is. -/
theorem setBit_oneWay {n : Nat} (hn : n < 8) (hkeep : n = PRIM_RX → receiver = true) :
    Maintains (OneWay receiver before) (Radio.setBitNrfRegister si stack .CONFIG n) := by
  refine triple_bind getConfig_oneWay fun config => triple_assume fun hconfig =>
    putConfig_oneWay ?_
  rw [getLsbD_setBit config hn, hconfig]
  by_cases hbit : n = PRIM_RX
  · rw [decide_eq_true hbit, Bool.or_true, hkeep hbit]
  · rw [decide_eq_false hbit, Bool.or_false]

/-- A bit is cleared that does. -/
theorem clearBit_oneWay {n : Nat} (hn : n < 8) (hkeep : n = PRIM_RX → receiver = false) :
    Maintains (OneWay receiver before) (Radio.clearBitNrfRegister si stack .CONFIG n) := by
  refine triple_bind getConfig_oneWay fun config => triple_assume fun hconfig =>
    putConfig_oneWay ?_
  rw [getLsbD_clearBit config hn, hconfig]
  by_cases hbit : n = PRIM_RX
  · rw [decide_eq_true hbit, Bool.not_true, Bool.and_false, hkeep hbit]
  · rw [decide_eq_false hbit, Bool.not_false, Bool.and_true]

theorem load_oneWay (length : Nat) (payload : CharBuffer) : Maintains (OneWay receiver before)
    (Radio.loadTxBuffer si stack length payload) := by
  refine maintains_bind (maintains_get oneWay_steady) fun fifoStatus => ?_
  split
  · exact maintains_pure
  · refine maintains_bind (maintains_access oneWay_steady.stable fun s hs => ?_) fun _ =>
      maintains_bind (triple_note fun s hs => oneWay_of_eq hs rfl rfl (List.suffix_refl _))
        fun _ => maintains_pure
    rcases payload_wire stack length payload with ⟨data, hwire, _⟩
    change OneWay receiver before
      (s.execute si (transfer (-1) (length + 1) .WTxPayload payload stack stack).1)
    rw [hwire, Radio.execute, if_pos rfl]
    split
    · exact oneWay_of_eq hs rfl rfl (List.suffix_refl _)
    · exact hs

/-- Every call that does not turn the chip round. -/
theorem perform_oneWay {timeToSettle : Word} {call : RadioCall}
    (hturns : call.turns receiver = false) :
    Maintains (OneWay receiver before) (call.perform si stack timeToSettle) := by
  have hpower : (1 : Nat) ≠ PRIM_RX ∧ (3 : Nat) ≠ PRIM_RX := by decide
  cases call with
  | loadTxBuffer length payload => exact maintains_ignore (load_oneWay length payload)
  | enableRxAndListen =>
      have hreceiver : receiver = true := by
        cases receiver with
        | true => rfl
        | false => exact Bool.noConfusion hturns
      exact maintains_bind (clearBit_oneWay (by decide) fun hc => absurd hc hpower.1) fun _ =>
        maintains_bind (setBit_oneWay (by decide) fun _ => hreceiver) fun _ =>
        maintains_bind (setBit_oneWay (by decide) fun hc => absurd hc hpower.1) fun _ =>
        maintains_ce oneWay_steady oneWay_ce true
  | disableRx =>
      exact maintains_bind (clearBit_oneWay (by decide) fun hc => absurd hc hpower.1) fun _ =>
        maintains_bind (clearBit_oneWay (by decide) fun _ => hturns) fun _ =>
        maintains_bind (setBit_oneWay (by decide) fun hc => absurd hc hpower.1) fun _ =>
        maintains_ce oneWay_steady oneWay_ce false
  | nrfPowerOn => exact setBit_oneWay (by decide) fun hc => absurd hc hpower.1
  | nrfPowerOff => exact clearBit_oneWay (by decide) fun hc => absurd hc hpower.1
  | enableCrc =>
      exact maintains_ignore (maintains_bind
        (setBit_oneWay (by decide) fun hc => absurd hc hpower.2) fun _ =>
        maintains_bind (maintains_get oneWay_steady) fun _ => maintains_pure)
  | disableCrc =>
      exact maintains_ignore (maintains_bind
        (clearBit_oneWay (by decide) fun hc => absurd hc hpower.2) fun _ =>
        maintains_bind (maintains_get oneWay_steady) fun _ => maintains_pure)
  | configureDevice nrfRegs mode memory => exact Bool.noConfusion hturns
  | _ => exact maintains_calm oneWay_calm rfl

end OneWay

/-- As long as no call turns it round, a receiver sends nothing and a transmitter takes
    nothing in: at every time of every session, whatever the chip does by itself. -/
theorem half_duplex (si : Silicon) (stack : CharBuffer) (timeToSettle : Word)
    (calls : List RadioCall) (sched : List (List RadioEvent)) (s : Radio)
    (hturns : ∀ call ∈ calls, call.turns s.primRx = false) :
    OneWay s.primRx s (session si stack timeToSettle calls sched s).state := by
  refine triple_state (maintains_each fun call hmem => perform_oneWay (hturns call hmem)) sched
    ⟨rfl, ?_⟩
  cases s.primRx with
  | true => rfl
  | false => exact List.suffix_refl _

/-- A receiver with a loaded queue that is asked to send. -/
theorem half_duplex_receiver :
    OneWay true { ackLoaded with registers := fun _ _ => 0x03#8 }
      (session plainSilicon zeros 0#32 [.loadTxBuffer 1 zeros, .transmitAllPackages]
        (List.replicate 9 [.start, .finish])
        { ackLoaded with registers := fun _ _ => 0x03#8 }).state :=
  half_duplex plainSilicon zeros 0#32 [.loadTxBuffer 1 zeros, .transmitAllPackages] _
    { ackLoaded with registers := fun _ _ => 0x03#8 } (by decide)

end NextLevelRTOS
