import NextLevelRTOS.Radio.Calls

/-!
# The Transmit Queue

What becomes of the payloads that are handed to the driver. A payload is loaded when
the status of the queues says that there is room, and the chip can only make more
room until the payload comes. So it is never dropped for want of room, and every
payload for which `load_tx_buffer` has returned 1 is in the queue or has left it, in
the order of the calls and once only. This is so in the middle of any call, wherever
a busy wait has got to and whatever the chip does by itself.

## Main definitions

* `Queued`: Where the payloads are.

## Theorems

* `queued_stable`, `queued_calm`: What the chip keeps, and what most of the calls do.
* `load_queued`: A payload is accepted only if it gets into the queue.
* `session_queue`: What holds in every session.
-/

namespace NextLevelRTOS

open Bits Buffer Polling

/-- The payloads that have left the transmit queue. -/
def Radio.departed (s : Radio) : List (List Byte) := s.gone.map Departure.payload

/-- Of what was offered, some was accepted since `before`, and this is what has left the
    queue and what is in it, behind what there was at the start. The last ones, `pending`,
    are in the queue but not accepted yet. -/
structure Queued (start before offered pending : List (List Byte)) (s : Radio) : Prop where
  room : s.tx.length ≤ 3
  split : ∃ more, s.accepted = before ++ more ∧ more.Sublist offered ∧
    s.departed ++ s.tx = start ++ more ++ pending

section Chip

variable {si : Silicon} {stack : CharBuffer} {s : Radio}
variable {start before offered pending : List (List Byte)}

/-- What the chip does by itself takes payloads out in front only. -/
theorem queued_stable : Stable Radio.move (Queued start before offered pending) := by
  rintro e s ⟨hroom, more, haccepted, hoffered, hsplit⟩
  rcases move_queue e s with ⟨hacc, ⟨htx, hgone⟩ | ⟨_, _, _, payload, htx, hgone⟩⟩
  · refine ⟨htx.symm ▸ hroom, more, hacc.trans haccepted, hoffered, ?_⟩
    rw [Radio.departed, hgone, htx]
    exact hsplit
  · rw [htx] at hroom hsplit
    refine ⟨Nat.le_of_succ_le hroom, more, hacc.trans haccepted, hoffered, ?_⟩
    rw [Radio.departed, hgone, List.map_append, List.map_singleton, List.append_assoc]
    exact hsplit

theorem queued_steady : Steady (Queued start before offered pending) :=
  ⟨queued_stable, fun _ _ h => ⟨h.room, h.split⟩⟩

/-- What is thrown away leaves the queue in its order. -/
theorem flush_queued (h : Queued start before offered pending s) :
    Queued start before offered pending
      { s with tx := [], gone := s.gone ++ s.tx.map .flushed, sending := false } := by
  rcases h.split with ⟨more, haccepted, hoffered, hsplit⟩
  refine ⟨Nat.zero_le 3, more, haccepted, hoffered, ?_⟩
  rw [← hsplit]
  simp only [Radio.departed, List.map_append, List.map_map, List.append_nil]
  congr 1
  exact List.map_id _

theorem write_queued (number : BitVec 5) (data : List Byte)
    (h : Queued start before offered pending s) :
    Queued start before offered pending (s.write si number data) :=
  ⟨h.room, h.split⟩

/-- Room in the queue stays. -/
theorem notFull_stable : Stable Radio.move fun s => s.tx.length < 3 := by
  intro e s hs
  rcases move_queue e s with ⟨_, ⟨htx, _⟩ | ⟨_, _, _, payload, htx, _⟩⟩
  · rw [htx]
    exact hs
  · rw [htx] at hs
    exact Nat.lt_of_succ_lt hs

/-- What goes out with a payload: behind the command, 32 bytes of it at most reach the
    queue. -/
theorem payload_wire (stack : CharBuffer) (length : Nat) (payload : CharBuffer) :
    ∃ data, (transfer (-1) (length + 1) .WTxPayload payload stack stack).1 =
        W_TX_PAYLOAD :: data ∧ data.take 32 = loadedPayload length payload := by
  have hwire : (transfer (-1) (length + 1) .WTxPayload payload stack stack).1 =
      (List.range (length + 1 + 1)).map
        (fillTxBuffer (-1) (length + 1) .WTxPayload payload stack) := by
    rw [transfer, spiWrite, loop_collect, List.nil_append]
  rw [hwire, List.range_succ_eq_map, List.map_cons, fillTxBuffer_command, List.map_map]
  refine ⟨_, rfl, ?_⟩
  rw [← List.map_take, List.take_range, loadedPayload]
  refine List.map_congr_left fun i hi => ?_
  have hlt := List.mem_range.mp hi
  refine fillTxBuffer_data (by decide) (Nat.lt_of_lt_of_le hlt (Nat.min_le_right _ _)) ?_
  exact Nat.lt_of_lt_of_le hlt (Nat.le_trans (Nat.min_le_left _ _) (by decide))

/-- A payload gets into the queue when there is room. -/
theorem loadPayload_queued (length : Nat) (payload : CharBuffer)
    (h : Queued start before offered [] s) (hnotFull : s.tx.length < 3) :
    Queued start before offered [loadedPayload length payload]
      (s.loadPayload si stack length payload).2 := by
  rcases payload_wire stack length payload with ⟨data, hwire, htake⟩
  rcases h.split with ⟨more, haccepted, hoffered, hsplit⟩
  have hexecute : (s.loadPayload si stack length payload).2 =
      { s with tx := s.tx ++ [loadedPayload length payload] } := by
    change s.execute si (transfer (-1) (length + 1) .WTxPayload payload stack stack).1 = _
    rw [hwire, Radio.execute, if_pos rfl, if_pos hnotFull, htake]
  rw [hexecute]
  refine ⟨?_, more, haccepted, hoffered, ?_⟩
  · rw [List.length_append]
    exact hnotFull
  · rw [List.append_nil] at hsplit
    rw [← hsplit, ← List.append_assoc]
    rfl

end Chip

/-! ### Calls -/

section Calls

variable {si : Silicon} {stack : CharBuffer} {timeToSettle : Word}
variable {start before offered : List (List Byte)}

theorem queued_write (register : RegisterName) : ∀ s data,
    Queued start before offered [] s →
      Queued start before offered [] (s.write si register.number data) :=
  fun _ data h => write_queued register.number data h

theorem queued_ce : ∀ s ce, Queued start before offered [] s →
    Queued start before offered [] { s with ce := ce } :=
  fun _ _ h => ⟨h.room, h.split⟩

theorem queued_calm : Calm si (Queued start before offered []) :=
  { toSteady := queued_steady
    status := fun _ data h => write_queued _ data h
    ce := queued_ce
    rx := fun _ _ _ h => ⟨h.room, h.split⟩
    flush := fun _ h => flush_queued h }

/-- A payload is accepted only if it gets into the queue. -/
theorem load_queued (length : Nat) (payload : CharBuffer) :
    Triple (Queued start before (offered ++ [loadedPayload length payload]) [])
      (Queued start before offered []) (Radio.loadTxBuffer si stack length payload)
      fun _ => Queued start before (offered ++ [loadedPayload length payload]) [] := by
  have hmore : ∀ s, Queued start before offered [] s →
      Queued start before (offered ++ [loadedPayload length payload]) [] s := by
    rintro s ⟨hroom, more, haccepted, hoffered, hsplit⟩
    exact ⟨hroom, more, haccepted, hoffered.trans (List.sublist_append_left _ _), hsplit⟩
  have hread : Triple (Queued start before (offered ++ [loadedPayload length payload]) [])
      (Queued start before offered []) (Radio.getNrfRegister si stack .FIFO_STATUS)
      fun fifoStatus s => Queued start before offered [] s ∧
        (¬ fifoStatus &&& (1#8 <<< 5) ≠ 0#8 → s.tx.length < 3) := by
    refine triple_get queued_steady hmore fun s hs b => ⟨⟨hs.room, hs.split⟩, fun hstatus => ?_⟩
    rw [read_fifoStatus, fifoStatus_full] at hstatus
    exact Nat.lt_of_not_le hstatus
  refine triple_bind hread fun fifoStatus => ?_
  split
  · exact triple_pure fun s hs => hmore s hs.1
  next hstatus =>
    refine triple_bind (Q := fun _ => Queued start before offered [loadedPayload length payload])
      (triple_mono (triple_access (stable_and queued_stable notFull_stable)
        (fun s hs => hmore s hs.1) fun s hs => loadPayload_queued length payload hs.1 hs.2)
        (fun s hs => ⟨hs.1, hs.2 hstatus⟩) fun _ _ hs => hs) fun _ => ?_
    refine triple_bind (triple_note fun s hs => ?_) fun _ => triple_pure fun _ hs => hs
    rcases hs with ⟨hroom, more, haccepted, hoffered, hsplit⟩
    refine ⟨hroom, more ++ [loadedPayload length payload], ?_, hoffered.append_right _, ?_⟩
    · rw [← List.append_assoc, ← haccepted]
    · rw [List.append_nil, ← List.append_assoc start, ← hsplit]
      rfl

theorem queued_setBit (register : RegisterName) (n : Nat) :
    Maintains (Queued start before offered []) (Radio.setBitNrfRegister si stack register n) :=
  maintains_setBit queued_steady (queued_write register)

theorem queued_clearBit (register : RegisterName) (n : Nat) :
    Maintains (Queued start before offered []) (Radio.clearBitNrfRegister si stack register n) :=
  maintains_clearBit queued_steady (queued_write register)

theorem queued_put (register : RegisterName) (value : Byte) :
    Maintains (Queued start before offered []) (Radio.replaceNrfRegister si stack register value) :=
  maintains_put queued_steady (queued_write register)

theorem queued_putLong (register : RegisterName) (payload : CharBuffer) :
    Maintains (Queued start before offered [])
      (Radio.setNrfRegisterLong si stack register payload) :=
  maintains_putLong queued_steady (queued_write register)

theorem queued_configureDevice (nrfRegs : RegisterFile) (mode : OperatingMode)
    (memory : RegisterFile) : Maintains (Queued start before offered [])
      (Radio.configureDevice si stack nrfRegs mode memory) := by
  have hmode : Maintains (Queued start before offered []) (Radio.setDirection si stack mode) := by
    cases mode with
    | SLAVE => exact queued_setBit _ _
    | MASTER => exact queued_clearBit _ _
  have hwrites : Maintains (Queued start before offered [])
      (Radio.writeConfiguration si stack nrfRegs) :=
    maintains_bind (queued_putLong _ _) fun _ => maintains_bind (queued_putLong _ _) fun _ =>
      maintains_bind (queued_put _ _) fun _ => maintains_bind (queued_put _ _) fun _ =>
      maintains_bind (queued_putLong _ _) fun _ => maintains_bind (queued_put _ _) fun _ =>
      maintains_bind (queued_put _ _) fun _ => maintains_bind (queued_put _ _) fun _ =>
      maintains_bind (queued_put _ _) fun _ => maintains_bind (queued_put _ _) fun _ =>
      queued_put _ _
  have hcrc : Maintains (Queued start before offered []) (Radio.disableCrc si stack) :=
    maintains_bind (queued_clearBit _ _) fun _ => maintains_bind (maintains_get queued_steady)
      fun _ => maintains_pure
  refine maintains_bind (maintains_ce queued_steady queued_ce false) fun _ =>
    maintains_bind (queued_clearBit _ _) fun _ =>
    maintains_bind (queued_put _ _) fun _ => maintains_bind hmode fun _ =>
    maintains_bind (queued_put _ _) fun _ => maintains_bind hcrc fun disabled => ?_
  split
  · exact maintains_pure
  · exact maintains_bind hwrites fun _ => maintains_bind (queued_setBit _ _) fun _ =>
      maintains_bind (maintains_readFields queued_steady _ _) fun _ => maintains_pure

/-- The calls that are no loads. -/
theorem other_queued (call : RadioCall) (hload : call.payload = none) :
    Maintains (Queued start before offered []) (call.perform si stack timeToSettle) := by
  cases call with
  | loadTxBuffer length payload => exact absurd hload (Option.some_ne_none _)
  | enableRxAndListen =>
      exact maintains_bind (queued_clearBit _ _) fun _ =>
        maintains_bind (queued_setBit _ _) fun _ => maintains_bind (queued_setBit _ _) fun _ =>
        maintains_ce queued_steady queued_ce true
  | disableRx =>
      exact maintains_bind (queued_clearBit _ _) fun _ =>
        maintains_bind (queued_clearBit _ _) fun _ => maintains_bind (queued_setBit _ _) fun _ =>
        maintains_ce queued_steady queued_ce false
  | nrfPowerOn => exact queued_setBit _ _
  | nrfPowerOff => exact queued_clearBit _ _
  | enableCrc =>
      exact maintains_ignore (maintains_bind (queued_setBit _ _) fun _ =>
        maintains_bind (maintains_get queued_steady) fun _ => maintains_pure)
  | disableCrc =>
      exact maintains_ignore (maintains_bind (queued_clearBit _ _) fun _ =>
        maintains_bind (maintains_get queued_steady) fun _ => maintains_pure)
  | configureDevice nrfRegs mode memory =>
      exact maintains_ignore (queued_configureDevice nrfRegs mode memory)
  | _ => exact maintains_calm queued_calm rfl

/-- Any call: what it offers may be accepted. -/
theorem perform_queued (call : RadioCall) :
    Triple (Queued start before (offered ++ call.payload.toList) [])
      (Queued start before offered []) (call.perform si stack timeToSettle)
      fun _ => Queued start before (offered ++ call.payload.toList) [] := by
  cases hpayload : call.payload with
  | none =>
      rw [Option.toList_none, List.append_nil]
      exact other_queued call hpayload
  | some bytes =>
      cases call with
      | loadTxBuffer length payload =>
          obtain rfl := Option.some.inj hpayload
          exact triple_bind (load_queued length payload) fun _ => triple_pure fun _ hs => hs
      | _ => exact absurd hpayload.symm (Option.some_ne_none _)

end Calls

/-! ### Sessions -/

/-- In every session, wherever it has got to and whatever the chip does by itself: what
    has left the queue, followed by what is in it, is what there was at the start,
    followed by what was accepted since. And the queue holds three payloads at most. -/
theorem session_queue (si : Silicon) (stack : CharBuffer) (timeToSettle : Word)
    (calls : List RadioCall) (sched : List (List RadioEvent)) (s : Radio)
    (hroom : s.tx.length ≤ 3) :
    Queued (s.departed ++ s.tx) s.accepted (calls.filterMap RadioCall.payload) []
      (session si stack timeToSettle calls sched s).state := by
  let I : Radio → Prop :=
    Queued (s.departed ++ s.tx) s.accepted (calls.filterMap RadioCall.payload) []
  let Inv : List RadioCall → List RadioCall → Radio → Prop := fun before after t =>
    before ++ after = calls ∧
      Queued (s.departed ++ s.tx) s.accepted (before.filterMap RadioCall.payload) [] t
  have hmore : ∀ {offered t}, Queued (s.departed ++ s.tx) s.accepted offered [] t →
      offered.Sublist (calls.filterMap RadioCall.payload) → I t := by
    rintro offered t ⟨hlen, more, haccepted, hoffered, hsplit⟩ hsub
    exact ⟨hlen, more, haccepted, hoffered.trans hsub, hsplit⟩
  have hbody : ∀ before call after, Triple I (Inv before (call :: after))
      (call.perform si stack timeToSettle) fun _ => Inv (before ++ [call]) after := by
    intro before call after
    have hpayload : (before ++ [call]).filterMap RadioCall.payload =
        before.filterMap RadioCall.payload ++ call.payload.toList := by
      rw [List.filterMap_append]
      cases hcall : call.payload <;> simp only [List.filterMap_cons, hcall, List.filterMap_nil,
        Option.toList_none, Option.toList_some]
    refine triple_assume fun hcalls => ?_
    have hoffered : (before.filterMap RadioCall.payload ++ call.payload.toList).Sublist
        (calls.filterMap RadioCall.payload) := by
      rw [← hpayload, ← hcalls]
      refine (List.Sublist.append_left ?_ before).filterMap _
      exact List.singleton_sublist.mpr List.mem_cons_self
    refine triple_mono (triple_wait (perform_queued call) fun t ht => hmore ht hoffered)
      (fun _ ht => ht) fun _ t ht => ⟨?_, ?_⟩
    · rw [List.append_assoc, List.singleton_append, hcalls]
    · rw [hpayload]
      exact ht
  have hsession : Triple I (Inv [] calls) (session si stack timeToSettle calls) fun _ => I :=
    triple_mono (triple_each Inv hbody [] calls) (fun _ ht => ht) fun _ t ht =>
      hmore ht.2 (List.Sublist.refl _)
  refine triple_state hsession sched ⟨rfl, hroom, [], ?_, List.nil_sublist _, ?_⟩
  · rw [List.append_nil]
  · rw [List.append_nil, List.append_nil]

/-- A chip that has been configured, with empty queues. -/
def restingRadio : Radio :=
  { registers := fun number _ => if number = RegisterName.CONFIG.number then 0x02#8 else 0#8
    tx := []
    rx := []
    ce := false
    sending := false
    timer := 0#32
    rxBuffer := zeros
    gone := []
    accepted := [] }

/-- Silicon that has all bits, except for the one that `CONFIG` has not. -/
def plainSilicon : Silicon := { bits := fun _ => 0x7F#8, config := rfl }

theorem session_queue_resting :
    Queued [] [] [loadedPayload 1 zeros] []
      (session plainSilicon zeros 0#32 [.loadTxBuffer 1 zeros, .transmitAllPackages]
        (List.replicate 4 [.start, .finish]) restingRadio).state :=
  session_queue plainSilicon zeros 0#32 [.loadTxBuffer 1 zeros, .transmitAllPackages]
    (List.replicate 4 [.start, .finish]) restingRadio (Nat.zero_le 3)

end NextLevelRTOS
