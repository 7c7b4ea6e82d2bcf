import NextLevelRTOS.Radio.Frame
import NextLevelRTOS.Lib.Acknowledge
import NextLevelRTOS.Lib.Machine

/-!
# Acknowledgements

A sender that calls `transmit_with_autoack` again and again, a receiver with
the interrupt of the frames module, and a channel between their radios that
loses and delays frames and acknowledgements as it likes.

A call loads the frame, transmits, listens for a while and looks at a flag that
the sender's own interrupt sets when it finds an acknowledgement in the radio.
An acknowledgement is one byte and says nothing about the frame it is for. The
flag is reset at the end of a call only. So whatever sets it, a call that finds
it set reports success: an acknowledgement of an earlier frame that has been
on its way, or one taken after an earlier call had reset the flag.

The interrupt asks the radio one thing after the other, and the radio goes on in
between. First it clears `RX_DR`: it reads the status register, sets the bit and
writes the result back. Where a one clears, this clears `TX_DS` along with it, if
the frame had been sent by then. So an acknowledgement that is there is taken,
unless `TX_DS` comes up between the write and the next read.

A call succeeds for a good reason as long as the interrupt takes no
acknowledgement but those of the frame of the call in progress, before that
call resets the flag.

The radio may send what is queued whenever it is no receiver, and take in what
arrives whenever it is one; the pin that enables it is not followed.

Every call has a number. Frames carry that of the call that built them and
acknowledgements that of the frame they were sent for; nothing in the code
reads these numbers.

## Main definitions

* `Stage`, `TxIsr`: Where a call is, and where the sender's interrupt.
* `Link`: Sender, channel and receiver.
* `senderStep`: The next statement of `transmit_with_autoack`.
* `txReceiveIsr`: The next access of the sender's interrupt.
* `linkStep`: The transition function.
* `Timely`: The interrupt takes no acknowledgement but the current frame's.
* `LinkInv`: The invariant of sender, channel and receiver.

## Theorems

* `status_pipe_le`: A pipe is read only where something has been received.
* `linkStep_inv`: Every timely step keeps the invariant.
* `delivered_accepted`: What counts as delivered has been accepted.
* `delivered_not_accepted`: A late acknowledgement is taken for the next frame.
-/

namespace NextLevelRTOS

open Acknowledge Buffer Machine

/-- A frame on its way: the call that built it, its payload, and the bytes the
    radio was given. -/
structure Frame27 where
  call : Nat
  payload : List Byte
  wire : List Byte
  deriving DecidableEq, Repr

/-- An acknowledgement on its way: the call that built the frame it is for. -/
structure Ack where
  call : Nat
  deriving DecidableEq, Repr

/-- The receiver has accepted a frame: the call that built it, the call that
    was in progress, and the payload. -/
structure Acceptance where
  call : Nat
  during : Option Nat
  payload : List Byte
  deriving DecidableEq, Repr

/-- A call has returned: its number, its payload and its result. -/
structure CallResult where
  call : Nat
  payload : List Byte
  transmitSucceded : Bool
  deriving DecidableEq, Repr

/-- Where `transmit_with_autoack` is. -/
inductive Stage where
  /-- No call is in progress. -/
  | idle
  /-- Before the test of the `while` loop. -/
  | loop
  /-- In `transmit_single_package`. -/
  | transmit
  /-- Between `enable_rx_and_listen` and `disable_rx`. -/
  | listening
  /-- Before the test of `*receivedAckPackage`. -/
  | check
  /-- Behind the loop, before `*receivedAckPackage = 0`. -/
  | exit
  /-- Behind `*receivedAckPackage = 0`. -/
  | leave
  deriving DecidableEq, Repr

/-- Where `tx_receive_isr` is. -/
inductive TxIsr where
  /-- Before `clear_rx_dr_flag` reads `STATUS`. -/
  | readRxDr
  /-- Before it writes `STATUS`. -/
  | writeRxDr (newValue : Byte)
  /-- Before `get_nrf_status`. -/
  | readStatus
  /-- Before `clear_tx_ds_flag` reads `STATUS`. -/
  | readTxDs
  /-- Before it writes `STATUS`. -/
  | writeTxDs (newValue : Byte)
  /-- Before `get_nrf_fifo`. -/
  | readFifo
  /-- Before `check_for_received_data` reads the pipe. -/
  | readPipe
  /-- Before `nrf_receive_payload`. -/
  | receivePayload
  /-- Before `receivedAckPackage` is stored. -/
  | store (ret : Bool)
  deriving DecidableEq, Repr

/-- The sender, the channel, the receiver, and what has happened. -/
structure Link where
  stage : Stage
  /-- The sender's interrupt, if it runs. -/
  isr : Option TxIsr
  /-- How many calls have been made. -/
  call : Nat
  /-- `outBuffer` -/
  outBuffer : CharBuffer
  senderCrc : CrcUnit
  receivedAckPackage : Bool
  transmitSucceded : Bool
  /-- The fields of `tx_observe` that count. -/
  retransmitCount : Word
  totalPackages : Word
  bytesSend : Word
  totalLostPackages : Word
  maxRetransmits : Word
  totalRetransmits : Word
  /-- The sender's radio: the flags of the status register and the two queues. -/
  flags : Byte
  txFifo : List Frame27
  rxFifo : List Ack
  /-- The channel. -/
  frames : List Frame27
  acks : List Ack
  /-- The receive queue of the receiver's radio, and the receiver. -/
  arrived : List Frame27
  receiver : Receiver
  acceptances : List Acceptance
  returned : List CallResult

namespace Link

/-- Nothing has been sent, and nothing is on its way. -/
def start (outBuffer : CharBuffer) (u : CrcUnit) (receiver : Receiver) : Link :=
  { stage := .idle
    isr := none
    call := 0
    outBuffer := outBuffer
    senderCrc := u
    receivedAckPackage := false
    transmitSucceded := false
    retransmitCount := 0
    totalPackages := 0
    bytesSend := 0
    totalLostPackages := 0
    maxRetransmits := 0
    totalRetransmits := 0
    flags := 0
    txFifo := []
    rxFifo := []
    frames := []
    acks := []
    arrived := []
    receiver := receiver
    acceptances := []
    returned := [] }

/-- The payload of the last call. -/
def payload (s : Link) : List Byte := (List.range 27).map s.outBuffer

/-- The call in progress, if there is one. -/
def inProgress (s : Link) : Option Nat := if s.stage = .idle then none else some s.call

/-- `STATUS`, as it is read: acknowledgements come in on pipe zero. -/
def status (s : Link) : Byte :=
  (s.flags &&& 0x70#8) ||| (if s.rxFifo = [] then 7#8 <<< 1 else 0#8) |||
    (if 3 ≤ s.txFifo.length then 1#8 else 0#8)

/-- `FIFO_STATUS`, as it is read. -/
def fifoStatus (s : Link) : Byte :=
  (if 3 ≤ s.txFifo.length then 1#8 <<< 5 else 0#8) |||
    (if s.txFifo = [] then 1#8 <<< 4 else 0#8) |||
    (if 3 ≤ s.rxFifo.length then 1#8 <<< 1 else 0#8) |||
    (if s.rxFifo = [] then 1#8 <<< 0 else 0#8)

/-- `STATUS` is written: ones clear the flags. -/
def writeStatus (newValue : Byte) (s : Link) : Link :=
  { s with flags := writeOnes s.flags (newValue &&& 0x70#8) }

/-- The radio raises a flag. -/
def raiseFlag (bit : Nat) (s : Link) : Link := { s with flags := s.flags ||| (1#8 <<< bit) }

end Link

section Sender

variable (f : List Word → Word) (retransmitCount : Word)

/-- `transmit_with_autoack` is called: the frame is built. -/
def startCall (payload : CharBuffer) (s : Link) : Link :=
  { s with
    stage := .loop
    call := s.call + 1
    outBuffer := buildFrame f s.senderCrc payload
    senderCrc := crcFeedPayload payload s.senderCrc
    transmitSucceded := false }

/-- The frame as `load_tx_buffer(31, outBuffer)` gives it to the radio. -/
def loadedFrame (stack : CharBuffer) (s : Link) : Frame27 :=
  { call := s.call, payload := s.payload, wire := loadTxBuffer 31 s.outBuffer stack }

/-- The next statement of `transmit_with_autoack`. -/
def senderStep (stack : CharBuffer) (s : Link) : Option Link :=
  match s.stage with
  | .idle => none
  | .loop =>
    if s.retransmitCount < retransmitCount then
      some { s with
        stage := .transmit
        txFifo := if s.txFifo.length < 3 then s.txFifo ++ [loadedFrame stack s] else s.txFifo }
    else some { s with stage := .exit }
  | .transmit => some { s with stage := .listening }
  | .listening => some { s with stage := .check }
  | .check =>
    if s.receivedAckPackage then
      some { s with
        stage := .exit
        totalPackages := s.totalPackages + 1
        bytesSend := s.bytesSend + 32
        transmitSucceded := true }
    else some { s with stage := .loop, retransmitCount := s.retransmitCount + 1 }
  | .exit =>
    some { s with
      stage := .leave
      totalLostPackages :=
        if s.retransmitCount = retransmitCount then s.totalLostPackages + 1
        else s.totalLostPackages
      maxRetransmits :=
        if s.maxRetransmits < s.retransmitCount then s.retransmitCount else s.maxRetransmits
      receivedAckPackage := false }
  | .leave =>
    some { s with
      stage := .idle
      totalRetransmits := s.totalRetransmits + s.retransmitCount
      retransmitCount := 0
      returned := s.returned ++ [⟨s.call, s.payload, s.transmitSucceded⟩] }

/-- `tx_receive_isr` begins, or makes its next access: it stores what
    `tx_ack_receive_isr` returns. -/
def txReceiveIsr (s : Link) : Link :=
  match s.isr with
  | none => { s with isr := some .readRxDr }
  | some .readRxDr => { s with isr := some (.writeRxDr (s.status ||| (1#8 <<< 6))) }
  | some (.writeRxDr newValue) => { s.writeStatus newValue with isr := some .readStatus }
  | some .readStatus =>
    if s.status &&& (1#8 <<< 5) ≠ 0#8 then { s with isr := some .readTxDs }
    else { s with isr := some .readFifo }
  | some .readTxDs => { s with isr := some (.writeTxDs (s.status ||| (1#8 <<< 5))) }
  | some (.writeTxDs newValue) => { s.writeStatus newValue with isr := some (.store false) }
  | some .readFifo =>
    if s.fifoStatus &&& 1#8 ≠ 0#8 then { s with isr := some (.store false) }
    else { s with isr := some .readPipe }
  | some .readPipe =>
    if ((s.status >>> 1) &&& 7#8).toNat ≤ 5 then { s with isr := some .receivePayload }
    else { s with isr := some .readFifo }
  | some .receivePayload => { s with rxFifo := s.rxFifo.tail, isr := some (.store true) }
  | some (.store ret) => { s with receivedAckPackage := ret, isr := none }

end Sender

section Receiver

variable (f : List Word → Word)

/-- One round of the receiver's loop: an accepted frame is noted, and the
    acknowledgements that leave the radio are sent for it. -/
def receiveFrame (flags : Byte) (s : Link) (frame : Frame27) : Link :=
  let r := rxLoop f [deliver flags frame.wire] s.receiver
  { s with
    receiver := r
    acks := s.acks ++ List.replicate (r.acks - s.receiver.acks) ⟨frame.call⟩
    acceptances := s.acceptances ++ (r.accepted.drop s.receiver.accepted.length).map
      fun payload => ⟨frame.call, s.inProgress, payload⟩ }

/-- `rx_receive_isr`, over the frames that have arrived. -/
def receiverIsr (flags : Byte) (s : Link) : Link :=
  let zeroed := loop (fun i b => Function.update b (0 + i) 0) 33 s.receiver.rxAnswer
  s.arrived.foldl (receiveFrame f flags)
    { s with arrived := [], receiver := { s.receiver with rxAnswer := zeroed } }

end Receiver

/-- What can happen. -/
inductive LinkEvent where
  /-- `transmit_with_autoack` is called with 27 bytes in `outBuffer`. -/
  | call (payload : CharBuffer)
  /-- The sender goes on; `stack` is what memory held before. -/
  | sender (stack : CharBuffer)
  /-- The sender's interrupt begins or goes on. -/
  | txReceiveIsr
  /-- The sender's radio has sent the frame in front of its queue. -/
  | sendFrame
  | loseFrame (i : Nat)
  | loseAck (i : Nat)
  /-- A frame reaches the receiver's radio, whose queue has three places. -/
  | deliverFrame (i : Nat)
  /-- An acknowledgement reaches the sender's radio while it listens. -/
  | deliverAck (i : Nat)
  | rxReceiveIsr (flags : Byte)
  /-- The receiver's main loop preloads an acknowledgement. Its interrupt may
      come between the two statements. -/
  | loadAck
  | notePreloaded

/-- The transition function. -/
def linkStep (f : List Word → Word) (retransmitCount : Word) (e : LinkEvent) (s : Link) :
    Option Link :=
  match e with
  | .call payload =>
    if s.stage = .idle ∧ s.isr = none then some (startCall f payload s) else none
  | .sender stack => if s.isr = none then senderStep retransmitCount stack s else none
  | .txReceiveIsr => some (txReceiveIsr s)
  | .sendFrame =>
    match s.txFifo with
    | [] => none
    | frame :: rest =>
      if s.stage = .listening then none
      else some { s.raiseFlag 5 with txFifo := rest, frames := s.frames ++ [frame] }
  | .loseFrame i => some { s with frames := s.frames.eraseIdx i }
  | .loseAck i => some { s with acks := s.acks.eraseIdx i }
  | .deliverFrame i =>
    match s.frames[i]? with
    | none => none
    | some frame =>
      some { s with
        frames := s.frames.eraseIdx i
        arrived := if s.arrived.length < 3 then s.arrived ++ [frame] else s.arrived }
  | .deliverAck i =>
    match s.acks[i]? with
    | none => none
    | some ack =>
      if s.stage = .listening then
        if s.rxFifo.length < 3 then
          some { s.raiseFlag 6 with acks := s.acks.eraseIdx i, rxFifo := s.rxFifo ++ [ack] }
        else some { s with acks := s.acks.eraseIdx i }
      else none
  | .rxReceiveIsr flags => some (receiverIsr f flags s)
  | .loadAck =>
    if s.receiver.ackPackagePreloaded then none
    else some { s with receiver := s.receiver.loadAck }
  | .notePreloaded =>
    some { s with receiver := { s.receiver with ackPackagePreloaded := true } }

/-- The interrupt takes no acknowledgement but one for the frame of the call in
    progress, before that call resets the flag. -/
def Timely (s : Link) : LinkEvent → Prop
  | .txReceiveIsr => s.isr = some .receivePayload → ∀ ack ∈ s.rxFifo.head?,
      s.stage ≠ .idle ∧ s.stage ≠ .leave ∧ ack.call = s.call
  | _ => True

instance decidableTimely (s : Link) : ∀ e : LinkEvent, Decidable (Timely s e)
  | .txReceiveIsr => inferInstanceAs (Decidable (_ → _))
  | .call _ => isTrue trivial
  | .sender _ => isTrue trivial
  | .sendFrame => isTrue trivial
  | .loseFrame _ => isTrue trivial
  | .loseAck _ => isTrue trivial
  | .deliverFrame _ => isTrue trivial
  | .deliverAck _ => isTrue trivial
  | .rxReceiveIsr _ => isTrue trivial
  | .loadAck => isTrue trivial
  | .notePreloaded => isTrue trivial

section Status

/-- Without anything received the pipe is seven. -/
theorem status_pipe_le {s : Link} (h : ((s.status >>> 1) &&& 7#8).toNat ≤ 5) : s.rxFifo ≠ [] := by
  intro hempty
  have hseven : ∀ flags full : Byte, full = 1#8 ∨ full = 0#8 →
      (((flags &&& 0x70#8) ||| (7#8 <<< 1) ||| full) >>> 1) &&& 7#8 = 7#8 := by
    intro flags full hfull
    apply BitVec.eq_of_getLsbD_eq
    intro i hi
    rcases hfull with rfl | rfl <;> interval_cases i <;> simp
  rw [Link.status, if_pos hempty, hseven _ _ (ite_eq_or_eq _ _ _)] at h
  exact absurd h (by decide)

end Status

section Safety

variable {f : List Word → Word} {retransmitCount : Word}

/-- Whenever the receiver finds the frame it accepts the frame's payload. -/
def Intact (f : List Word → Word) (frame : Frame27) : Prop :=
  ∀ flags r, (rxLoop f [deliver flags frame.wire] r).accepted = r.accepted ++ [frame.payload]

/-- The frame of the call in progress has been accepted during that call. -/
def Accepted (s : Link) : Prop := ⟨s.call, some s.call, s.payload⟩ ∈ s.acceptances

/-- The sender knows of an acknowledgement: the flag is set, or the interrupt is about
    to set it. -/
def Found (s : Link) : Prop := s.receivedAckPackage = true ∨ s.isr = some (.store true)

/-- What is known of a frame on its way. -/
structure FrameInv (f : List Word → Word) (s : Link) (frame : Frame27) : Prop where
  call : frame.call ≤ s.call
  payload : frame.call = s.call → frame.payload = s.payload
  intact : Intact f frame

/-- What is known of an acknowledgement on its way. -/
structure AckInv (s : Link) (ack : Ack) : Prop where
  call : ack.call ≤ s.call
  accepted : ack.call = s.call → s.stage ≠ .idle → Accepted s

/-- The invariant of sender, channel and receiver. -/
structure LinkInv (f : List Word → Word) (s : Link) : Prop where
  built : s.stage ≠ .idle → Matches f s.outBuffer
  frames : ∀ frame ∈ s.txFifo ++ (s.frames ++ s.arrived), FrameInv f s frame
  acks : ∀ ack ∈ s.rxFifo ++ s.acks, AckInv s ack
  receive : s.isr = some .receivePayload → s.rxFifo ≠ []
  found : Found s → s.stage ≠ .idle ∧ s.stage ≠ .leave ∧ Accepted s
  succeeded : s.transmitSucceded = true → s.stage ≠ .idle → Accepted s
  returned : ∀ r ∈ s.returned, r.transmitSucceded = true →
    ⟨r.call, some r.call, r.payload⟩ ∈ s.acceptances

/-- From `s` to `s'` no call has begun, and nothing accepted is forgotten. -/
structure SameCall (s s' : Link) : Prop where
  call : s'.call = s.call
  outBuffer : s'.outBuffer = s.outBuffer
  stage : s'.stage ≠ .idle → s.stage ≠ .idle
  acceptances : ∀ a ∈ s.acceptances, a ∈ s'.acceptances

theorem Accepted.mono {s s' : Link} (h : Accepted s) (hsame : SameCall s s') : Accepted s' := by
  rw [Accepted, Link.payload, hsame.call, hsame.outBuffer]
  exact hsame.acceptances _ h

theorem FrameInv.mono {s s' : Link} {frame : Frame27} (h : FrameInv f s frame)
    (hsame : SameCall s s') : FrameInv f s' frame := by
  refine ⟨hsame.call ▸ h.call, fun hc => ?_, h.intact⟩
  rw [Link.payload, hsame.outBuffer]
  exact h.payload (hc.trans hsame.call)

theorem AckInv.mono {s s' : Link} {ack : Ack} (h : AckInv s ack) (hsame : SameCall s s') :
    AckInv s' ack :=
  ⟨hsame.call ▸ h.call, fun hc hstage =>
    (h.accepted (hc.trans hsame.call) (hsame.stage hstage)).mono hsame⟩

/-- The invariant is kept as long as no call begins: what is on its way has to
    be looked at only where it is new. -/
theorem LinkInv.mono {s s' : Link} (h : LinkInv f s) (hsame : SameCall s s')
    (hframes : ∀ frame ∈ s'.txFifo ++ (s'.frames ++ s'.arrived),
      frame ∈ s.txFifo ++ (s.frames ++ s.arrived) ∨ FrameInv f s frame)
    (hacks : ∀ ack ∈ s'.rxFifo ++ s'.acks, ack ∈ s.rxFifo ++ s.acks ∨ AckInv s' ack)
    (hreceive : s'.isr = some .receivePayload → s'.rxFifo ≠ [])
    (hfound : Found s' → s'.stage ≠ .idle ∧ s'.stage ≠ .leave ∧ Accepted s)
    (hsucceeded : s'.transmitSucceded = true → s'.stage ≠ .idle → Accepted s)
    (hreturned : ∀ r ∈ s'.returned, r ∈ s.returned ∨
      (r.transmitSucceded = true → ⟨r.call, some r.call, r.payload⟩ ∈ s.acceptances)) :
    LinkInv f s' where
  built hstage := by
    rw [hsame.outBuffer]
    exact h.built (hsame.stage hstage)
  frames frame hmem := by
    rcases hframes frame hmem with hold | hnew
    · exact (h.frames frame hold).mono hsame
    · exact hnew.mono hsame
  acks ack hmem := by
    rcases hacks ack hmem with hold | hnew
    · exact (h.acks ack hold).mono hsame
    · exact hnew
  receive := hreceive
  found hset := by
    rcases hfound hset with ⟨hidle, hleave, hacc⟩
    exact ⟨hidle, hleave, hacc.mono hsame⟩
  succeeded hsucc hstage := (hsucceeded hsucc hstage).mono hsame
  returned r hmem hsucc := by
    rcases hreturned r hmem with hold | hnew
    · exact hsame.acceptances _ (h.returned r hold hsucc)
    · exact hsame.acceptances _ (hnew hsucc)

theorem start_inv (outBuffer : CharBuffer) (u : CrcUnit) (r : Receiver) :
    LinkInv f (Link.start outBuffer u r) := by
  refine ⟨fun hc => absurd rfl hc, fun _ hmem => absurd hmem List.not_mem_nil,
    fun _ hmem => absurd hmem List.not_mem_nil, nofun, fun hc => ?_,
    fun hc => Bool.noConfusion hc, fun _ hmem => absurd hmem List.not_mem_nil⟩
  rcases hc with hc | hc
  · exact Bool.noConfusion hc
  · exact absurd hc nofun

/-- A frame given to the radio arrives intact. -/
theorem loadedFrame_intact {s : Link} (h : Matches f s.outBuffer) (stack : CharBuffer) :
    Intact f (loadedFrame stack s) := by
  intro flags r
  have hwire : ∀ i < 31, (deliver flags (loadedFrame stack s).wire).payload i = s.outBuffer i :=
    fun i hi => deliver_payload flags s.outBuffer stack hi
  rcases rxLoop_cons f (p := deliver flags (loadedFrame stack s).wire) rfl [] r with
    ⟨r', hloop, _, hacc⟩
  rw [hloop, rxLoop, hacc, if_pos ((matches_congr f hwire).mpr h)]
  refine congrArg (fun l => r.accepted ++ [l]) (List.map_congr_left fun i hi => hwire i ?_)
  have hlt := List.mem_range.mp hi
  omega

theorem startCall_inv {s : Link} (h : LinkInv f s) (hidle : s.stage = .idle)
    (payload : CharBuffer) : LinkInv f (startCall f payload s) := by
  have hnothing : ¬ Found s := fun hc => (h.found hc).1 hidle
  refine ⟨fun _ => ?_, fun frame hmem => ?_, fun ack hmem => ?_, h.receive,
    fun hc => absurd hc hnothing, fun hc => Bool.noConfusion hc, h.returned⟩
  · rcases buildFrame_eq f s.senderCrc payload with ⟨hpayload, hcrc⟩
    change Matches f (buildFrame f s.senderCrc payload)
    rw [Matches, payloadWords_congr hpayload]
    exact hcrc
  -- What is on its way belongs to an earlier call.
  · have hf := h.frames frame hmem
    have hcall := hf.call
    exact ⟨Nat.le_succ_of_le hcall, fun hc => absurd hc (Nat.ne_of_lt (Nat.lt_succ_of_le hcall)),
      hf.intact⟩
  · have hcall := (h.acks ack hmem).call
    exact ⟨Nat.le_succ_of_le hcall, fun hc => absurd hc (Nat.ne_of_lt (Nat.lt_succ_of_le hcall))⟩

/-- A step of the sender that begins and ends inside a call, and gives its
    radio nothing but an intact frame. -/
theorem LinkInv.inside {s s' : Link} (h : LinkInv f s) (hidle : s.stage ≠ .idle)
    (hisr : s'.isr = none)
    (hsame : s'.call = s.call ∧ s'.outBuffer = s.outBuffer ∧ s'.acceptances = s.acceptances ∧
      s'.returned = s.returned ∧ s'.rxFifo = s.rxFifo ∧ s'.acks = s.acks)
    (hframes : ∀ frame ∈ s'.txFifo ++ (s'.frames ++ s'.arrived),
      frame ∈ s.txFifo ++ (s.frames ++ s.arrived) ∨ FrameInv f s frame)
    (hflag : s'.receivedAckPackage = true →
      s.receivedAckPackage = true ∧ s'.stage ≠ .idle ∧ s'.stage ≠ .leave)
    (hsucceeded : s'.transmitSucceded = true → s.transmitSucceded = true ∨ Accepted s) :
    LinkInv f s' := by
  rcases hsame with ⟨hcall, hout, hacc, hret, hrx, hacks⟩
  refine h.mono ⟨hcall, hout, fun _ => hidle, fun a ha => hacc ▸ ha⟩ hframes (fun ack hmem => ?_)
    (fun hc => ?_) (fun hset => ?_) (fun hsucc _ => ?_) fun r hmem => Or.inl (hret ▸ hmem)
  · rw [hrx, hacks] at hmem
    exact Or.inl hmem
  · rw [hisr] at hc
    exact absurd hc nofun
  · rcases hset with hset | hset
    · rcases hflag hset with ⟨hbefore, hstage, hleave⟩
      exact ⟨hstage, hleave, (h.found (Or.inl hbefore)).2.2⟩
    · rw [hisr] at hset
      exact absurd hset nofun
  · rcases hsucceeded hsucc with hbefore | haccepted
    · exact h.succeeded hbefore hidle
    · exact haccepted

theorem senderStep_inv {s s' : Link} (h : LinkInv f s) (hisr : s.isr = none) {stack : CharBuffer}
    (hstep : senderStep retransmitCount stack s = some s') : LinkInv f s' := by
  unfold senderStep at hstep
  cases hst : s.stage with
  | idle => simp only [hst, reduceCtorEq] at hstep
  | loop =>
      have hne : s.stage ≠ .idle := by rw [hst]; decide
      simp only [hst] at hstep
      by_cases hcount : s.retransmitCount < retransmitCount
      · rw [if_pos hcount] at hstep
        rw [← Option.some.inj hstep]
        refine h.inside hne hisr ⟨rfl, rfl, rfl, rfl, rfl, rfl⟩ (fun frame hmem => ?_)
          (fun hset => ⟨hset, nofun, nofun⟩) Or.inl
        -- The frame that goes into the radio is the one the call has built.
        by_cases hroom : s.txFifo.length < 3
        · simp only [if_pos hroom, List.append_assoc, List.singleton_append, List.mem_append,
            List.mem_cons] at hmem
          rcases hmem with hmem | rfl | hmem
          · exact Or.inl (List.mem_append_left _ hmem)
          · exact Or.inr ⟨Nat.le_refl _, fun _ => rfl, loadedFrame_intact (h.built hne) stack⟩
          · exact Or.inl (List.mem_append_right _ (List.mem_append.mpr hmem))
        · simp only [if_neg hroom] at hmem
          exact Or.inl hmem
      · rw [if_neg hcount] at hstep
        rw [← Option.some.inj hstep]
        exact h.inside hne hisr ⟨rfl, rfl, rfl, rfl, rfl, rfl⟩ (fun _ => Or.inl)
          (fun hset => ⟨hset, nofun, nofun⟩) Or.inl
  | transmit =>
      have hne : s.stage ≠ .idle := by rw [hst]; decide
      simp only [hst] at hstep
      rw [← Option.some.inj hstep]
      exact h.inside hne hisr ⟨rfl, rfl, rfl, rfl, rfl, rfl⟩ (fun _ => Or.inl)
        (fun hset => ⟨hset, nofun, nofun⟩) Or.inl
  | listening =>
      have hne : s.stage ≠ .idle := by rw [hst]; decide
      simp only [hst] at hstep
      rw [← Option.some.inj hstep]
      exact h.inside hne hisr ⟨rfl, rfl, rfl, rfl, rfl, rfl⟩ (fun _ => Or.inl)
        (fun hset => ⟨hset, nofun, nofun⟩) Or.inl
  | check =>
      have hne : s.stage ≠ .idle := by rw [hst]; decide
      simp only [hst] at hstep
      by_cases hset : s.receivedAckPackage = true
      · rw [if_pos hset] at hstep
        rw [← Option.some.inj hstep]
        exact h.inside hne hisr ⟨rfl, rfl, rfl, rfl, rfl, rfl⟩ (fun _ => Or.inl)
          (fun hset => ⟨hset, nofun, nofun⟩) fun _ => Or.inr (h.found (Or.inl hset)).2.2
      · rw [if_neg hset] at hstep
        rw [← Option.some.inj hstep]
        exact h.inside hne hisr ⟨rfl, rfl, rfl, rfl, rfl, rfl⟩ (fun _ => Or.inl)
          (fun hset => ⟨hset, nofun, nofun⟩) Or.inl
  | exit =>
      have hne : s.stage ≠ .idle := by rw [hst]; decide
      simp only [hst] at hstep
      rw [← Option.some.inj hstep]
      exact h.inside hne hisr ⟨rfl, rfl, rfl, rfl, rfl, rfl⟩ (fun _ => Or.inl)
        (fun hset => Bool.noConfusion hset) Or.inl
  | leave =>
      have hne : s.stage ≠ .idle := by rw [hst]; decide
      simp only [hst] at hstep
      rw [← Option.some.inj hstep]
      refine h.mono ⟨rfl, rfl, fun _ => hne, fun _ => id⟩ (fun _ => Or.inl) (fun _ => Or.inl)
        h.receive (fun hset => absurd hst (h.found hset).2.1) (fun _ hidle => absurd rfl hidle)
        fun r hmem => ?_
      rcases List.mem_append.mp hmem with hmem | hmem
      · exact Or.inl hmem
      · rw [List.mem_singleton.mp hmem]
        exact Or.inr fun hsucc => h.succeeded hsucc hne

/-- A step of the interrupt that neither takes an acknowledgement nor stores what it
    has found. -/
theorem LinkInv.interrupt {s s' : Link} (h : LinkInv f s)
    (hsame : s' = { s with flags := s'.flags, isr := s'.isr })
    (hreceive : s'.isr = some .receivePayload → s.rxFifo ≠ [])
    (hstore : s'.isr ≠ some (.store true)) : LinkInv f s' := by
  have hrx : s'.rxFifo = s.rxFifo := by rw [hsame]
  have hflag : s'.receivedAckPackage = s.receivedAckPackage := by rw [hsame]
  rw [← hrx] at hreceive
  have hfound : Found s' → Found s := fun hset =>
    hset.elim (fun hset => Or.inl (hflag ▸ hset)) fun hset => absurd hset hstore
  rw [hsame] at hreceive hfound ⊢
  exact h.mono ⟨rfl, rfl, id, fun _ => id⟩ (fun _ => Or.inl) (fun _ => Or.inl) hreceive
    (fun hset => h.found (hfound hset)) h.succeeded fun _ => Or.inl

/-- An acknowledgement that the interrupt takes in time stands for the frame of
    the call in progress, and that frame has been accepted. -/
theorem receivePayload_inv {s : Link} (h : LinkInv f s) (hisr : s.isr = some .receivePayload)
    (htimely : Timely s .txReceiveIsr) :
    LinkInv f { s with rxFifo := s.rxFifo.tail, isr := some (.store true) } := by
  cases hfifo : s.rxFifo with
  | nil => exact absurd hfifo (h.receive hisr)
  | cons ack rest =>
      have hack : ack ∈ s.rxFifo.head? := by rw [hfifo]; rfl
      -- The acknowledgement is for the call in progress, whose frame the receiver
      -- has accepted.
      rcases htimely hisr ack hack with ⟨hidle, hleave, hcall⟩
      have hmem : ack ∈ s.rxFifo ++ s.acks :=
        List.mem_append_left _ (List.mem_of_mem_head? hack)
      refine h.mono ⟨rfl, rfl, id, fun _ => id⟩ (fun _ => Or.inl) (fun other hmem => Or.inl ?_)
        nofun (fun _ => ⟨hidle, hleave, (h.acks ack hmem).accepted hcall hidle⟩) h.succeeded
        fun _ => Or.inl
      rw [hfifo, List.cons_append]
      exact List.mem_cons_of_mem _ hmem

theorem txReceiveIsr_inv {s : Link} (h : LinkInv f s) (htimely : Timely s .txReceiveIsr) :
    LinkInv f (txReceiveIsr s) := by
  unfold txReceiveIsr
  cases hisr : s.isr with
  | none => exact h.interrupt rfl nofun nofun
  | some isr =>
      cases isr with
      | readRxDr => exact h.interrupt rfl nofun nofun
      | writeRxDr newValue => exact h.interrupt rfl nofun nofun
      | readStatus =>
          by_cases hsent : s.status &&& (1#8 <<< 5) ≠ 0#8
          · rw [if_pos hsent]
            exact h.interrupt rfl nofun nofun
          · rw [if_neg hsent]
            exact h.interrupt rfl nofun nofun
      | readTxDs => exact h.interrupt rfl nofun nofun
      | writeTxDs newValue => exact h.interrupt rfl nofun nofun
      | readFifo =>
          by_cases hempty : s.fifoStatus &&& 1#8 ≠ 0#8
          · rw [if_pos hempty]
            exact h.interrupt rfl nofun nofun
          · rw [if_neg hempty]
            exact h.interrupt rfl nofun nofun
      | readPipe =>
          by_cases hpipe : ((s.status >>> 1) &&& 7#8).toNat ≤ 5
          · rw [if_pos hpipe]
            exact h.interrupt rfl (fun _ => status_pipe_le hpipe) nofun
          · rw [if_neg hpipe]
            exact h.interrupt rfl nofun nofun
      | receivePayload => exact receivePayload_inv h hisr htimely
      | store ret =>
          refine h.mono ⟨rfl, rfl, id, fun _ => id⟩ (fun _ => Or.inl) (fun _ => Or.inl) nofun
            (fun hset => h.found (Or.inr ?_)) h.succeeded fun _ => Or.inl
          rcases hset with hset | hset
          · rw [hisr, show ret = true from hset]
          · exact absurd hset nofun

/-- The receiver takes an intact frame: what it acknowledges it has accepted. -/
theorem receiveFrame_inv {s : Link} (h : LinkInv f s) (flags : Byte) {frame : Frame27}
    (hframe : FrameInv f s frame) :
    LinkInv f (receiveFrame f flags s frame) ∧ SameCall s (receiveFrame f flags s frame) := by
  have hsame : SameCall s (receiveFrame f flags s frame) :=
    ⟨rfl, rfl, id, fun _ ha => List.mem_append_left _ ha⟩
  have hnew : ⟨frame.call, s.inProgress, frame.payload⟩ ∈
      (receiveFrame f flags s frame).acceptances := by
    refine List.mem_append_right _ ?_
    rw [hframe.intact flags s.receiver, List.drop_left]
    exact List.mem_singleton_self _
  refine ⟨h.mono hsame (fun _ => Or.inl) (fun ack hmem => ?_) h.receive h.found h.succeeded
    fun _ => Or.inl, hsame⟩
  change ack ∈ s.rxFifo ++ (s.acks ++ List.replicate _ _) at hmem
  rw [← List.append_assoc] at hmem
  rcases List.mem_append.mp hmem with hmem | hmem
  · exact Or.inl hmem
  · rw [List.eq_of_mem_replicate hmem]
    refine Or.inr ⟨hframe.call, fun hcall hidle => ?_⟩
    have hprogress : s.inProgress = some s.call := if_neg hidle
    rw [hprogress, hframe.payload hcall, show frame.call = s.call from hcall] at hnew
    exact hnew

-- Induction on the frames that have arrived, with the state of the loop.
theorem receiveFrames_inv (flags : Byte) (l : List Frame27) :
    ∀ s : Link, LinkInv f s → (∀ frame ∈ l, FrameInv f s frame) →
      LinkInv f (l.foldl (receiveFrame f flags) s) := by
  induction l with
  | nil => exact fun _ h _ => h
  | cons frame l ih =>
      intro s h hl
      rcases receiveFrame_inv h flags (hl frame List.mem_cons_self) with ⟨hinv, hsame⟩
      exact ih _ hinv fun other hmem => (hl other (List.mem_cons_of_mem _ hmem)).mono hsame

theorem receiverIsr_inv {s : Link} (h : LinkInv f s) (flags : Byte) :
    LinkInv f (receiverIsr f flags s) := by
  have hsub : ∀ frame ∈ s.txFifo ++ (s.frames ++ []),
      frame ∈ s.txFifo ++ (s.frames ++ s.arrived) := by
    intro frame hmem
    rw [List.append_nil] at hmem
    rw [← List.append_assoc]
    exact List.mem_append_left _ hmem
  refine receiveFrames_inv flags s.arrived _ ?_ fun frame hmem => ?_
  · exact h.mono ⟨rfl, rfl, id, fun _ => id⟩ (fun frame hmem => Or.inl (hsub frame hmem))
      (fun _ => Or.inl) h.receive h.found h.succeeded fun _ => Or.inl
  · have hframe := h.frames frame (List.mem_append_right _ (List.mem_append_right _ hmem))
    exact hframe.mono ⟨rfl, rfl, id, fun _ => id⟩

/-- A step that only moves or loses what is on its way, or touches nothing but
    the receiver and the flags of the sender's radio. -/
theorem LinkInv.carried {s s' : Link} (h : LinkInv f s)
    (hsame : s' = { s with
      flags := s'.flags, txFifo := s'.txFifo, rxFifo := s'.rxFifo, frames := s'.frames,
      acks := s'.acks, arrived := s'.arrived, receiver := s'.receiver })
    (hframes : ∀ frame ∈ s'.txFifo ++ (s'.frames ++ s'.arrived),
      frame ∈ s.txFifo ++ (s.frames ++ s.arrived))
    (hacks : ∀ ack ∈ s'.rxFifo ++ s'.acks, ack ∈ s.rxFifo ++ s.acks)
    (hkept : s.rxFifo ≠ [] → s'.rxFifo ≠ []) : LinkInv f s' := by
  rw [hsame]
  exact h.mono ⟨rfl, rfl, id, fun _ => id⟩ (fun frame hmem => Or.inl (hframes frame hmem))
    (fun ack hmem => Or.inl (hacks ack hmem)) (fun hc => hkept (h.receive hc)) h.found
    h.succeeded fun _ => Or.inl

/-- Of what is in two queues, something is lost from one of them. -/
theorem mem_lost {α : Type} {l m n : List α} {i : Nat} {x : α}
    (h : x ∈ l ++ (m.eraseIdx i ++ n)) : x ∈ l ++ (m ++ n) := by
  rcases List.mem_append.mp h with hl | hmn
  · exact List.mem_append_left _ hl
  · rcases List.mem_append.mp hmn with hm | hn
    · exact List.mem_append_right _ (List.mem_append_left _ (List.mem_of_mem_eraseIdx hm))
    · exact List.mem_append_right _ (List.mem_append_right _ hn)

/-- Taking an element out of one queue and putting it into another, which may
    be full, brings up nothing new. -/
theorem mem_moved {α : Type} {l m : List α} {i : Nat} {x y : α} (hx : l[i]? = some x)
    (hy : y ∈ l.eraseIdx i ∨ y ∈ if m.length < 3 then m ++ [x] else m) : y ∈ l ∨ y ∈ m := by
  rcases hy with hy | hy
  · exact Or.inl (List.mem_of_mem_eraseIdx hy)
  · by_cases hroom : m.length < 3
    · rw [if_pos hroom, List.mem_append, List.mem_singleton] at hy
      rcases hy with hy | rfl
      · exact Or.inr hy
      · exact Or.inl (List.mem_of_getElem? hx)
    · rw [if_neg hroom] at hy
      exact Or.inr hy

theorem sendFrame_inv {s s' : Link} (h : LinkInv f s)
    (hstep : linkStep f retransmitCount .sendFrame s = some s') : LinkInv f s' := by
  unfold linkStep at hstep
  cases hfifo : s.txFifo with
  | nil => simp only [hfifo, reduceCtorEq] at hstep
  | cons frame rest =>
      by_cases hlisten : s.stage = .listening
      · simp only [hfifo, if_pos hlisten, reduceCtorEq] at hstep
      · simp only [hfifo, if_neg hlisten, Option.some.injEq] at hstep
        rw [← hstep]
        refine h.carried rfl (fun other hmem => ?_) (fun _ => id) id
        rw [hfifo]
        simp only [List.append_assoc, List.cons_append, List.mem_append, List.mem_cons] at hmem ⊢
        tauto

theorem deliverAck_inv {s s' : Link} (h : LinkInv f s) {i : Nat}
    (hstep : linkStep f retransmitCount (.deliverAck i) s = some s') : LinkInv f s' := by
  unfold linkStep at hstep
  cases hget : s.acks[i]? with
  | none => simp only [hget, reduceCtorEq] at hstep
  | some ack =>
      by_cases hlisten : s.stage = .listening
      · have hmoved (other : Ack) (hother : other ∈ s.acks.eraseIdx i ∨
            other ∈ if s.rxFifo.length < 3 then s.rxFifo ++ [ack] else s.rxFifo) :
            other ∈ s.rxFifo ++ s.acks :=
          List.mem_append.mpr (mem_moved hget hother).symm
        simp only [hget, if_pos hlisten] at hstep
        by_cases hroom : s.rxFifo.length < 3
        · rw [if_pos hroom, Option.some.injEq] at hstep
          rw [← hstep]
          refine h.carried rfl (fun _ => id) (fun other hmem => hmoved other ?_)
            fun _ => List.append_ne_nil_of_right_ne_nil _ (List.cons_ne_nil _ _)
          rw [if_pos hroom]
          exact (List.mem_append.mp hmem).symm
        · rw [if_neg hroom, Option.some.injEq] at hstep
          rw [← hstep]
          refine h.carried rfl (fun _ => id) (fun other hmem => hmoved other ?_) id
          rw [if_neg hroom]
          exact (List.mem_append.mp hmem).symm
      · simp only [hget, if_neg hlisten, reduceCtorEq] at hstep

theorem linkStep_inv {s s' : Link} {e : LinkEvent} (h : LinkInv f s) (htimely : Timely s e)
    (hstep : linkStep f retransmitCount e s = some s') : LinkInv f s' := by
  -- What the channel does removes things or moves them; the invariant is about what there
  -- is.
  cases e with
  | call payload =>
      unfold linkStep at hstep
      by_cases hidle : s.stage = .idle ∧ s.isr = none
      · simp only [if_pos hidle, Option.some.injEq] at hstep
        rw [← hstep]
        exact startCall_inv h hidle.1 payload
      · simp only [if_neg hidle, reduceCtorEq] at hstep
  | sender stack =>
      unfold linkStep at hstep
      by_cases hisr : s.isr = none
      · simp only [if_pos hisr] at hstep
        exact senderStep_inv h hisr hstep
      · simp only [if_neg hisr, reduceCtorEq] at hstep
  | txReceiveIsr =>
      rw [← Option.some.inj hstep]
      exact txReceiveIsr_inv h htimely
  | sendFrame => exact sendFrame_inv h hstep
  | loseFrame i =>
      rw [← Option.some.inj hstep]
      exact h.carried rfl (fun _ => mem_lost) (fun _ => id) id
  | loseAck i =>
      rw [← Option.some.inj hstep]
      refine h.carried rfl (fun _ => id) (fun ack hmem => ?_) id
      rcases List.mem_append.mp hmem with hmem | hmem
      · exact List.mem_append_left _ hmem
      · exact List.mem_append_right _ (List.mem_of_mem_eraseIdx hmem)
  | deliverFrame i =>
      unfold linkStep at hstep
      cases hget : s.frames[i]? with
      | none => simp only [hget, reduceCtorEq] at hstep
      | some frame =>
          simp only [hget, Option.some.injEq] at hstep
          rw [← hstep]
          refine h.carried rfl (fun other hmem => ?_) (fun _ => id) id
          rcases List.mem_append.mp hmem with hmem | hmem
          · exact List.mem_append_left _ hmem
          · exact List.mem_append_right _
              (List.mem_append.mpr (mem_moved hget (List.mem_append.mp hmem)))
  | deliverAck i => exact deliverAck_inv h hstep
  | rxReceiveIsr flags =>
      rw [← Option.some.inj hstep]
      exact receiverIsr_inv h flags
  | loadAck =>
      unfold linkStep at hstep
      by_cases hpre : s.receiver.ackPackagePreloaded = true
      · simp only [if_pos hpre, reduceCtorEq] at hstep
      · simp only [if_neg hpre, Option.some.injEq] at hstep
        rw [← hstep]
        exact h.carried rfl (fun _ => id) (fun _ => id) id
  | notePreloaded =>
      rw [← Option.some.inj hstep]
      exact h.carried rfl (fun _ => id) (fun _ => id) id

/-- Whatever the channel loses and delays and whenever the interrupts come: as
    long as the sender's interrupt takes its acknowledgements in time, a call
    that returns 1 has had its frame accepted while it was in progress. -/
theorem delivered_accepted {outBuffer : CharBuffer} {u : CrcUnit} {receiver : Receiver}
    {es : List LinkEvent} {s : Link}
    (hmeets : Meets (linkStep f retransmitCount) Timely es (Link.start outBuffer u receiver))
    (hrun : run (linkStep f retransmitCount) es (Link.start outBuffer u receiver) = some s)
    {r : CallResult} (hr : r ∈ s.returned) (hsucc : r.transmitSucceded = true) :
    ⟨r.call, some r.call, r.payload⟩ ∈ s.acceptances :=
  (run_invariant (linkStep f retransmitCount) (LinkInv f) (fun _ _ _ => linkStep_inv)
    es _ s (start_inv outBuffer u receiver) hmeets hrun).returned r hr hsucc

end Safety

/-! ### Runs -/

/-- `n` steps of the division, by the polynomial `0x04C11DB7`. -/
def crcShift : Nat → Word → Word
  | 0, crc => crc
  | n + 1, crc =>
    match crc.msb with
    | true => crcShift n ((crc <<< 1) ^^^ 0x04C11DB7#32)
    | false => crcShift n (crc <<< 1)

/-- The CRC unit of the board: all ones after a reset, 32 steps a word. -/
def crc32 (words : List Word) : Word :=
  words.foldl (fun crc word => crcShift 32 (crc ^^^ word)) 0xFFFFFFFF#32

/-- A receiver that has just been set up. -/
def waitingReceiver : Receiver :=
  { rxAnswer := fun _ => 0
    crcUnit := { fed := [] }
    ackPackagePreloaded := false
    uartOutputIsEnabled := 0
    timeToSettle := 0
    timeToSendAck := 0
    lastReceivedCRC := 0
    txFifo := 0
    acks := 0
    printed := []
    accepted := [] }

/-- A sender and a receiver that have just been set up. -/
def freshLink : Link := Link.start (fun _ => 0) { fed := [] } waitingReceiver

/-- The sender's interrupt makes `n` accesses, its beginning included. -/
def txIsrGoesOn (n : Nat) : List LinkEvent := List.replicate n .txReceiveIsr

/-- A call with the payload `b, b, ..` sends its frame once and listens. The interrupt
    comes when the frame has been sent, and finds nothing. -/
def sendOnce (b : Byte) : List LinkEvent :=
  [.call fun _ => b, .sender fun _ => 0, .sendFrame] ++ txIsrGoesOn 6 ++ [.sender fun _ => 0]

/-- The frame reaches the receiver, whose interrupt is taken. -/
def frameArrives : List LinkEvent := [.deliverFrame 0, .rxReceiveIsr 0]

/-- The acknowledgement reaches the sender and is taken. -/
def ackTaken : List LinkEvent := .deliverAck 0 :: txIsrGoesOn 8

/-- The sender goes on `n` times. -/
def senderGoesOn (n : Nat) : List LinkEvent := List.replicate n (.sender fun _ => 0)

/-- Two calls, each acknowledged while it listens. The first frame is lost once. In the
    second call the interrupt comes when the frame has been sent and its acknowledgement
    is there: it clears both flags and takes the acknowledgement. -/
def inStep : List LinkEvent :=
  sendOnce 1 ++ [.loseFrame 0] ++ senderGoesOn 3 ++ [.sendFrame] ++ txIsrGoesOn 6 ++
    senderGoesOn 1 ++ frameArrives ++ ackTaken ++ senderGoesOn 4 ++
    [.call fun _ => 2, .sender fun _ => 0, .sendFrame, .sender fun _ => 0] ++ frameArrives ++
    ackTaken ++ senderGoesOn 4

theorem delivered_accepted_inStep :
    Meets (linkStep crc32 2) Timely inStep freshLink ∧
      Ends (linkStep crc32 2) inStep freshLink fun s => s.returned.length = 2 ∧
        ∀ r ∈ s.returned, r.transmitSucceded = true ∧
          ⟨r.call, some r.call, r.payload⟩ ∈ s.acceptances := by
  have hmeets : Meets (linkStep crc32 2) Timely inStep freshLink := by decide +kernel
  have hends : Ends (linkStep crc32 2) inStep freshLink fun s => s.returned.length = 2 ∧
      ∀ r ∈ s.returned, r.transmitSucceded = true := by decide +kernel
  rcases hends with ⟨s, hrun, hcount, hsucc⟩
  exact ⟨hmeets, s, hrun, hcount, fun r hr =>
    ⟨hsucc r hr, delivered_accepted hmeets hrun hr (hsucc r hr)⟩⟩

/-- The frame of the first call is accepted, but its acknowledgement is on its
    way until the second call listens. The frame of the second call is lost. -/
def lateAck : List LinkEvent :=
  sendOnce 1 ++ frameArrives ++ senderGoesOn 5 ++ sendOnce 2 ++ [.loseFrame 0] ++ ackTaken ++
    senderGoesOn 4

/-- The acknowledgement of the first call arrives in time, but the interrupt is
    taken when the call has reset the flag. The frame of the second call is not
    sent in time. -/
def lateInterrupt : List LinkEvent :=
  sendOnce 1 ++ frameArrives ++ [.deliverAck 0] ++ senderGoesOn 4 ++ txIsrGoesOn 8 ++
    senderGoesOn 1 ++ [.call fun _ => 2] ++ senderGoesOn 6

/-- Either way the second call returns 1 and nothing but the first frame has
    been accepted. -/
theorem delivered_not_accepted :
    (Ends (linkStep crc32 1) lateAck freshLink fun s =>
      ∃ r ∈ s.returned, r.transmitSucceded = true ∧
        ∀ a ∈ s.acceptances, a.call ≠ r.call ∧ a.payload ≠ r.payload) ∧
    Ends (linkStep crc32 1) lateInterrupt freshLink fun s =>
      ∃ r ∈ s.returned, r.transmitSucceded = true ∧
        ∀ a ∈ s.acceptances, a.call ≠ r.call ∧ a.payload ≠ r.payload :=
  ⟨by decide +kernel, by decide +kernel⟩

end NextLevelRTOS
