import NextLevelRTOS.Radio.Transmit

/-!
# The Transmitter of a Link

The statistics are proved for a transmitter whose interrupt stores anything at any
time. On the link of the acknowledgements module the flag is set by what arrives.
The counters of the sender do not depend on how it comes there: they change with
calls and with statements of the sender only, and a statement looks at the counters,
the flag and the limit, not at what is in the queues of the radio.

So every run of the link is a run of the transmitter, with the same counters, and
what holds of the transmitter holds of the sender of a link.

## Main definitions

* `SameCounters`: The sender is where it was, with the same counters.
* `SameSender`: Nothing has happened to the sender.
* `Follows`: The transmitter does what the sender of a link does.

## Theorems

* `linkStep_sameSender`: The rest of the link touches no counter.
* `senderStep_sameCounters`: A statement depends on the counters and the flag.
* `link_follows`: A run of the link is one of the transmitter.
* `link_accounted`: The accounts of the sender of a link.
-/

namespace NextLevelRTOS

open Machine

section Channel

variable {f : List Word → Word} {limit : Word} {s s' : Link}

/-- The results of the calls that have returned. -/
def Link.results (s : Link) : List Bool := s.returned.map CallResult.transmitSucceded

/-- The sender is where it was, and its counters are as they were. -/
structure SameCounters (s s' : Link) : Prop where
  stage : s'.stage = s.stage
  call : s'.call = s.call
  txObserve : s'.txObserve = s.txObserve
  transmitSucceded : s'.transmitSucceded = s.transmitSucceded

/-- Nothing has happened to the sender: its counters are as they were, and no call has
    returned. -/
structure SameSender (s s' : Link) : Prop extends SameCounters s s' where
  results : s'.results = s.results

theorem txReceiveIsr_sameSender (s : Link) : SameSender s (txReceiveIsr s) := by
  unfold txReceiveIsr
  rcases s.isr with _ | isr
  · exact ⟨⟨rfl, rfl, rfl, rfl⟩, rfl⟩
  · cases isr with
    | readStatus =>
        by_cases hsent : s.status &&& (1#8 <<< 5) ≠ 0#8
        · rw [if_pos hsent]
          exact ⟨⟨rfl, rfl, rfl, rfl⟩, rfl⟩
        · rw [if_neg hsent]
          exact ⟨⟨rfl, rfl, rfl, rfl⟩, rfl⟩
    | readFifo =>
        by_cases hempty : s.fifoStatus &&& 1#8 ≠ 0#8
        · rw [if_pos hempty]
          exact ⟨⟨rfl, rfl, rfl, rfl⟩, rfl⟩
        · rw [if_neg hempty]
          exact ⟨⟨rfl, rfl, rfl, rfl⟩, rfl⟩
    | readPipe =>
        by_cases hpipe : ((s.status >>> 1) &&& 7#8).toNat ≤ 5
        · rw [if_pos hpipe]
          exact ⟨⟨rfl, rfl, rfl, rfl⟩, rfl⟩
        · rw [if_neg hpipe]
          exact ⟨⟨rfl, rfl, rfl, rfl⟩, rfl⟩
    | _ => exact ⟨⟨rfl, rfl, rfl, rfl⟩, rfl⟩

theorem receiverIsr_sameSender (f : List Word → Word) (flags : Byte) (s : Link) :
    SameSender s (receiverIsr f flags s) := by
  have hloop (l : List Frame27) : ∀ s', SameSender s s' →
      SameSender s (l.foldl (receiveFrame f flags) s') := by
    induction l with
    | nil => exact fun _ h => h
    | cons frame l ih => 
      exact fun s' h =>
        ih _ ⟨⟨h.stage, h.call, h.txObserve, h.transmitSucceded⟩, h.results⟩
  exact hloop s.arrived _ ⟨⟨rfl, rfl, rfl, rfl⟩, rfl⟩

/-- Of what happens on the link, only calls and statements of the sender touch the
    counters. -/
theorem linkStep_sameSender {e : LinkEvent} (hstep : linkStep f limit e s = some s')
    (hcall : ∀ payload, e ≠ .call payload) (hsender : ∀ stack, e ≠ .sender stack) :
    SameSender s s' := by
  unfold linkStep at hstep
  cases e with
  | call payload => exact absurd rfl (hcall payload)
  | sender stack => exact absurd rfl (hsender stack)
  | txReceiveIsr =>
      rw [← Option.some.inj hstep]
      exact txReceiveIsr_sameSender s
  | sendFrame =>
      cases hfifo : s.txFifo with
      | nil => simp only [hfifo, reduceCtorEq] at hstep
      | cons frame rest =>
          by_cases hlisten : s.stage = .listening
          · simp only [hfifo, if_pos hlisten, reduceCtorEq] at hstep
          · simp only [hfifo, if_neg hlisten, Option.some.injEq] at hstep
            rw [← hstep]
            exact ⟨⟨rfl, rfl, rfl, rfl⟩, rfl⟩
  | loseFrame i =>
      rw [← Option.some.inj hstep]
      exact ⟨⟨rfl, rfl, rfl, rfl⟩, rfl⟩
  | loseAck i =>
      rw [← Option.some.inj hstep]
      exact ⟨⟨rfl, rfl, rfl, rfl⟩, rfl⟩
  | deliverFrame i =>
      cases hget : s.frames[i]? with
      | none => simp only [hget, reduceCtorEq] at hstep
      | some frame =>
          simp only [hget, Option.some.injEq] at hstep
          rw [← hstep]
          exact ⟨⟨rfl, rfl, rfl, rfl⟩, rfl⟩
  | deliverAck i =>
      cases hget : s.acks[i]? with
      | none => simp only [hget, reduceCtorEq] at hstep
      | some ack =>
          by_cases hlisten : s.stage = .listening
          · simp only [hget, if_pos hlisten] at hstep
            by_cases hroom : s.rxFifo.length < 3
            · rw [if_pos hroom, Option.some.injEq] at hstep
              rw [← hstep]
              exact ⟨⟨rfl, rfl, rfl, rfl⟩, rfl⟩
            · rw [if_neg hroom, Option.some.injEq] at hstep
              rw [← hstep]
              exact ⟨⟨rfl, rfl, rfl, rfl⟩, rfl⟩
          · simp only [hget, if_neg hlisten, reduceCtorEq] at hstep
  | rxReceiveIsr flags =>
      rw [← Option.some.inj hstep]
      exact receiverIsr_sameSender f flags s
  | loadAck =>
      by_cases hpre : s.receiver.ackPackagePreloaded = true
      · simp only [if_pos hpre, reduceCtorEq] at hstep
      · simp only [if_neg hpre, Option.some.injEq] at hstep
        rw [← hstep]
        exact ⟨⟨rfl, rfl, rfl, rfl⟩, rfl⟩
  | notePreloaded =>
      rw [← Option.some.inj hstep]
      exact ⟨⟨rfl, rfl, rfl, rfl⟩, rfl⟩

end Channel

/-! ### Runs of the link -/

section Link

variable {f : List Word → Word} {limit : Word} {s s' : Link} {t : Transmitter}

/-- What the transmitter does is what the sender of a link does. -/
structure Follows (limit : Word) (s : Link) (t : Transmitter) : Prop where
  sender : SameCounters s t.link
  calls : t.history.calls = s.call
  outcomes : t.history.outcomes.map CallOutcome.transmitSucceded = s.results
  flag : t.link.receivedAckPackage = s.receivedAckPackage
  limit : t.link.stage ≠ .idle → t.history.limit = limit

/-- The next step on the link makes no counter wrap. -/
def LinkNoWrap (limit : Word) (s : Link) : LinkEvent → Prop
  | .sender stack =>
    NoWrap { link := s, history := { (Transmitter.start s).history with limit := limit } }
      (.sender stack)
  | _ => True

instance decidableLinkNoWrap (limit : Word) (s : Link) :
    ∀ e : LinkEvent, Decidable (LinkNoWrap limit s e)
  | .sender stack => decidableNoWrap
      { link := s, history := { (Transmitter.start s).history with limit := limit } }
      (.sender stack)
  | .call _ => isTrue trivial
  | .txReceiveIsr => isTrue trivial
  | .sendFrame => isTrue trivial
  | .loseFrame _ => isTrue trivial
  | .loseAck _ => isTrue trivial
  | .deliverFrame _ => isTrue trivial
  | .deliverAck _ => isTrue trivial
  | .rxReceiveIsr _ => isTrue trivial
  | .loadAck => isTrue trivial
  | .notePreloaded => isTrue trivial

theorem noWrap_of_follows (h : Follows limit s t) (hbusy : t.link.stage ≠ .idle)
    {stack : CharBuffer}
    (hwrap : NoWrap { link := s, history := { (Transmitter.start s).history with limit := limit } }
      (.sender stack)) : NoWrap t (.sender stack) := by
  rcases h.sender with ⟨hstage, _, hobserve, _⟩
  rcases TxObserve.mk.inj hobserve with ⟨hcount, hpackages, hbytes, hlost, _, htotal⟩
  unfold NoWrap
  rw [hstage, h.flag, hcount, hpackages, hbytes, hlost, htotal, h.limit hbusy]
  exact hwrap

/-- A call returns behind its last statement. -/
theorem senderStep_results {stack : CharBuffer} (hstep : senderStep limit stack s = some s') :
    s'.results = if s.stage = .leave then s.results ++ [s.transmitSucceded] else s.results := by
  unfold senderStep at hstep
  cases hst : s.stage with
  | idle => simp only [hst, reduceCtorEq] at hstep
  | loop =>
      simp only [hst] at hstep
      by_cases hlt : s.retransmitCount < limit
      · rw [if_pos hlt, Option.some.injEq] at hstep
        rw [← hstep]
        exact (if_neg nofun).symm
      · rw [if_neg hlt, Option.some.injEq] at hstep
        rw [← hstep]
        exact (if_neg nofun).symm
  | check =>
      simp only [hst] at hstep
      by_cases hack : s.receivedAckPackage = true
      · rw [if_pos hack, Option.some.injEq] at hstep
        rw [← hstep]
        exact (if_neg nofun).symm
      · rw [if_neg hack, Option.some.injEq] at hstep
        rw [← hstep]
        exact (if_neg nofun).symm
  | leave =>
      simp only [hst, Option.some.injEq] at hstep
      rw [← hstep, if_pos rfl]
      exact List.map_append
  | _ =>
      simp only [hst, Option.some.injEq] at hstep
      rw [← hstep]
      exact (if_neg nofun).symm

/-- A statement of the sender depends on nothing else. -/
theorem senderStep_sameCounters {stack : CharBuffer} {u : Link} (hsame : SameCounters s u)
    (hflag : u.receivedAckPackage = s.receivedAckPackage)
    (hstep : senderStep limit stack s = some s') :
    ∃ u', senderStep limit stack u = some u' ∧ SameCounters s' u' ∧
      u'.receivedAckPackage = s'.receivedAckPackage ∧ s'.call = s.call := by
  rcases hsame with ⟨hstage, hcall, hobserve, hsucceeded⟩
  rcases TxObserve.mk.inj hobserve with ⟨hcount, hpackages, hbytes, hlost, hmaximum, htotal⟩
  have hu : u = { u with
      stage := s.stage
      call := s.call
      receivedAckPackage := s.receivedAckPackage
      transmitSucceded := s.transmitSucceded
      retransmitCount := s.retransmitCount
      totalPackages := s.totalPackages
      bytesSend := s.bytesSend
      totalLostPackages := s.totalLostPackages
      maxRetransmits := s.maxRetransmits
      totalRetransmits := s.totalRetransmits } := by
    rw [← hstage, ← hcall, ← hflag, ← hsucceeded, ← hcount, ← hpackages, ← hbytes, ← hlost,
      ← hmaximum, ← htotal]
  rw [hu]
  unfold senderStep at hstep ⊢
  cases hst : s.stage with
  | idle => simp only [hst, reduceCtorEq] at hstep
  | loop =>
      simp only [hst] at hstep ⊢
      by_cases hlt : s.retransmitCount < limit
      · rw [if_pos hlt, Option.some.injEq] at hstep
        rw [← hstep, if_pos hlt]
        exact ⟨_, rfl, ⟨rfl, rfl, rfl, rfl⟩, rfl, rfl⟩
      · rw [if_neg hlt, Option.some.injEq] at hstep
        rw [← hstep, if_neg hlt]
        exact ⟨_, rfl, ⟨rfl, rfl, rfl, rfl⟩, rfl, rfl⟩
  | transmit =>
      simp only [hst, Option.some.injEq] at hstep ⊢
      rw [← hstep]
      exact ⟨_, rfl, ⟨rfl, rfl, rfl, rfl⟩, rfl, rfl⟩
  | listening =>
      simp only [hst, Option.some.injEq] at hstep ⊢
      rw [← hstep]
      exact ⟨_, rfl, ⟨rfl, rfl, rfl, rfl⟩, rfl, rfl⟩
  | check =>
      simp only [hst] at hstep ⊢
      by_cases hack : s.receivedAckPackage = true
      · rw [if_pos hack, Option.some.injEq] at hstep
        rw [← hstep, if_pos hack]
        exact ⟨_, rfl, ⟨rfl, rfl, rfl, rfl⟩, rfl, rfl⟩
      · rw [if_neg hack, Option.some.injEq] at hstep
        rw [← hstep, if_neg hack]
        exact ⟨_, rfl, ⟨rfl, rfl, rfl, rfl⟩, rfl, rfl⟩
  | exit =>
      simp only [hst, Option.some.injEq] at hstep ⊢
      rw [← hstep]
      exact ⟨_, rfl, ⟨rfl, rfl, rfl, rfl⟩, rfl, rfl⟩
  | leave =>
      simp only [hst, Option.some.injEq] at hstep ⊢
      rw [← hstep]
      exact ⟨_, rfl, ⟨rfl, rfl, rfl, rfl⟩, rfl, rfl⟩

/-- What happens on the link happens to the transmitter. -/
theorem linkStep_follows (h : Follows limit s t) {e : LinkEvent} (hwrap : LinkNoWrap limit s e)
    (hstep : linkStep f limit e s = some s') :
    ∃ e' t', NoWrap t e' ∧ txStep f e' t = some t' ∧ Follows limit s' t' := by
  by_cases hcall : ∃ payload, e = .call payload
  · rcases hcall with ⟨payload, rfl⟩
    by_cases hidle : s.stage = .idle ∧ s.isr = none
    · rw [linkStep, if_pos hidle, Option.some.injEq] at hstep
      rw [← hstep]
      exact ⟨.call limit payload, _, trivial, if_pos (h.sender.stage.trans hidle.1),
        ⟨⟨rfl, congrArg Nat.succ h.sender.call, h.sender.txObserve, rfl⟩,
          congrArg Nat.succ h.calls, h.outcomes, h.flag, fun _ => rfl⟩⟩
    · rw [linkStep, if_neg hidle] at hstep
      exact absurd hstep nofun
  by_cases hsender : ∃ stack, e = .sender stack
  · rcases hsender with ⟨stack, rfl⟩
    have hisr : s.isr = none := by
      by_contra hc
      rw [linkStep, if_neg hc] at hstep
      exact absurd hstep nofun
    rw [linkStep, if_pos hisr] at hstep
    have hbusy : t.link.stage ≠ .idle := by
      rw [h.sender.stage]
      intro hidle
      simp only [senderStep, hidle, reduceCtorEq] at hstep
    rcases senderStep_sameCounters h.sender h.flag hstep with ⟨link, hlink, hsame, hflag, hcalls⟩
    rw [← h.limit hbusy] at hlink
    have hnext : txStep f (.sender stack) t =
        some { link := link, history := t.history.note t.link link } := by
      rw [txStep, hlink]
    have houtcomes : (t.history.note t.link link).outcomes.map CallOutcome.transmitSucceded =
        s'.results := by
      rw [senderStep_results hstep, CallHistory.note, h.sender.stage]
      by_cases hst : s.stage = .leave
      · rw [if_pos hst, if_pos hst, List.map_append, h.outcomes]
        exact congrArg (fun b => s.results ++ [b]) h.sender.transmitSucceded
      · rw [if_neg hst, if_neg hst]
        exact h.outcomes
    exact ⟨.sender stack, _, noWrap_of_follows h hbusy hwrap, hnext,
      ⟨hsame, h.calls.trans hcalls.symm, houtcomes, hflag, fun _ => h.limit hbusy⟩⟩
  · have hsame := linkStep_sameSender hstep (fun payload hc => hcall ⟨payload, hc⟩)
      fun stack hc => hsender ⟨stack, hc⟩
    exact ⟨.receive s'.receivedAckPackage, _, trivial, rfl,
      ⟨⟨h.sender.stage.trans hsame.stage.symm, h.sender.call.trans hsame.call.symm,
        h.sender.txObserve.trans hsame.txObserve.symm,
        h.sender.transmitSucceded.trans hsame.transmitSucceded.symm⟩,
      h.calls.trans hsame.call.symm, h.outcomes.trans hsame.results.symm, rfl, h.limit⟩⟩

/-- Every run of the link is one of the transmitter. -/
theorem link_follows (es : List LinkEvent) : ∀ (s s' : Link) (t : Transmitter),
    Follows limit s t → Meets (linkStep f limit) (LinkNoWrap limit) es s →
    run (linkStep f limit) es s = some s' →
    ∃ es' t', Meets (txStep f) NoWrap es' t ∧ run (txStep f) es' t = some t' ∧
      Follows limit s' t' := by
  induction es with
  | nil =>
      intro s s' t h _ hrun
      rw [← Option.some.inj hrun]
      exact ⟨[], t, trivial, rfl, h⟩
  | cons e es ih =>
      intro s s' t h hwrap hrun
      rcases run_cons _ hrun with ⟨s₁, hstep, hrest⟩
      rcases hwrap with ⟨hfirst, htail⟩
      rw [hstep] at htail
      rcases linkStep_follows h hfirst hstep with ⟨e', t₁, hfirst', hstep', h₁⟩
      rcases ih s₁ s' t₁ h₁ htail hrest with ⟨es', t', htail', hrun', h'⟩
      refine ⟨e' :: es', t', ⟨hfirst', ?_⟩, ?_, h'⟩
      · rw [hstep']
        exact htail'
      · rw [run, hstep']
        exact hrun'

end Link

/-- The accounts of the sender of a link, whatever the channel loses and delays: between
    two calls all that have been made have returned, those that returned 1 are counted as
    delivered and the others as lost. -/
theorem link_accounted {f : List Word → Word} {limit : Word} {outBuffer : CharBuffer}
    {u : CrcUnit} {receiver : Receiver} {es : List LinkEvent} {s : Link}
    (hwrap : Meets (linkStep f limit) (LinkNoWrap limit) es (Link.start outBuffer u receiver))
    (hrun : run (linkStep f limit) es (Link.start outBuffer u receiver) = some s)
    (hidle : s.stage = .idle) :
    s.results.length = s.call ∧ s.totalPackages.toNat = s.results.countP id ∧
      s.totalPackages.toNat + s.totalLostPackages.toNat = s.call ∧
      s.bytesSend.toNat = 32 * s.totalPackages.toNat ∧ s.retransmitCount = 0 := by
  have hstart : Follows limit (Link.start outBuffer u receiver)
      (Transmitter.start (Link.start outBuffer u receiver)) :=
    ⟨⟨rfl, rfl, rfl, rfl⟩, rfl, rfl, rfl, fun hc => absurd rfl hc⟩
  rcases link_follows es _ s _ hstart hwrap hrun with ⟨es', t, hwrap', hrun', h⟩
  have haccounts := txInv_accounts (run_txInv rfl hwrap' hrun') (h.sender.stage.trans hidle)
  rw [h.sender.txObserve] at haccounts
  have hlength : s.results.length = s.call := by
    rw [← h.outcomes, List.length_map]
    exact haccounts.returned.trans h.calls
  have hcount : t.history.succeeded = s.results.countP id := by
    rw [← h.outcomes, List.countP_map]
    rfl
  exact ⟨hlength, haccounts.delivered.trans hcount, haccounts.packages.trans h.calls,
    haccounts.bytesSend, haccounts.retransmitCount⟩

/-- Two calls of one round each. The first is acknowledged, and the frame of the second is
    lost. -/
def oneLost : List LinkEvent :=
  sendOnce 1 ++ frameArrives ++ ackTaken ++ senderGoesOn 4 ++ sendOnce 2 ++ [.loseFrame 0] ++
    senderGoesOn 5

theorem link_accounted_oneLost :
    Ends (linkStep crc32 1) oneLost freshLink fun s => s.results = [true, false] ∧
      s.totalPackages.toNat = s.results.countP id ∧
      s.totalPackages.toNat + s.totalLostPackages.toNat = s.call := by
  have hwrap : Meets (linkStep crc32 1) (LinkNoWrap 1) oneLost freshLink := by decide +kernel
  have hends : Ends (linkStep crc32 1) oneLost freshLink fun s =>
      s.stage = .idle ∧ s.results = [true, false] := by decide +kernel
  rcases hends with ⟨s, hrun, hidle, hresults⟩
  rcases link_accounted hwrap hrun hidle with ⟨_, hdelivered, hcalls, _⟩
  exact ⟨s, hrun, hresults, hdelivered, hcalls⟩

end NextLevelRTOS
