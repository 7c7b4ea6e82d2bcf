import NextLevelRTOS.Radio.Ack

/-!
# Transmission Statistics

`transmit_with_autoack` counts in `tx_observe` while it runs. `retransmitCount` is
the variable of its loop and part of the statistics at once: it starts at zero
because the call before has left it there, and what it has counted is added to
the totals behind the loop.

The loop is left in three ways. An acknowledgement ends it early, and the count
has not reached the limit. Without one it goes on until the count has, and then
the package is lost. If the limit is zero it is not entered, and the package is
lost as well, since zero has been reached. So what distinguishes the two ends
is the comparison with the limit behind the loop, and no flag is needed for it.

The interrupt may set or reset the flag at any time. It touches none of the
counters, and the loop reads the flag once a round.

What a call did is noted when it returns, and so are the calls. `loads` and
`unanswered` count the frames the call in progress has loaded and the rounds that
ended without an acknowledgement; nothing in the code reads them.

## Main definitions

* `TxObserve`: The counters.
* `flushCurrentTxState`: The counters are reset.
* `CallOutcome`, `CallHistory`: What a call did, and what all of them have done.
* `Transmitter`, `txStep`: Calls, each with a limit of its own, and the interrupt.
* `NoWrap`: No counter wraps.
* `Accounts`: What the counters say between two calls.
* `TxInv`: What they say at any time.

## Theorems

* `txStep_cases`: What a step does.
* `txStep_inv`: Every step keeps the accounts.
* `txStep_remaining`: The sender gets nearer to the end of the call.
* `transmissions_accounted`: What holds of every sequence of calls.
-/

namespace NextLevelRTOS

open Machine

/-- The fields of `TxObserve_t` that count. -/
structure TxObserve where
  retransmitCount : Word
  totalPackages : Word
  bytesSend : Word
  totalLostPackages : Word
  maxRetransmits : Word
  totalRetransmits : Word
  deriving DecidableEq, Repr

/-- `tx_observe` -/
def Link.txObserve (s : Link) : TxObserve :=
  { retransmitCount := s.retransmitCount
    totalPackages := s.totalPackages
    bytesSend := s.bytesSend
    totalLostPackages := s.totalLostPackages
    maxRetransmits := s.maxRetransmits
    totalRetransmits := s.totalRetransmits }

/-- `flush_current_tx_state` -/
def flushCurrentTxState (s : Link) : Link :=
  { s with
    totalLostPackages := 0
    retransmitCount := 0
    maxRetransmits := 0
    bytesSend := 0
    totalRetransmits := 0
    totalPackages := 0 }

/-- What a call did: its limit, how often it loaded the frame, how many rounds ended
    without an acknowledgement, how far it moved the two counters of packages, and what
    it returned. -/
structure CallOutcome where
  limit : Word
  loads : Nat
  retransmits : Nat
  delivered : Word
  lost : Word
  transmitSucceded : Bool
  deriving DecidableEq, Repr

/-- What has been done. -/
structure CallHistory where
  calls : Nat
  /-- `tx_config->retransmitCount` of the last call. -/
  limit : Word
  /-- The counters as the last call found them. -/
  before : TxObserve
  loads : Nat
  unanswered : Nat
  outcomes : List CallOutcome

/-- The sender and its history. -/
structure Transmitter where
  link : Link
  history : CallHistory

/-- What can happen. -/
inductive TxEvent where
  /-- `transmit_with_autoack` is called. -/
  | call (limit : Word) (payload : CharBuffer)
  /-- The sender goes on; `stack` is what memory held before. -/
  | sender (stack : CharBuffer)
  /-- The interrupt stores what it has found. -/
  | receive (ack : Bool)

/-- What the call that is about to return has done. -/
def CallHistory.outcome (h : CallHistory) (s : Link) : CallOutcome :=
  { limit := h.limit
    loads := h.loads
    retransmits := h.unanswered
    delivered := s.totalPackages - h.before.totalPackages
    lost := s.totalLostPackages - h.before.totalLostPackages
    transmitSucceded := s.transmitSucceded }

/-- The sender has gone from `s` to `s'`. -/
def CallHistory.note (h : CallHistory) (s s' : Link) : CallHistory :=
  { h with
    loads := if s.stage = .loop ∧ s'.stage = .transmit then h.loads + 1 else h.loads
    unanswered := if s.stage = .check ∧ s'.stage = .loop then h.unanswered + 1 else h.unanswered
    outcomes := if s.stage = .leave then h.outcomes ++ [h.outcome s] else h.outcomes }

/-- The transition function. -/
def txStep (f : List Word → Word) (e : TxEvent) (t : Transmitter) : Option Transmitter :=
  match e with
  | .call limit payload =>
    if t.link.stage = .idle then
      some
        { link := startCall f payload t.link
          history := { t.history with
            calls := t.history.calls + 1
            limit := limit
            before := t.link.txObserve
            loads := 0
            unanswered := 0 } }
    else none
  | .sender stack =>
    match senderStep t.history.limit stack t.link with
    | none => none
    | some link => some { link := link, history := t.history.note t.link link }
  | .receive ack => some { t with link := { t.link with receivedAckPackage := ack } }

/-- The counters have been flushed between two calls. -/
def Transmitter.start (s : Link) : Transmitter :=
  { link := flushCurrentTxState s
    history :=
      { calls := 0
        limit := 0
        before := s.txObserve
        loads := 0
        unanswered := 0
        outcomes := [] } }

/-- The next step makes no counter wrap. -/
def NoWrap (t : Transmitter) : TxEvent → Prop
  | .sender _ =>
    (t.link.stage = .check → t.link.receivedAckPackage = true →
      t.link.totalPackages.toNat + 1 < 2 ^ 32 ∧ t.link.bytesSend.toNat + 32 < 2 ^ 32) ∧
    (t.link.stage = .exit → t.link.retransmitCount = t.history.limit →
      t.link.totalLostPackages.toNat + 1 < 2 ^ 32) ∧
    (t.link.stage = .leave →
      t.link.totalRetransmits.toNat + t.link.retransmitCount.toNat < 2 ^ 32)
  | .call _ _ => True
  | .receive _ => True

instance decidableNoWrap (t : Transmitter) : ∀ e, Decidable (NoWrap t e)
  | .sender _ => inferInstanceAs (Decidable (_ ∧ _ ∧ _))
  | .call _ _ => isTrue trivial
  | .receive _ => isTrue trivial

/-- A call is made. -/
def TxEvent.isCall : TxEvent → Bool
  | .call _ _ => true
  | .sender _ => false
  | .receive _ => false

/-- The sender goes on. -/
def TxEvent.isSender : TxEvent → Bool
  | .sender _ => true
  | .call _ _ => false
  | .receive _ => false

/-- A call has loaded its frame no more often than it may, and counts either as delivered
    or as lost; it returned 1 in the first case. -/
structure CallOutcome.Settled (o : CallOutcome) : Prop where
  loads : o.loads ≤ o.limit.toNat
  counted : o.transmitSucceded = true ∧ o.delivered = 1 ∧ o.lost = 0 ∨
    o.transmitSucceded = false ∧ o.delivered = 0 ∧ o.lost = 1

/-- How many of the calls returned 1. -/
def CallHistory.succeeded (h : CallHistory) : Nat := h.outcomes.countP CallOutcome.transmitSucceded

/-- The retransmissions of each call. -/
def CallHistory.retransmits (h : CallHistory) : List Nat := h.outcomes.map CallOutcome.retransmits

/-- What the counters say between two calls. -/
structure Accounts (x : TxObserve) (h : CallHistory) : Prop where
  returned : h.outcomes.length = h.calls
  settled : ∀ o ∈ h.outcomes, o.Settled
  packages : x.totalPackages.toNat + x.totalLostPackages.toNat = h.calls
  delivered : x.totalPackages.toNat = h.succeeded
  retransmitCount : x.retransmitCount = 0
  bytesSend : x.bytesSend.toNat = 32 * x.totalPackages.toNat
  totalRetransmits : x.totalRetransmits.toNat = h.retransmits.sum
  maxRetransmits : x.maxRetransmits.toNat = h.retransmits.foldr max 0

/-- The call in progress, if there is one, comes to its end: the sender can go on, and
    however long the interrupt keeps coming, the sender goes on a limited number of
    times. -/
structure Returns (f : List Word → Word) (t : Transmitter) : Prop where
  enabled : t.link.stage ≠ .idle → ∀ stack, ∃ u, txStep f (.sender stack) t = some u
  limited : ∀ es u, (∀ e ∈ es, e.isCall = false) → run (txStep f) es t = some u →
    es.countP TxEvent.isSender ≤ 4 * t.history.limit.toNat + 3

/-- What a step does. -/
theorem txStep_cases {f : List Word → Word} {e : TxEvent} {t t' : Transmitter}
    (hstep : txStep f e t = some t') :
    (∃ limit payload, e = .call limit payload ∧ t.link.stage = .idle ∧
      t' =
        { link := startCall f payload t.link
          history := { t.history with
            calls := t.history.calls + 1
            limit := limit
            before := t.link.txObserve
            loads := 0
            unanswered := 0 } }) ∨
    (∃ stack link, e = .sender stack ∧ senderStep t.history.limit stack t.link = some link ∧
      t' = { link := link, history := t.history.note t.link link }) ∨
    ∃ ack, e = .receive ack ∧
      t' = { t with link := { t.link with receivedAckPackage := ack } } := by
  cases e with
  | call limit payload =>
      by_cases hidle : t.link.stage = .idle
      · rw [txStep, if_pos hidle, Option.some.injEq] at hstep
        exact Or.inl ⟨limit, payload, rfl, hidle, hstep.symm⟩
      · rw [txStep, if_neg hidle] at hstep
        exact absurd hstep nofun
  | sender stack =>
      rw [txStep] at hstep
      cases hsender : senderStep t.history.limit stack t.link with
      | none => simp only [hsender, reduceCtorEq] at hstep
      | some link =>
          simp only [hsender, Option.some.injEq] at hstep
          exact Or.inr (Or.inl ⟨stack, link, rfl, hsender, hstep.symm⟩)
  | receive ack =>
      rw [txStep, Option.some.injEq] at hstep
      exact Or.inr (Or.inr ⟨ack, rfl, hstep.symm⟩)

section Invariant

/-- What the counters say while a call runs: it has counted `gained` packages and `given`
    losses, and has looked at `seen` retransmissions for the maximum. -/
structure Books (x : TxObserve) (h : CallHistory) (gained given seen : Nat) : Prop where
  settled : ∀ o ∈ h.outcomes, o.Settled
  packages : x.totalPackages.toNat = h.succeeded + gained
  losses : x.totalLostPackages.toNat + h.succeeded = h.outcomes.length + given
  bytes : x.bytesSend.toNat = 32 * x.totalPackages.toNat
  total : x.totalRetransmits.toNat = h.retransmits.sum
  maximum : x.maxRetransmits.toNat = max (h.retransmits.foldr max 0) seen

/-- A call is in progress, which found the counters as the calls before had left them. -/
structure InCall (x : TxObserve) (h : CallHistory) : Prop where
  calls : h.calls = h.outcomes.length + 1
  count : x.retransmitCount.toNat = h.unanswered
  packages : h.before.totalPackages.toNat = h.succeeded
  losses : h.before.totalLostPackages.toNat + h.succeeded = h.outcomes.length

/-- How the loop has ended: an acknowledgement has come before the limit was reached, or
    the limit has been reached. -/
def LoopEnded (transmitSucceded : Bool) (h : CallHistory) : Prop :=
  if transmitSucceded then h.loads = h.unanswered + 1 ∧ h.unanswered < h.limit.toNat
  else h.loads = h.unanswered ∧ h.unanswered = h.limit.toNat

/-- What the counters say at each stage. -/
def StageInv (x : TxObserve) (transmitSucceded : Bool) (h : CallHistory) : Stage → Prop
  | .idle => Books x h 0 0 0 ∧ h.calls = h.outcomes.length ∧ x.retransmitCount = 0
  | .loop => InCall x h ∧ Books x h 0 0 0 ∧ transmitSucceded = false ∧
      h.loads = h.unanswered ∧ h.unanswered ≤ h.limit.toNat
  | .transmit | .listening | .check => InCall x h ∧ Books x h 0 0 0 ∧
      transmitSucceded = false ∧ h.loads = h.unanswered + 1 ∧ h.unanswered < h.limit.toNat
  | .exit => InCall x h ∧ LoopEnded transmitSucceded h ∧ Books x h transmitSucceded.toNat 0 0
  | .leave => InCall x h ∧ LoopEnded transmitSucceded h ∧
      Books x h transmitSucceded.toNat (!transmitSucceded).toNat h.unanswered

/-- What they say at any time. -/
def TxInv (t : Transmitter) : Prop :=
  StageInv t.link.txObserve t.link.transmitSucceded t.history t.link.stage

/-- The count of the call in progress is in no book. -/
theorem Books.kept {x x' : TxObserve} {h h' : CallHistory} {gained given seen : Nat}
    (hbooks : Books x h gained given seen)
    (hx : x' = { x with retransmitCount := x'.retransmitCount }) (hh : h'.outcomes = h.outcomes) :
    Books x' h' gained given seen := by
  rw [hx]
  have hsucceeded : h'.succeeded = h.succeeded := congrArg (List.countP _) hh
  have hretransmits : h'.retransmits = h.retransmits := congrArg (List.map _) hh
  refine ⟨?_, ?_, ?_, hbooks.bytes, ?_, ?_⟩
  · rw [hh]
    exact hbooks.settled
  · rw [hsucceeded]
    exact hbooks.packages
  · rw [hsucceeded, hh]
    exact hbooks.losses
  · rw [hretransmits]
    exact hbooks.total
  · rw [hretransmits]
    exact hbooks.maximum

variable {f : List Word → Word} {t t' : Transmitter}

theorem start_txInv {s : Link} (h : s.stage = .idle) : TxInv (Transmitter.start s) := by
  have hstage : (Transmitter.start s).link.stage = .idle := h
  rw [TxInv, hstage]
  exact ⟨⟨fun _ ho => absurd ho List.not_mem_nil, rfl, rfl, rfl, rfl, rfl⟩, rfl, rfl⟩

/-! ### The steps of the sender -/

section Sender

variable {stack : CharBuffer} {s s' : Link} {h : CallHistory}

theorem note_load (hs : s.stage = .loop) (hs' : s'.stage = .transmit) :
    h.note s s' = { h with loads := h.loads + 1 } := by
  simp only [CallHistory.note, hs, hs', reduceCtorEq, and_self, if_true, if_false]

theorem note_unanswered (hs : s.stage = .check) (hs' : s'.stage = .loop) :
    h.note s s' = { h with unanswered := h.unanswered + 1 } := by
  simp only [CallHistory.note, hs, hs', reduceCtorEq, and_self, if_true, if_false]

theorem note_return (hs : s.stage = .leave) :
    h.note s s' = { h with outcomes := h.outcomes ++ [h.outcome s] } := by
  simp only [CallHistory.note, hs, reduceCtorEq, false_and, if_true, if_false]

/-- A step that loads no frame, finds no answer missing and ends no call is not noted. -/
theorem note_eq {x y : Stage} (hs : s.stage = x) (hs' : s'.stage = y)
    (hxy : ¬ (x = .loop ∧ y = .transmit) ∧ ¬ (x = .check ∧ y = .loop) ∧ x ≠ .leave) :
    h.note s s' = h := by
  rw [CallHistory.note, hs, hs', if_neg hxy.1, if_neg hxy.2.1, if_neg hxy.2.2]

theorem loop_stageInv (hst : s.stage = .loop)
    (hinv : StageInv s.txObserve s.transmitSucceded h .loop)
    (hstep : senderStep h.limit stack s = some s') :
    StageInv s'.txObserve s'.transmitSucceded (h.note s s') s'.stage := by
  rcases hinv with ⟨hcall, hbooks, hsucc, hloads, hle⟩
  have hcount : s.retransmitCount.toNat = h.unanswered := hcall.count
  simp only [senderStep, hst] at hstep
  by_cases hlt : s.retransmitCount < h.limit
  · rw [if_pos hlt, Option.some.injEq] at hstep
    rw [BitVec.lt_def, hcount] at hlt
    rw [← hstep, note_load hst rfl]
    exact ⟨⟨hcall.calls, hcount, hcall.packages, hcall.losses⟩, hbooks.kept rfl rfl, hsucc,
      congrArg Nat.succ hloads, hlt⟩
  -- The limit has been reached, and the count is not above it.
  · rw [if_neg hlt, Option.some.injEq] at hstep
    have hstage : s'.stage = .exit := by rw [← hstep]
    rw [BitVec.lt_def, hcount] at hlt
    rw [note_eq hst hstage (by decide), ← hstep]
    refine ⟨hcall, ?_, ?_⟩
    · rw [LoopEnded, if_neg (by rw [hsucc]; decide)]
      exact ⟨hloads, Nat.le_antisymm hle (Nat.le_of_not_lt hlt)⟩
    · rw [hsucc]
      exact hbooks

theorem transmit_stageInv (hst : s.stage = .transmit)
    (hinv : StageInv s.txObserve s.transmitSucceded h .transmit)
    (hstep : senderStep h.limit stack s = some s') :
    StageInv s'.txObserve s'.transmitSucceded (h.note s s') s'.stage := by
  simp only [senderStep, hst, Option.some.injEq] at hstep
  have hstage : s'.stage = .listening := by rw [← hstep]
  rw [note_eq hst hstage (by decide), ← hstep]
  exact hinv

theorem listening_stageInv (hst : s.stage = .listening)
    (hinv : StageInv s.txObserve s.transmitSucceded h .listening)
    (hstep : senderStep h.limit stack s = some s') :
    StageInv s'.txObserve s'.transmitSucceded (h.note s s') s'.stage := by
  simp only [senderStep, hst, Option.some.injEq] at hstep
  have hstage : s'.stage = .check := by rw [← hstep]
  rw [note_eq hst hstage (by decide), ← hstep]
  exact hinv

theorem check_stageInv (hst : s.stage = .check)
    (hinv : StageInv s.txObserve s.transmitSucceded h .check)
    (hwrap : s.receivedAckPackage = true →
      s.totalPackages.toNat + 1 < 2 ^ 32 ∧ s.bytesSend.toNat + 32 < 2 ^ 32)
    (hstep : senderStep h.limit stack s = some s') :
    StageInv s'.txObserve s'.transmitSucceded (h.note s s') s'.stage := by
  rcases hinv with ⟨hcall, hbooks, hsucc, hloads, hlt⟩
  have hcount : s.retransmitCount.toNat = h.unanswered := hcall.count
  simp only [senderStep, hst] at hstep
  by_cases hack : s.receivedAckPackage = true
  · rcases hwrap hack with ⟨hpackages, hbytes⟩
    have hpackages' : (s.totalPackages + 1).toNat = s.totalPackages.toNat + 1 :=
      BitVec.toNat_add_of_lt hpackages
    have hbytes' : (s.bytesSend + 32).toNat = s.bytesSend.toNat + 32 :=
      BitVec.toNat_add_of_lt hbytes
    rw [if_pos hack, Option.some.injEq] at hstep
    have hstage : s'.stage = .exit := by rw [← hstep]
    rw [note_eq hst hstage (by decide), ← hstep]
    refine ⟨⟨hcall.calls, hcount, hcall.packages, hcall.losses⟩, ⟨hloads, hlt⟩,
      ⟨hbooks.settled, ?_, hbooks.losses, ?_, hbooks.total, hbooks.maximum⟩⟩
    · exact hpackages'.trans (congrArg Nat.succ hbooks.packages)
    · have := hbooks.bytes
      change (s.bytesSend + 32).toNat = 32 * (s.totalPackages + 1).toNat
      change s.bytesSend.toNat = 32 * s.totalPackages.toNat at this
      omega
  -- Below the limit the count cannot wrap.
  · rw [if_neg hack, Option.some.injEq] at hstep
    have hcount' : (s.retransmitCount + 1).toNat = s.retransmitCount.toNat + 1 := by
      refine BitVec.toNat_add_of_lt (lt_of_le_of_lt ?_ h.limit.isLt)
      rw [hcount]
      exact hlt
    rw [← hstep, note_unanswered hst rfl]
    exact ⟨⟨hcall.calls, hcount'.trans (congrArg Nat.succ hcount), hcall.packages, hcall.losses⟩,
      hbooks.kept rfl rfl, hsucc, hloads, hlt⟩

/-- Behind the loop the count equals the limit exactly if there was no
    acknowledgement. -/
theorem loopEnded_limit {transmitSucceded : Bool} {count : Word}
    (hended : LoopEnded transmitSucceded h) (hcount : count.toNat = h.unanswered) :
    count = h.limit ↔ transmitSucceded = false := by
  rw [BitVec.toNat_eq, hcount]
  cases transmitSucceded with
  | true => exact iff_of_false (Nat.ne_of_lt hended.2) nofun
  | false => exact iff_of_true hended.2 rfl

theorem exit_stageInv (hst : s.stage = .exit)
    (hinv : StageInv s.txObserve s.transmitSucceded h .exit)
    (hwrap : s.retransmitCount = h.limit → s.totalLostPackages.toNat + 1 < 2 ^ 32)
    (hstep : senderStep h.limit stack s = some s') :
    StageInv s'.txObserve s'.transmitSucceded (h.note s s') s'.stage := by
  rcases hinv with ⟨hcall, hended, hbooks⟩
  have hcount : s.retransmitCount.toNat = h.unanswered := hcall.count
  have hlimit := loopEnded_limit hended hcount
  simp only [senderStep, hst, Option.some.injEq] at hstep
  have hstage : s'.stage = .leave := by rw [← hstep]
  rw [note_eq hst hstage (by decide), ← hstep]
  refine ⟨⟨hcall.calls, hcount, hcall.packages, hcall.losses⟩, hended,
    ⟨hbooks.settled, hbooks.packages, ?_, hbooks.bytes, hbooks.total, ?_⟩⟩
  · have hlosses : s.totalLostPackages.toNat + h.succeeded = h.outcomes.length := hbooks.losses
    change (if s.retransmitCount = h.limit then s.totalLostPackages + 1
      else s.totalLostPackages).toNat + h.succeeded = _
    cases hsucc : s.transmitSucceded with
    | true =>
        rw [if_neg fun hc => Bool.noConfusion (hsucc.symm.trans (hlimit.mp hc))]
        exact hlosses
    | false =>
        have hreached := hlimit.mpr hsucc
        rw [if_pos hreached, BitVec.toNat_add_of_lt (hwrap hreached), Nat.add_right_comm, hlosses]
        rfl
  · have hmaximum : s.maxRetransmits.toNat = h.retransmits.foldr max 0 :=
      hbooks.maximum.trans (Nat.max_eq_left (Nat.zero_le _))
    change (if s.maxRetransmits < s.retransmitCount then s.retransmitCount
      else s.maxRetransmits).toNat = _
    rw [← hmaximum, ← hcount]
    by_cases hlt : s.maxRetransmits < s.retransmitCount
    · rw [if_pos hlt, Nat.max_eq_right (Nat.le_of_lt (BitVec.lt_def.mp hlt))]
    · rw [if_neg hlt, Nat.max_eq_left (Nat.le_of_not_lt fun hc => hlt (BitVec.lt_def.mpr hc))]

/-- A counter that has gone on by a number. -/
theorem sub_of_toNat_eq {x y : Word} {n : Nat} (hn : x.toNat = y.toNat + n) :
    x - y = BitVec.ofNat 32 n := by
  have hx : x = y + BitVec.ofNat 32 n := by
    have := x.isLt
    rw [BitVec.toNat_eq, BitVec.toNat_add, BitVec.toNat_ofNat, Nat.add_mod_mod, ← hn,
      Nat.mod_eq_of_lt this]
  rw [hx, BitVec.add_comm, BitVec.add_sub_cancel]

theorem foldr_max_append (l : List Nat) (n : Nat) :
    (l ++ [n]).foldr max 0 = max (l.foldr max 0) n := by
  induction l with
  | nil => exact Nat.max_comm n 0
  | cons m l ih => rw [List.cons_append, List.foldr_cons, ih, List.foldr_cons, Nat.max_assoc]

theorem outcome_settled {seen : Nat} (hcall : InCall s.txObserve h)
    (hended : LoopEnded s.transmitSucceded h)
    (hbooks : Books s.txObserve h s.transmitSucceded.toNat (!s.transmitSucceded).toNat seen) :
    (h.outcome s).Settled := by
  have hdelivered : s.totalPackages - h.before.totalPackages =
      BitVec.ofNat 32 s.transmitSucceded.toNat :=
    sub_of_toNat_eq (hbooks.packages.trans (by rw [hcall.packages]))
  have hlost : s.totalLostPackages - h.before.totalLostPackages =
      BitVec.ofNat 32 (!s.transmitSucceded).toNat := by
    have hnow : s.totalLostPackages.toNat + h.succeeded = _ := hbooks.losses
    have hbefore := hcall.losses
    exact sub_of_toNat_eq (by omega)
  cases hsucc : s.transmitSucceded with
  | true =>
      rw [hsucc] at hended hdelivered hlost
      exact ⟨hended.1.trans_le hended.2, Or.inl ⟨hsucc, hdelivered, hlost⟩⟩
  | false =>
      rw [hsucc] at hended hdelivered hlost
      exact ⟨(hended.1.trans hended.2).le, Or.inr ⟨hsucc, hdelivered, hlost⟩⟩

theorem leave_stageInv (hst : s.stage = .leave)
    (hinv : StageInv s.txObserve s.transmitSucceded h .leave)
    (hwrap : s.totalRetransmits.toNat + s.retransmitCount.toNat < 2 ^ 32)
    (hstep : senderStep h.limit stack s = some s') :
    StageInv s'.txObserve s'.transmitSucceded (h.note s s') s'.stage := by
  rcases hinv with ⟨hcall, hended, hbooks⟩
  have hcount : s.retransmitCount.toNat = h.unanswered := hcall.count
  simp only [senderStep, hst, Option.some.injEq] at hstep
  rw [note_return hst, ← hstep]
  have hsucceeded : (h.outcomes ++ [h.outcome s]).countP CallOutcome.transmitSucceded =
      h.succeeded + s.transmitSucceded.toNat := by
    rw [List.countP_append, List.countP_singleton]
    change h.succeeded + (if s.transmitSucceded = true then 1 else 0) = _
    cases s.transmitSucceded <;> rfl
  have hretransmits : (h.outcomes ++ [h.outcome s]).map CallOutcome.retransmits =
      h.retransmits ++ [h.unanswered] := List.map_append
  refine ⟨⟨fun o ho => ?_, hbooks.packages.trans hsucceeded.symm, ?_, hbooks.bytes, ?_, ?_⟩, ?_,
    rfl⟩
  · rcases List.mem_append.mp ho with ho | ho
    · exact hbooks.settled o ho
    · rw [List.mem_singleton.mp ho]
      exact outcome_settled hcall hended hbooks
  · have hlosses : s.totalLostPackages.toNat + h.succeeded = _ := hbooks.losses
    have hone : s.transmitSucceded.toNat + (!s.transmitSucceded).toNat = 1 := by
      cases s.transmitSucceded <;> rfl
    change s.totalLostPackages.toNat + (h.outcomes ++ [h.outcome s]).countP _ =
      (h.outcomes ++ [h.outcome s]).length + 0
    rw [hsucceeded, List.length_append, List.length_singleton]
    omega
  · change (s.totalRetransmits + s.retransmitCount).toNat =
      ((h.outcomes ++ [h.outcome s]).map CallOutcome.retransmits).sum
    have htotal : s.totalRetransmits.toNat = h.retransmits.sum := hbooks.total
    rw [BitVec.toNat_add_of_lt hwrap, htotal, hcount, hretransmits, List.sum_append,
      List.sum_singleton]
  · change s.maxRetransmits.toNat =
      max (((h.outcomes ++ [h.outcome s]).map CallOutcome.retransmits).foldr max 0) 0
    rw [hretransmits, foldr_max_append, Nat.max_eq_left (Nat.zero_le _)]
    exact hbooks.maximum
  · change h.calls = (h.outcomes ++ [h.outcome s]).length
    rw [hcall.calls, List.length_append, List.length_singleton]

theorem sender_stageInv (hinv : StageInv s.txObserve s.transmitSucceded h s.stage)
    (hstep : senderStep h.limit stack s = some s')
    (hcheck : s.stage = .check → s.receivedAckPackage = true →
      s.totalPackages.toNat + 1 < 2 ^ 32 ∧ s.bytesSend.toNat + 32 < 2 ^ 32)
    (hexit : s.stage = .exit → s.retransmitCount = h.limit →
      s.totalLostPackages.toNat + 1 < 2 ^ 32)
    (hleave : s.stage = .leave →
      s.totalRetransmits.toNat + s.retransmitCount.toNat < 2 ^ 32) :
    StageInv s'.txObserve s'.transmitSucceded (h.note s s') s'.stage := by
  cases hst : s.stage with
  | idle => simp only [senderStep, hst, reduceCtorEq] at hstep
  | loop => exact loop_stageInv hst (hst ▸ hinv) hstep
  | transmit => exact transmit_stageInv hst (hst ▸ hinv) hstep
  | listening => exact listening_stageInv hst (hst ▸ hinv) hstep
  | check => exact check_stageInv hst (hst ▸ hinv) (hcheck hst) hstep
  | exit => exact exit_stageInv hst (hst ▸ hinv) (hexit hst) hstep
  | leave => exact leave_stageInv hst (hst ▸ hinv) (hleave hst) hstep

end Sender

/-- Every step keeps the accounts. -/
theorem txStep_inv (h : TxInv t) {e : TxEvent} (hwrap : NoWrap t e)
    (hstep : txStep f e t = some t') : TxInv t' := by
  rcases txStep_cases hstep with ⟨limit, payload, rfl, hidle, rfl⟩ |
    ⟨stack, link, rfl, hsender, rfl⟩ | ⟨ack, rfl, rfl⟩
  · rw [TxInv, hidle] at h
    rcases h with ⟨hbooks, hcalls, hcount⟩
    refine ⟨⟨congrArg Nat.succ hcalls, ?_, hbooks.packages, hbooks.losses⟩, hbooks.kept rfl rfl,
      rfl, rfl, Nat.zero_le _⟩
    exact congrArg BitVec.toNat hcount
  · rcases hwrap with ⟨hcheck, hexit, hleave⟩
    exact sender_stageInv h hsender hcheck hexit hleave
  -- The interrupt touches none of the counters.
  · exact h

theorem run_txInv {s : Link} (hidle : s.stage = .idle) {es : List TxEvent}
    (hwrap : Meets (txStep f) NoWrap es (Transmitter.start s))
    (hrun : run (txStep f) es (Transmitter.start s) = some t) : TxInv t :=
  run_invariant (txStep f) TxInv (fun _ _ _ h hC hstep => txStep_inv h hC hstep) es _ t
    (start_txInv hidle) hwrap hrun

/-- Between two calls nothing is in progress. -/
theorem txInv_accounts (h : TxInv t) (hst : t.link.stage = .idle) :
    Accounts t.link.txObserve t.history := by
  rw [TxInv, hst] at h
  rcases h with ⟨hbooks, hcalls, hcount⟩
  have hpackages := hbooks.packages
  have hlosses := hbooks.losses
  exact ⟨hcalls.symm, hbooks.settled, by omega, hpackages, hcount, hbooks.bytes, hbooks.total,
    hbooks.maximum.trans (Nat.max_eq_left (Nat.zero_le _))⟩

end Invariant

/-! ### A call returns -/

section Return

/-- Inside a round the count is below the limit. -/
def InRound (limit : Word) (s : Link) : Prop :=
  s.stage = .transmit ∨ s.stage = .listening ∨ s.stage = .check →
    s.retransmitCount.toNat < limit.toNat

/-- How many steps the sender makes before the call returns, at most. -/
def remaining (limit : Word) (s : Link) : Nat :=
  let rounds := limit.toNat - s.retransmitCount.toNat
  match s.stage with
  | .idle => 0
  | .loop => 4 * rounds + 3
  | .transmit => 4 * rounds + 2
  | .listening => 4 * rounds + 1
  | .check => 4 * rounds
  | .exit => 2
  | .leave => 1

theorem remaining_le (limit : Word) (s : Link) : remaining limit s ≤ 4 * limit.toNat + 3 := by
  unfold remaining
  cases s.stage <;> simp only <;> omega

/-- Inside a call the sender can go on. -/
theorem senderStep_isSome {s : Link} (h : s.stage ≠ .idle) (limit : Word) (stack : CharBuffer) :
    ∃ s', senderStep limit stack s = some s' := by
  unfold senderStep
  cases hst : s.stage with
  | idle => exact absurd hst h
  | loop => exact (ite_eq_or_eq _ _ _).elim (fun hs => ⟨_, hs⟩) fun hs => ⟨_, hs⟩
  | transmit => exact ⟨_, rfl⟩
  | listening => exact ⟨_, rfl⟩
  | check => exact (ite_eq_or_eq _ _ _).elim (fun hs => ⟨_, hs⟩) fun hs => ⟨_, hs⟩
  | exit => exact ⟨_, rfl⟩
  | leave => exact ⟨_, rfl⟩

/-- The sender gets nearer to the end of the call. -/
theorem senderStep_remaining {limit : Word} {s s' : Link} (h : InRound limit s)
    {stack : CharBuffer} (hstep : senderStep limit stack s = some s') :
    InRound limit s' ∧ remaining limit s' < remaining limit s := by
  unfold senderStep at hstep
  unfold InRound at h
  cases hst : s.stage with
  | idle => simp only [hst, reduceCtorEq] at hstep
  | loop =>
      simp only [hst] at hstep
      by_cases hlt : s.retransmitCount < limit
      · rw [if_pos hlt, Option.some.injEq] at hstep
        rw [← hstep]
        refine ⟨fun _ => BitVec.lt_def.mp hlt, ?_⟩
        simp only [remaining, hst]
        omega
      · rw [if_neg hlt, Option.some.injEq] at hstep
        rw [← hstep]
        refine ⟨nofun, ?_⟩
        simp only [remaining, hst]
        omega
  | transmit =>
      have hlt := h (Or.inl hst)
      simp only [hst, Option.some.injEq] at hstep
      rw [← hstep]
      refine ⟨fun _ => hlt, ?_⟩
      simp only [remaining, hst]
      omega
  | listening =>
      have hlt := h (Or.inr (Or.inl hst))
      simp only [hst, Option.some.injEq] at hstep
      rw [← hstep]
      refine ⟨fun _ => hlt, ?_⟩
      simp only [remaining, hst]
      omega
  | check =>
      have hlt := h (Or.inr (Or.inr hst))
      simp only [hst] at hstep
      by_cases hack : s.receivedAckPackage = true
      · rw [if_pos hack, Option.some.injEq] at hstep
        rw [← hstep]
        refine ⟨nofun, ?_⟩
        simp only [remaining, hst]
        omega
      -- One round less is left, since the count does not wrap below the limit.
      · rw [if_neg hack, Option.some.injEq] at hstep
        have hcount : (s.retransmitCount + 1).toNat = s.retransmitCount.toNat + 1 :=
          BitVec.toNat_add_of_lt (lt_of_le_of_lt hlt limit.isLt)
        rw [← hstep]
        refine ⟨nofun, ?_⟩
        simp only [remaining, hst, hcount]
        omega
  | exit =>
      simp only [hst, Option.some.injEq] at hstep
      rw [← hstep]
      refine ⟨nofun, ?_⟩
      simp only [remaining, hst]
      omega
  | leave =>
      simp only [hst, Option.some.injEq] at hstep
      rw [← hstep]
      refine ⟨nofun, ?_⟩
      simp only [remaining, hst]
      omega

variable {f : List Word → Word} {t t' : Transmitter}

theorem txStep_inRound (h : InRound t.history.limit t.link) {e : TxEvent}
    (hstep : txStep f e t = some t') : InRound t'.history.limit t'.link := by
  rcases txStep_cases hstep with ⟨limit, payload, rfl, _, rfl⟩ |
    ⟨stack, link, rfl, hsender, rfl⟩ | ⟨ack, rfl, rfl⟩
  · exact nofun
  · exact (senderStep_remaining h hsender).1
  · exact h

/-- Without another call, every step of the sender leaves fewer. -/
theorem txStep_remaining (h : InRound t.history.limit t.link) {e : TxEvent}
    (hcall : e.isCall = false) (hstep : txStep f e t = some t') :
    remaining t'.history.limit t'.link + e.isSender.toNat ≤ remaining t.history.limit t.link := by
  rcases txStep_cases hstep with ⟨limit, payload, rfl, _, rfl⟩ |
    ⟨stack, link, rfl, hsender, rfl⟩ | ⟨ack, rfl, rfl⟩
  · exact Bool.noConfusion hcall
  · exact (senderStep_remaining h hsender).2
  · exact Nat.le_refl _

theorem senderSteps_le (es : List TxEvent) : ∀ t u : Transmitter,
    InRound t.history.limit t.link → (∀ e ∈ es, e.isCall = false) →
    run (txStep f) es t = some u →
    es.countP TxEvent.isSender ≤ remaining t.history.limit t.link := by
  induction es with
  | nil => exact fun t u _ _ _ => Nat.zero_le _
  | cons e es ih =>
      intro t u h hcalls hrun
      rcases run_cons _ hrun with ⟨t₁, hstep, hrest⟩
      have hfirst := txStep_remaining h (hcalls e List.mem_cons_self) hstep
      have htail := ih t₁ u (txStep_inRound h hstep)
        (fun e' he' => hcalls e' (List.mem_cons_of_mem e he')) hrest
      rw [List.countP_cons, ← Bool.cond_eq_ite]
      exact (Nat.add_le_add_right htail _).trans hfirst

theorem inRound_returns (h : InRound t.history.limit t.link) : Returns f t := by
  refine ⟨fun hidle stack => ?_, fun es u hcalls hrun => ?_⟩
  · rcases senderStep_isSome hidle t.history.limit stack with ⟨link, hsender⟩
    exact ⟨_, by rw [txStep, hsender]⟩
  · exact (senderSteps_le es t u h hcalls hrun).trans (remaining_le _ _)

end Return

/-- Between two calls the accounts are right, whatever the limits were and whenever
    acknowledgements came, and a call that has begun returns. -/
theorem transmissions_accounted {f : List Word → Word} {s : Link} (hidle : s.stage = .idle)
    {es : List TxEvent} {t : Transmitter}
    (hwrap : Meets (txStep f) NoWrap es (Transmitter.start s))
    (hrun : run (txStep f) es (Transmitter.start s) = some t) :
    (t.link.stage = .idle → Accounts t.link.txObserve t.history) ∧ Returns f t := by
  have hstart : InRound (Transmitter.start s).history.limit (Transmitter.start s).link := by
    intro hstage
    have hlink : (Transmitter.start s).link.stage = .idle := hidle
    rw [hlink] at hstage
    simp only [reduceCtorEq, or_false] at hstage
  have hround : InRound t.history.limit t.link :=
    run_preserves (txStep f) (fun t => InRound t.history.limit t.link)
      (fun _ _ _ h hstep => txStep_inRound h hstep) es _ t hstart hrun
  exact ⟨txInv_accounts (run_txInv hidle hwrap hrun), inRound_returns hround⟩

/-- The sender goes on a number of times. -/
def goesOn (n : Nat) : List TxEvent := List.replicate n (.sender fun _ => 0)

/-- A package is acknowledged in the second round and one is given up after two; with a
    limit of zero one is lost at once. -/
def threeCalls : List TxEvent :=
  .call 3 (fun _ => 1) :: goesOn 6 ++ .receive true :: goesOn 4 ++
    .call 2 (fun _ => 2) :: goesOn 11 ++ .call 0 (fun _ => 3) :: goesOn 3

theorem transmissions_accounted_threeCalls :
    ∃ t, run (txStep crc32) threeCalls (Transmitter.start freshLink) = some t ∧
      t.history.retransmits = [1, 2, 0] ∧ t.history.succeeded = 1 ∧
      Accounts t.link.txObserve t.history ∧ Returns crc32 t := by
  have hwrap : Meets (txStep crc32) NoWrap threeCalls (Transmitter.start freshLink) := by
    decide +kernel
  have hends : Ends (txStep crc32) threeCalls (Transmitter.start freshLink) fun t =>
      t.link.stage = .idle ∧ t.history.retransmits = [1, 2, 0] ∧ t.history.succeeded = 1 := by
    decide +kernel
  rcases hends with ⟨t, hrun, hst, hretransmits, hsucceeded⟩
  rcases transmissions_accounted rfl hwrap hrun with ⟨haccounts, hreturns⟩
  exact ⟨t, hrun, hretransmits, hsucceeded, haccounts hst, hreturns⟩

end NextLevelRTOS
