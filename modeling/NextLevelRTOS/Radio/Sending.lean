import NextLevelRTOS.Radio.Queue

/-!
# Waiting for the Queue

`transmit_all_packages` enables the chip and waits until the transmit queue is empty.
Where it returns, everything that was in the queue has been sent, in its order. That
it returns rests on how the chip is configured, which it does not look at. A chip that
transmits, and does not wait for acknowledgements, sends one payload after the other,
and the wait comes to an end. A chip that is powered down or a receiver sends nothing,
and the wait goes on forever.

A transmission that has failed would stop the chip. Its flag is looked at before the
wait, and cleared.

## Main definitions

* `Sends`: Times in which the chip sends.
* `Draining`: Nothing but sending has happened to the queue.
* `Silent`: A chip that sends nothing.
* `MaySend`: A chip that may send.

## Theorems

* `transmitAll_triple`: Where `transmit_all_packages` ends.
* `transmitAll_completes`: `transmit_all_packages` ends if the chip may send.
* `transmitAll_silent`: `transmit_all_packages` waits if the chip is silent.
* `transmitAll_sent`: When it returns, and what has been sent.
-/

namespace NextLevelRTOS

open Acknowledge Bits Polling

/-- A transmission begins, and after that it ends. -/
def Sends (es : List RadioEvent) : Prop := [.start, .finish].Sublist es

instance : DecidablePred Sends := fun _ => inferInstanceAs (Decidable (List.Sublist _ _))

/-- What has left the queue, and what will be sent from it. -/
def Draining (total : List Departure) (s : Radio) : Prop :=
  s.gone ++ s.tx.map .sent = total

/-- Something is to be sent, but the chip does not transmit. -/
def Silent (s : Radio) : Prop := s.tx ≠ [] ∧ transmits s.config = false

/-- The chip transmits, and no transmission can fail. -/
def Transmitting (s : Radio) : Prop :=
  transmits s.config = true ∧ s.registers RegisterName.EN_AA.number 0 = 0#8

/-- The chip transmits, and no transmission has failed. -/
def MaySend (s : Radio) : Prop := Transmitting s ∧ s.flags.getLsbD 4 = false

section Chip

variable {si : Silicon} {s : Radio} {total : List Departure} {n : Nat}

theorem config_quiet : ¬ Spontaneous RegisterName.CONFIG.number := by
  unfold Spontaneous
  decide

theorem enAa_quiet : ¬ Spontaneous RegisterName.EN_AA.number := by
  unfold Spontaneous
  decide

theorem move_config (e : RadioEvent) (s : Radio) : (s.move e).config = s.config :=
  congrFun (move_register e s config_quiet) 0

theorem draining_steady : Steady (Draining total) := by
  refine ⟨fun e s hs => ?_, fun _ _ hs => hs⟩
  rcases move_queue e s with ⟨_, ⟨htx, hgone⟩ | ⟨_, _, _, payload, htx, hgone⟩⟩
  · rw [Draining, htx, hgone]
    exact hs
  · rw [Draining, hgone, List.append_assoc, ← hs, htx]
    rfl

theorem txLength_steady : Steady fun s => s.tx.length ≤ n := by
  refine ⟨fun e s hs => ?_, fun _ _ hs => hs⟩
  rcases move_queue e s with ⟨_, ⟨htx, _⟩ | ⟨_, _, _, payload, htx, _⟩⟩
  · rw [htx]
    exact hs
  · rw [htx] at hs
    exact Nat.le_of_succ_le hs

/-- An empty queue stays empty until something is loaded. -/
theorem empty_steady : Steady fun s => s.tx = [] := by
  refine ⟨fun e s hs => ?_, fun _ _ hs => hs⟩
  rcases move_queue e s with ⟨_, ⟨htx, _⟩ | ⟨_, _, _, payload, htx, _⟩⟩
  · rw [htx, hs]
  · rw [hs] at htx
    exact absurd htx.symm (List.cons_ne_nil _ _)

theorem silent_steady : Steady Silent := by
  refine ⟨fun e s hs => ?_, fun _ _ hs => hs⟩
  rcases move_queue e s with ⟨_, ⟨htx, _⟩ | ⟨_, _, hconfig, _⟩⟩
  · rw [Silent, htx, move_config]
    exact hs
  · rw [hs.2] at hconfig
    exact Bool.noConfusion hconfig

theorem transmitting_steady : Steady Transmitting := by
  refine ⟨fun e s hs => ?_, fun _ _ hs => hs⟩
  rw [Transmitting, move_config, move_register e s enAa_quiet]
  exact hs

/-- The flag of a failed transmission is bit 4, and the others are others. -/
theorem raiseFlag_failed {bit : Nat} (hbit : bit < 8) (hne : bit ≠ 4) (s : Radio) :
    (s.raiseFlag bit).flags.getLsbD 4 = s.flags.getLsbD 4 := by
  have hflags : (s.raiseFlag bit).flags = s.flags ||| (1#8 <<< bit) := by
    rw [Radio.flags, Radio.raiseFlag]
    dsimp only
    rw [Function.update_self, Function.update_self]
  rw [hflags, getLsbD_setBit _ hbit, decide_eq_false hne, Bool.or_false]

/-- Without acknowledgements no transmission fails. -/
theorem maySend_steady : Steady MaySend := by
  refine ⟨fun e s hs => ⟨transmitting_steady.stable e s hs.1, ?_⟩, fun _ _ hs => hs⟩
  rcases hs with ⟨⟨_, hack⟩, hflag⟩
  cases e with
  | start =>
      rw [Radio.move]
      split <;> exact hflag
  | finish =>
      rw [Radio.move]
      split
      · split
        · exact hflag
        · exact (raiseFlag_failed (by decide) (by decide) s).trans hflag
      · exact hflag
  | fail =>
      rw [Radio.move, if_neg fun hc => hc.2 hack]
      exact hflag
  | receive pipe bytes =>
      rw [Radio.move]
      split
      · exact (raiseFlag_failed (by decide) (by decide) s).trans hflag
      · exact hflag
  | sense register value =>
      rw [Radio.move]
      split
      next hsense =>
        have hne : RegisterName.STATUS.number ≠ register.number := by
          rcases hsense with rfl | rfl <;> decide
        rw [Radio.flags]
        dsimp only
        rw [Function.update_of_ne hne]
        exact hflag
      · exact hflag
  | tick n => exact hflag

/-- Once a transmission has begun, the queue will be shorter. -/
theorem begun_stable : Stable Radio.move fun s =>
    (MaySend s ∧ s.tx.length ≤ n + 1) ∧ (s.sending = true ∨ s.tx.length ≤ n) := by
  rintro e s ⟨⟨hmay, hle⟩, hbegun⟩
  refine ⟨⟨maySend_steady.stable e s hmay, txLength_steady.stable e s hle⟩, ?_⟩
  rcases hbegun with hsending | hless
  · cases e with
    | start =>
        rw [Radio.move]
        split
        · exact Or.inl rfl
        · exact Or.inl hsending
    | finish =>
        rw [Radio.move, if_pos ⟨hsending, hmay.1.1⟩]
        split
        next htx =>
          dsimp only
          rw [htx]
          exact Or.inr (Nat.zero_le n)
        next payload rest htx =>
          rw [htx] at hle
          exact Or.inr (Nat.le_of_succ_le_succ hle)
    | fail =>
        rw [Radio.move, if_neg fun hc => hc.2 hmay.1.2]
        exact Or.inl hsending
    | receive pipe bytes =>
        rw [Radio.move]
        split <;> exact Or.inl hsending
    | sense register value =>
        rw [Radio.move]
        split <;> exact Or.inl hsending
    | tick n => exact Or.inl hsending
  · exact Or.inr (txLength_steady.stable e s hless)

/-- While the chip sends, the queue gets shorter. -/
theorem sends_shorter {es : List RadioEvent} (hsends : Sends es) (hmay : MaySend s)
    (hce : s.ce = true) (hlen : s.tx.length ≤ n + 1) :
    (settle Radio.move es s).tx.length ≤ n := by
  have hce_stable : Stable Radio.move fun s => s.ce = true :=
    fun e s hs => (move_ce e s).trans hs
  have hready := stable_and (stable_and maySend_steady.stable (txLength_steady (n := n + 1)).stable)
    hce_stable
  rcases List.cons_sublist_iff.mp hsends with ⟨before, after, rfl, hstart, hfinish⟩
  rw [settle_append]
  -- Behind the start a transmission is on its way, or there is nothing to send.
  have hbegun := settle_of_mem hready (begun_stable (n := n)) (fun s hs => ?_) hstart
    ⟨⟨hmay, hlen⟩, hce⟩
  · refine settle_of_mem begun_stable txLength_steady.stable (fun s hs => ?_)
      (List.singleton_sublist.mp hfinish) hbegun
    rcases hs with ⟨⟨hmay, hle⟩, hsending | hless⟩
    · rw [Radio.move, if_pos ⟨hsending, hmay.1.1⟩]
      split
      next htx =>
        dsimp only
        rw [htx]
        exact Nat.zero_le n
      next payload rest htx =>
        rw [htx] at hle
        exact Nat.le_of_succ_le_succ hle
    · exact txLength_steady.stable .finish s hless
  · rcases hs with ⟨⟨hmay, hle⟩, hce⟩
    rw [Radio.move]
    split
    · exact ⟨⟨hmay, hle⟩, Or.inl rfl⟩
    next hblocked =>
      refine ⟨⟨hmay, hle⟩, Or.inr ?_⟩
      have hready : s.mayStart = true := by
        rw [Radio.mayStart, hce, hmay.1.1, hmay.2]
        rfl
      rw [not_and_not_right.mp hblocked hready]
      exact Nat.zero_le n

/-- Writing to `STATUS` changes no other register. -/
theorem writeStatus_register {number : BitVec 5} (hne : number ≠ RegisterName.STATUS.number)
    (data : List Byte) :
    (s.write si RegisterName.STATUS.number data).registers number = s.registers number :=
  Function.update_of_ne hne _ _

end Chip

/-! ### Where it ends -/

section Waiting

variable {si : Silicon} {stack : CharBuffer} {s : Radio} {total : List Departure}
variable {P : Radio → Prop}

/-- Nothing is to be sent only if the queue is empty. -/
theorem checkTx_triple (h : Steady P)
    (hwrite : ∀ s data, P s → P (s.write si RegisterName.STATUS.number data)) :
    Triple P P (Radio.checkTxAvailability si stack)
      fun available s => P s ∧ (available = 0 → s.tx = []) := by
  refine triple_bind (Q := fun fifoStatus s => P s ∧
      (fifoStatus &&& (1#8 <<< 4) ≠ 0#8 → s.tx = []))
    (triple_get h (fun _ hs => hs) fun s hs b => ⟨h.buffer s b hs, fifoStatus_empty.mp⟩)
    fun fifoStatus => ?_
  split
  next hempty => exact triple_pure fun s hs => ⟨hs.1, fun _ => hs.2 hempty⟩
  · have hend : ∀ s, P s → P s ∧ ((1 : Nat) = 0 → s.tx = []) :=
      fun s hs => ⟨hs, fun hc => absurd hc Nat.one_ne_zero⟩
    refine triple_mono (P := P) (triple_bind (maintains_get h) fun nrfStatus => ?_)
      (fun s hs => hs.1) fun _ _ hs => hs
    dsimp only
    split
    · exact triple_bind (maintains_setBit h hwrite) fun _ => triple_pure hend
    · exact triple_pure hend

theorem waitUntilSent_triple (h : Steady P) :
    Triple P P (Radio.waitUntilSent si stack) fun _ s => P s ∧ s.tx = [] := by
  refine triple_poll h.stable (fun _ hs => hs) (fun s hs _ => ?_) fun s hs hp => ?_
  · rw [getRegister_eq]
    exact h.buffer s _ hs
  · rw [getRegister_eq] at hp ⊢
    exact ⟨h.buffer s _ hs, fifoStatus_empty.mp (of_decide_eq_true hp)⟩

/-- Where `transmit_all_packages` returns, everything that was in the queue has been sent. -/
theorem transmitAll_triple (si : Silicon) (stack : CharBuffer) :
    Triple (Draining total) (Draining total) (Radio.transmitAllPackages si stack)
      fun _ s => Draining total s ∧ s.tx = [] := by
  refine triple_bind (checkTx_triple draining_steady fun _ _ hs => hs) fun available => ?_
  split
  next hnone => exact triple_pure fun s hs => ⟨hs.1, hs.2 hnone⟩
  · refine triple_bind (Q := fun _ => Draining total) (triple_mono (P := Draining total)
      (triple_access draining_steady.stable (fun _ hs => hs) fun _ hs => hs) (fun s hs => hs.1)
      fun _ _ hs => hs) fun _ => ?_
    refine triple_bind (waitUntilSent_triple draining_steady) fun _ => ?_
    exact triple_bind (triple_access (stable_and draining_steady.stable empty_steady.stable)
      (fun s hs => hs.1) fun _ hs => hs) fun _ => triple_pure fun _ hs => hs

/-- A silent chip keeps it waiting. -/
theorem transmitAll_silent (si : Silicon) (stack : CharBuffer) :
    Triple Silent Silent (Radio.transmitAllPackages si stack) fun _ _ => False := by
  have hwrite : ∀ s data, Silent s → Silent (s.write si RegisterName.STATUS.number data) := by
    intro s data hs
    refine ⟨hs.1, ?_⟩
    rw [Radio.config, writeStatus_register (by decide)]
    exact hs.2
  refine triple_bind (checkTx_triple silent_steady hwrite) fun available => ?_
  split
  next hnone => exact triple_pure fun s hs => hs.1.1 (hs.2 hnone)
  · refine triple_bind (Q := fun _ => Silent) (triple_mono (P := Silent)
      (triple_access silent_steady.stable (fun _ hs => hs) fun _ hs => hs) (fun s hs => hs.1)
      fun _ _ hs => hs) fun _ => ?_
    refine triple_bind (Q := fun _ _ => False) (triple_mono (waitUntilSent_triple silent_steady)
      (fun _ hs => hs) fun _ s hs => hs.1.1 hs.2) fun _ sched s hs => hs.elim

end Waiting

/-! ### That it ends -/

section Completes

variable {si : Silicon} {stack : CharBuffer} {s : Radio} {P : Radio → Prop}
variable {register : RegisterName} {goesOn : List RadioEvent → Prop} [DecidablePred goesOn]
variable {n : Nat}

theorem completes_get {Q : Byte → Radio → Prop} (h : Steady P)
    (hQ : ∀ s, P s → ∀ b, Q (s.read register.number 0) { s with rxBuffer := b }) :
    Completes goesOn 1 P (Radio.getNrfRegister si stack register) Q := by
  refine completes_access h.stable fun s hs => ?_
  rw [getRegister_eq]
  exact hQ s hs _

/-- A one clears a flag. -/
theorem writeStatus_flags (si : Silicon) (s : Radio) (value : Byte) :
    (s.write si RegisterName.STATUS.number [value]).flags =
      writeOnes s.flags (value &&& 0x70#8) := by
  rw [Radio.flags, Radio.write]
  dsimp only
  rw [Function.update_self]
  rfl

/-- What may be sent, and how much of it there is at most. -/
theorem ready_steady : Steady fun s => Transmitting s ∧ s.tx.length ≤ n :=
  transmitting_steady.and txLength_steady

/-- The flag of a failed transmission is cleared. -/
theorem clearIrMaxrtFlag_completes : Completes goesOn 2
    (fun s => Transmitting s ∧ s.tx.length ≤ n) (Radio.clearIrMaxrtFlag si stack)
    fun _ s => MaySend s ∧ s.tx.length ≤ n := by
  refine completes_bind (n := 1) (k := 1) (Q := fun _ s => Transmitting s ∧ s.tx.length ≤ n)
    (completes_get ready_steady fun s hs b => hs) fun status => ?_
  refine completes_access ready_steady.stable fun s hs => ?_
  rw [putRegister_eq _ (by decide)]
  refine ⟨⟨⟨?_, ?_⟩, ?_⟩, hs.2⟩
  · rw [Radio.config, writeStatus_register (by decide)]
    exact hs.1.1
  · rw [writeStatus_register (by decide)]
    exact hs.1.2
  · have hbit : ((status ||| (1#8 <<< 4)) &&& 0x70#8).getLsbD 4 = true := by
      rw [BitVec.getLsbD_and, getLsbD_setBit _ (by decide), decide_eq_true rfl, Bool.or_true]
      rfl
    have hflags := writeStatus_flags si s (status ||| (1#8 <<< 4))
    rw [show (List.range 1).map (fun _ => status ||| (1#8 <<< 4)) =
      [status ||| (1#8 <<< 4)] by rfl, hflags, getLsbD_writeOnes, hbit]
    exact Bool.and_false _

/-- Where there is something to send, it may be sent. -/
theorem checkTx_completes : Completes goesOn 4 (fun s => Transmitting s ∧ s.tx.length ≤ n)
    (Radio.checkTxAvailability si stack)
    fun available s => available ≠ 0 → MaySend s ∧ s.tx.length ≤ n := by
  refine completes_bind (n := 1) (k := 3) (Q := fun _ s => Transmitting s ∧ s.tx.length ≤ n)
    (completes_get ready_steady fun s hs b => hs) fun fifoStatus => ?_
  split
  · exact completes_mono (completes_pure fun s _ hc => absurd rfl hc) (Nat.zero_le 3)
      (fun _ hs => hs) fun _ _ hs => hs
  · refine completes_bind (n := 1) (k := 2) (Q := fun status s =>
        (Transmitting s ∧ s.tx.length ≤ n) ∧ (¬ status &&& (1#8 <<< 4) ≠ 0#8 → MaySend s))
      (completes_get ready_steady fun s hs b => ⟨hs, fun hflag => ⟨hs.1, ?_⟩⟩) fun status => ?_
    · exact Bool.eq_false_iff.mpr fun hc => hflag (status_failed.mpr hc)
    dsimp only
    split
    · refine completes_mono (completes_bind (clearIrMaxrtFlag_completes (n := n)) fun _ =>
        completes_pure fun s hs _ => hs) (Nat.le_refl 2) (fun s hs => hs.1) fun _ _ hs => hs
    next hflag =>
      exact completes_mono (completes_pure fun s hs _ => ⟨hs.2 hflag, hs.1.2⟩) (Nat.zero_le 2)
        (fun _ hs => hs) fun _ _ hs => hs

/-- A chip that may send comes to the end of its queue. -/
theorem transmitAll_completes : Completes Sends (n + 7)
    (fun s => Transmitting s ∧ s.tx.length ≤ n) (Radio.transmitAllPackages si stack)
    fun _ _ => True := by
  have hce : Stable Radio.move fun s => s.ce = true := fun e s hs => (move_ce e s).trans hs
  have hmay : Stable Radio.move fun s => MaySend s ∧ s.tx.length ≤ n :=
    stable_and maySend_steady.stable txLength_steady.stable
  have hwait : Completes Sends (n + 1) (fun s => (MaySend s ∧ s.ce = true) ∧ s.tx.length ≤ n)
      (Radio.waitUntilSent si stack) fun _ _ => True := by
    refine completes_poll (P := fun s => MaySend s ∧ s.ce = true) (Q := fun _ _ => True)
      (fun s => s.tx.length) (stable_and maySend_steady.stable hce)
      (fun _ => txLength_steady.stable) (fun s hs _ => ?_) (fun es s hs hsends hp => ?_)
      fun _ _ _ => trivial
    · rw [getRegister_eq]
      exact ⟨hs, Nat.le_refl _⟩
    · rw [getRegister_eq] at hp
      -- What is left after these times was there before, and one payload more.
      have hleft : (settle Radio.move es s).tx ≠ [] :=
        fun hc => of_decide_eq_false hp (fifoStatus_empty.mpr hc)
      cases hlen : s.tx.length with
      | zero =>
          have hempty := List.eq_nil_of_length_eq_zero hlen
          exact absurd (stable_settle Radio.move empty_steady.stable es hempty) hleft
      | succ m => exact Nat.lt_succ_of_le (sends_shorter hsends hs.1 hs.2 (Nat.le_of_eq hlen))
  refine completes_mono (completes_bind (n := 4) (k := n + 3) checkTx_completes fun available => ?_)
    (by omega) (fun _ hs => hs) fun _ _ hs => hs
  split
  · exact completes_mono (completes_pure fun _ _ => trivial) (Nat.zero_le _) (fun _ hs => hs)
      fun _ _ hs => hs
  next hsome =>
    refine completes_mono (n := 1 + ((n + 1) + 1))
      (completes_bind (Q := fun _ s => (MaySend s ∧ s.ce = true) ∧ s.tx.length ≤ n)
        (completes_access hmay fun s hs => ⟨⟨hs.1, rfl⟩, hs.2⟩) fun _ =>
      completes_bind hwait fun _ => completes_bind (k := 0) (Q := fun _ _ => True)
        (completes_access (fun _ _ hs => hs) fun _ _ => trivial) fun _ =>
        completes_pure (Q := fun _ _ => True) fun _ _ => trivial) (by omega)
      (fun s hs => hs hsome) fun _ _ _ => trivial

/-- With an empty queue there is nothing to wait for, whatever the chip does. -/
theorem transmitAll_idle : Completes (fun _ => True) 1 (fun s => s.tx = [])
    (Radio.transmitAllPackages si stack) fun _ _ => True := by
  refine completes_bind (n := 1) (k := 0) (Q := fun available _ => available = 0 ∧ True)
    (completes_bind (n := 1) (k := 0)
      (Q := fun fifoStatus _ => fifoStatus &&& (1#8 <<< 4) ≠ 0#8 ∧ True)
      (completes_get empty_steady fun s hs b => ⟨fifoStatus_empty.mpr hs, trivial⟩)
      fun fifoStatus => completes_assume fun hempty => ?_)
    fun available => completes_assume fun hnone => ?_
  · rw [if_pos hempty]
    exact completes_pure fun _ _ => ⟨rfl, trivial⟩
  · rw [if_pos hnone]
    exact completes_pure fun _ _ => trivial

end Completes

/-- Where `transmit_all_packages` returns, all that was in the queue has been sent, in its
    order, and the queue is empty. If nothing was in it, it returns at once; if the chip
    transmits and no transmission can fail, it returns when the chip has sent often
    enough, however long that takes; if the chip does not transmit and something was in
    it, it waits forever. -/
theorem transmitAll_sent (si : Silicon) (stack : CharBuffer) (s : Radio) :
    (∀ sched available rest s', Radio.transmitAllPackages si stack sched s =
        .done available rest s' → s'.tx = [] ∧ s'.gone = s.gone ++ s.tx.map .sent) ∧
    (s.tx = [] → ∀ sched, sched ≠ [] → ∃ available rest s',
      Radio.transmitAllPackages si stack sched s = .done available rest s' ∧
        sched.length ≤ rest.length + 1) ∧
    (Transmitting s → ∀ sched, s.tx.length + 7 ≤ sched.countP (Sends ·) →
      ∃ available rest s', Radio.transmitAllPackages si stack sched s =
        .done available rest s') ∧
    (s.tx ≠ [] → transmits s.config = false → ∀ sched,
      ∃ s', Radio.transmitAllPackages si stack sched s = .waiting s' ∧ s'.tx ≠ []) := by
  refine ⟨fun sched available rest s' hrun => ?_, fun hempty sched hne => ?_,
    fun htransmitting sched hsends => ?_, fun hne hconfig sched => ?_⟩
  · have hdrained := transmitAll_triple si stack sched s
      (rfl : Draining (s.gone ++ s.tx.map .sent) s)
    rw [hrun] at hdrained
    rcases hdrained with ⟨hgone, hempty⟩
    rw [Draining, hempty, List.map_nil, List.append_nil] at hgone
    exact ⟨hempty, hgone⟩
  · rcases transmitAll_idle sched s hempty (countP_all sched ▸ List.length_pos_of_ne_nil hne) with
      ⟨available, rest, s', hrun, _, hleft⟩
    rw [countP_all, countP_all] at hleft
    exact ⟨available, rest, s', hrun, hleft⟩
  · rcases transmitAll_completes sched s ⟨htransmitting, Nat.le_refl _⟩ hsends with
      ⟨available, rest, s', hrun, _⟩
    exact ⟨available, rest, s', hrun⟩
  · have hsilent := transmitAll_silent si stack sched s ⟨hne, hconfig⟩
    cases hrun : Radio.transmitAllPackages si stack sched s with
    | done available rest s' =>
        rw [hrun] at hsilent
        exact hsilent.elim
    | waiting s' =>
        rw [hrun] at hsilent
        exact ⟨s', rfl, hsilent.1⟩

/-- An acknowledgement is in the queue of the resting chip. -/
def ackLoaded : Radio := { restingRadio with tx := [[0xAC#8]] }

theorem transmitAll_sent_ack :
    (∃ available rest s', Radio.transmitAllPackages plainSilicon zeros [[]] restingRadio =
      .done available rest s' ∧ 1 ≤ rest.length + 1) ∧
    (∃ available rest s', Radio.transmitAllPackages plainSilicon zeros
      (List.replicate 8 [[], [.start, .finish]]).flatten ackLoaded =
        .done available rest s') ∧
    ∃ s', Radio.transmitAllPackages plainSilicon zeros (List.replicate 8 [.start, .finish])
      { ackLoaded with registers := fun _ _ => 0#8 } = .waiting s' ∧ s'.tx ≠ [] :=
  ⟨(transmitAll_sent plainSilicon zeros restingRadio).2.1 rfl _ (List.cons_ne_nil _ _),
    (transmitAll_sent plainSilicon zeros ackLoaded).2.2.1 ⟨by decide, by decide⟩ _ (by decide),
    (transmitAll_sent plainSilicon zeros { ackLoaded with registers := fun _ _ => 0#8 }).2.2.2
      (List.cons_ne_nil _ _) (by decide) _⟩

end NextLevelRTOS
