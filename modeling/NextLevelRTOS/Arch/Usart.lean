import NextLevelRTOS.Lib.Bits
import NextLevelRTOS.Lib.Driver
import NextLevelRTOS.Memory.Entry

/-!
# Printing

`print` hands bytes to the USART one by one: it waits until the data register is
empty, writes the next byte to it, and in the end waits until the last byte has
left. The USART takes a byte from the data register into its shift register when
that is free, and a byte that is written while the data register is full takes
the place of the one that was in it.

Nothing is lost, whatever the timing. An interrupt handler may print as well, in
the middle of what a task prints. It does so from its start to its end, and
leaves the USART empty, so its bytes come in between, and no byte of either is
lost or sent twice.

## Main definitions

* `Usart`, `UsartEvent`, `Usart.move`: The transmitter, and what it does by itself.
* `print`, `prints`: The function, and calls of it in a row.
* `Interleaved`: Bytes of two origins in one sequence.
* `Shifts`: Times in which the USART sends.

## Theorems

* `print_triple`: What one call sends.
* `prints_exact`: What any number of calls send, wherever they are.
* `prints_end`: Any number of calls end when the USART sends often enough.
-/

namespace NextLevelRTOS

open Bits Polling

/-- `TC` -/
def TC : Nat := 6

/-- `TXE` -/
def TXE : Nat := 7

/-- The transmitter: the data register, the shift register and what has left, with
    what interrupt handlers have printed so far. `receiver` is the rest of the status
    register. -/
structure Usart where
  receiver : Word
  tdr : Option Byte
  shift : Option Byte
  line : List Byte
  printed : List Byte

namespace Usart

/-- All bytes that were given to the USART and not overwritten. -/
def sent (s : Usart) : List Byte := s.line ++ s.shift.toList ++ s.tdr.toList

/-- The status register: the data register is empty, the transmission is complete. -/
def sr (s : Usart) : Word :=
  (s.receiver &&& 0xFFFFFF3F#32) ||| (if s.tdr = none then 1#32 <<< TXE else 0#32) |||
    (if s.tdr = none ∧ s.shift = none then 1#32 <<< TC else 0#32)

/-- `WRITE_REGISTER(&uart_regs->dr, value)` -/
def writeDr (value : Byte) (s : Usart) : Usart := { s with tdr := some value }

end Usart

/-- What the USART does by itself, and what an interrupt handler prints. -/
inductive UsartEvent where
  | load
  | finish
  | receive (flags : Word)
  | interrupt (bytes : List Byte)
  deriving DecidableEq

/-- One such event. An interrupt handler goes on until its last byte has left. -/
def Usart.move : UsartEvent → Usart → Usart
  | .load, s =>
    match s.shift with
    | some _ => s
    | none => { s with shift := s.tdr, tdr := none }
  | .finish, s => { s with line := s.line ++ s.shift.toList, shift := none }
  | .receive flags, s => { s with receiver := flags }
  | .interrupt bytes, s =>
    { s with
      tdr := none
      shift := none
      line := s.sent ++ bytes
      printed := s.printed ++ bytes }

/-- `while (!(READ_REGISTER(&sr) & (1 << bit)))` -/
def waitFor (bit : Nat) : Driver UsartEvent Usart Word :=
  poll Usart.move (fun s => (s.sr, s)) fun sr => sr &&& (1#32 <<< bit) ≠ 0#32

/-- The loop of `print`. -/
def printBytes : List Byte → Driver UsartEvent Usart Unit :=
  each fun byte => do
    let _ ← waitFor TXE
    access Usart.move fun s => ((), s.writeDr byte)

/-- `print`, with the bytes from `src` on. -/
def print (src : List Byte) : Driver UsartEvent Usart Unit := do
  printBytes src
  let _ ← waitFor TC
  pure ()

/-- Calls of `print` in a row. -/
def prints (messages : List (List Byte)) : Driver UsartEvent Usart Unit := each print messages

/-! ### Two origins -/

/-- The sequence holds the bytes of the two others and no more, each in order. -/
def Interleaved (a b l : List Byte) : Prop :=
  ∃ t : List (Bool × Byte), t.map Prod.snd = l ∧ (t.filter fun x => x.1).map Prod.snd = a ∧
    (t.filter fun x => !x.1).map Prod.snd = b

section Interleaved

variable {a b l : List Byte}

theorem interleaved_nil : Interleaved [] [] [] := ⟨[], rfl, rfl, rfl⟩

theorem interleaved_left (h : Interleaved a b l) (c : List Byte) :
    Interleaved (a ++ c) b (l ++ c) := by
  rcases h with ⟨t, rfl, rfl, rfl⟩
  refine ⟨t ++ c.map fun byte => (true, byte), ?_, ?_, ?_⟩ <;>
    simp [List.filter_append, Function.comp_def, List.filter_map]

theorem interleaved_right (h : Interleaved a b l) (c : List Byte) :
    Interleaved a (b ++ c) (l ++ c) := by
  rcases h with ⟨t, rfl, rfl, rfl⟩
  refine ⟨t ++ c.map fun byte => (false, byte), ?_, ?_, ?_⟩ <;>
    simp [List.filter_append, Function.comp_def, List.filter_map]

end Interleaved

/-! ### What is sent -/

section Sent

variable {s : Usart} {old foreign own : List Byte}

theorem sr_txe : s.sr &&& (1#32 <<< TXE) ≠ 0#32 ↔ s.tdr = none := by
  have hbit : s.sr.getLsbD TXE = decide (s.tdr = none) := by
    simp only [Usart.sr, BitVec.getLsbD_or, BitVec.getLsbD_and]
    rw [show (0xFFFFFF3F#32).getLsbD TXE = false by rfl, Bool.and_false, Bool.false_or]
    by_cases htdr : s.tdr = none
    · rw [if_pos htdr, decide_eq_true htdr]
      rfl
    · rw [if_neg htdr, if_neg fun hc => htdr hc.1, decide_eq_false htdr]
      rfl
  rw [test_iff _ (by decide), hbit, decide_eq_true_eq]

theorem sr_tc : s.sr &&& (1#32 <<< TC) ≠ 0#32 ↔ s.tdr = none ∧ s.shift = none := by
  have hbit : s.sr.getLsbD TC = decide (s.tdr = none ∧ s.shift = none) := by
    simp only [Usart.sr, BitVec.getLsbD_or, BitVec.getLsbD_and]
    rw [show (0xFFFFFF3F#32).getLsbD TC = false by rfl, Bool.and_false, Bool.false_or]
    have hother : (if s.tdr = none then 1#32 <<< TXE else 0#32).getLsbD TC = false := by
      split <;> rfl
    rw [hother, Bool.false_or]
    by_cases hidle : s.tdr = none ∧ s.shift = none
    · rw [if_pos hidle, decide_eq_true hidle]
      rfl
    · rw [if_neg hidle, decide_eq_false hidle]
      rfl
  rw [test_iff _ (by decide), hbit, decide_eq_true_eq]

/-- Since then `own` and what interrupt handlers have printed was sent, in addition to
    what there was. -/
def Sending (old foreign own : List Byte) (s : Usart) : Prop :=
  ∃ w f, s.sent = old ++ w ∧ s.printed = foreign ++ f ∧ Interleaved own f w

/-- The USART loses nothing by itself. -/
theorem sending_stable (old foreign own : List Byte) :
    Stable Usart.move (Sending old foreign own) := by
  rintro e s ⟨w, f, hsent, hprinted, hinterleaved⟩
  cases e with
  | load =>
      cases hshift : s.shift with
      | some byte =>
          refine ⟨w, f, ?_, ?_, hinterleaved⟩
          · simpa only [Usart.move, hshift] using hsent
          · simpa only [Usart.move, hshift] using hprinted
      | none =>
          refine ⟨w, f, ?_, ?_, hinterleaved⟩
          · simpa only [Usart.move, hshift, Usart.sent, Option.toList_none, List.append_nil]
              using hsent
          · simpa only [Usart.move, hshift] using hprinted
  | finish =>
      refine ⟨w, f, ?_, hprinted, hinterleaved⟩
      simpa only [Usart.move, Usart.sent, Option.toList_none, List.append_nil] using hsent
  | receive flags => exact ⟨w, f, hsent, hprinted, hinterleaved⟩
  | interrupt bytes =>
      refine ⟨w ++ bytes, f ++ bytes, ?_, ?_, interleaved_right hinterleaved bytes⟩
      · simp only [Usart.move, Usart.sent, Option.toList_none, List.append_nil]
        rw [← List.append_assoc, ← hsent, Usart.sent]
      · simp only [Usart.move, hprinted, List.append_assoc]

/-- The data register stays empty until somebody writes to it. -/
theorem tdr_stable : Stable Usart.move fun s => s.tdr = none := by
  intro e s hs
  cases e with
  | load =>
      cases hshift : s.shift with
      | some byte => simpa only [Usart.move, hshift] using hs
      | none => simp only [Usart.move, hshift]
  | finish => exact hs
  | receive flags => exact hs
  | interrupt bytes => rfl

/-- A USART that has nothing to send gets nothing to send by itself. -/
theorem idle_stable : Stable Usart.move fun s => s.tdr = none ∧ s.shift = none := by
  rintro e s ⟨htdr, hshift⟩
  refine ⟨tdr_stable e s htdr, ?_⟩
  cases e with
  | load => simpa only [Usart.move, hshift] using htdr
  | finish => rfl
  | receive flags => exact hshift
  | interrupt bytes => rfl

/-- A byte that is written to the empty data register is sent. -/
theorem sending_writeDr (h : Sending old foreign own s) (htdr : s.tdr = none) (byte : Byte) :
    Sending old foreign (own ++ [byte]) (s.writeDr byte) := by
  rcases h with ⟨w, f, hsent, hprinted, hinterleaved⟩
  refine ⟨w ++ [byte], f, ?_, hprinted, interleaved_left hinterleaved [byte]⟩
  rw [← List.append_assoc, ← hsent]
  simp only [Usart.sent, Usart.writeDr, htdr, Option.toList_none, Option.toList_some,
    List.append_nil]

end Sent

section Print

variable {old foreign all : List Byte}

/-- Wherever a driver that prints `all` waits: some of it was sent. -/
def PartlySent (old foreign all : List Byte) (s : Usart) : Prop :=
  ∃ own, own <+: all ∧ Sending old foreign own s

theorem waitFor_triple {bit : Nat} {I P Q : Usart → Prop} (hstable : Stable Usart.move P)
    (hI : ∀ s, P s → I s) (h : ∀ s, P s → s.sr &&& (1#32 <<< bit) ≠ 0#32 → Q s) :
    Triple I P (waitFor bit) fun _ => Q :=
  triple_poll hstable hI (fun _ hs _ => hs) fun s hs hp => h s hs (of_decide_eq_true hp)

/-- The loop sends its bytes. -/
theorem printBytes_triple {own : List Byte} (src : List Byte) (hbegins : own ++ src <+: all) :
    Triple (PartlySent old foreign all) (Sending old foreign own) (printBytes src)
      fun _ => Sending old foreign (own ++ src) := by
  have hbody : ∀ before byte after, Triple (PartlySent old foreign all)
      (fun s => (own ++ before) ++ byte :: after <+: all ∧ Sending old foreign (own ++ before) s)
      (do
        let _ ← waitFor TXE
        access Usart.move fun s => ((), s.writeDr byte))
      fun _ s => (own ++ (before ++ [byte])) ++ after <+: all ∧
        Sending old foreign (own ++ (before ++ [byte])) s := by
    intro before byte after
    have hwait : ∀ s, (own ++ before) ++ byte :: after <+: all ∧
        Sending old foreign (own ++ before) s → PartlySent old foreign all s :=
      fun s hs => ⟨_, (List.prefix_append _ _).trans hs.1, hs.2⟩
    have hstable := stable_and (fun _ _ hs => hs) (sending_stable old foreign (own ++ before))
      (P := fun _ => (own ++ before) ++ byte :: after <+: all)
    refine triple_bind (waitFor_triple hstable hwait fun s hs hbit =>
      And.intro hs (sr_txe.mp hbit)) fun _ => ?_
    refine triple_access (stable_and hstable tdr_stable) (fun s hs => hwait s hs.1) fun s hs => ?_
    rw [← List.append_assoc]
    refine ⟨?_, sending_writeDr hs.1.2 hs.2 byte⟩
    rw [List.append_assoc, List.singleton_append]
    exact hs.1.1
  let Inv : List Byte → List Byte → Usart → Prop := fun before after s =>
    (own ++ before) ++ after <+: all ∧ Sending old foreign (own ++ before) s
  refine triple_mono (triple_each Inv hbody [] src) (fun s hs => ?_) fun _ s hs => ?_
  · simp only [Inv, List.append_nil]
    exact ⟨hbegins, hs⟩
  · exact hs.2

/-- One call of `print`: its bytes are sent, and have left when it returns. -/
theorem print_triple {own : List Byte} (src : List Byte) (hbegins : own ++ src <+: all) :
    Triple (PartlySent old foreign all) (Sending old foreign own) (print src)
      fun _ s => Sending old foreign (own ++ src) s ∧ s.tdr = none ∧ s.shift = none := by
  refine triple_bind (printBytes_triple src hbegins) fun _ => ?_
  refine triple_bind (waitFor_triple (sending_stable _ _ _) (fun s hs => ⟨_, hbegins, hs⟩)
    fun s hs hbit => And.intro hs (sr_tc.mp hbit)) fun _ => ?_
  exact triple_pure fun _ hs => hs

/-- Any number of calls. -/
theorem prints_triple (messages : List (List Byte)) :
    Triple (PartlySent old foreign messages.flatten) (Sending old foreign []) (prints messages)
      fun _ s => Sending old foreign messages.flatten s ∧
        (messages ≠ [] → s.tdr = none ∧ s.shift = none) := by
  let Inv : List (List Byte) → List (List Byte) → Usart → Prop := fun before after s =>
    before ++ after = messages ∧ Sending old foreign before.flatten s ∧
      (before ≠ [] → s.tdr = none ∧ s.shift = none)
  have hbody : ∀ before message after, Triple (PartlySent old foreign messages.flatten)
      (Inv before (message :: after)) (print message)
      fun _ => Inv (before ++ [message]) after := by
    intro before message after sched s hs
    rcases hs with ⟨hsplit, hsending, _⟩
    have hflat : before.flatten ++ message <+: messages.flatten := by
      rw [← hsplit, List.flatten_append, List.flatten_cons, ← List.append_assoc]
      exact List.prefix_append _ _
    have hrun := print_triple message hflat sched s hsending
    cases hprint : print message sched s with
    | done a rest s' =>
        rw [hprint] at hrun
        refine ⟨by rw [List.append_assoc, List.singleton_append, hsplit], ?_, fun _ => hrun.2⟩
        rw [List.flatten_append, List.flatten_singleton]
        exact hrun.1
    | waiting s' =>
        rw [hprint] at hrun
        exact hrun
  refine triple_mono (triple_each Inv hbody [] messages) (fun s hs => ?_) fun _ s hs => hs.2
  exact ⟨rfl, hs, fun hne => absurd rfl hne⟩

end Print

/-- Any number of messages are printed, with any timing and any interrupt handlers that
    print in between. Where the printing has got to: a beginning of the messages was
    sent, merged with what the handlers have printed. Where it is through: the whole of
    them was sent, and the last byte has left. -/
theorem prints_exact (messages : List (List Byte)) (sched : List (List UsartEvent)) (s : Usart) :
    match prints messages sched s with
    | .done _ _ s' => Sending s.sent s.printed messages.flatten s' ∧
        (messages ≠ [] → s'.line = s'.sent)
    | .waiting s' => ∃ own, own <+: messages.flatten ∧ Sending s.sent s.printed own s' := by
  have hstart : Sending s.sent s.printed [] s :=
    ⟨[], [], (List.append_nil _).symm, (List.append_nil _).symm, interleaved_nil⟩
  have hrun := prints_triple messages sched s hstart
  cases hprints : prints messages sched s with
  | done a rest s' =>
      rw [hprints] at hrun
      refine ⟨hrun.1, fun hne => ?_⟩
      rcases hrun.2 hne with ⟨htdr, hshift⟩
      rw [Usart.sent, htdr, hshift, Option.toList_none, List.append_nil, List.append_nil]
  | waiting s' =>
      rw [hprints] at hrun
      exact hrun

/-! ### The end of it -/

/-- The shift register has been sent, and after that it has taken a byte. -/
def Shifts (es : List UsartEvent) : Prop := [.finish, .load].Sublist es

instance : DecidablePred Shifts := fun _ => inferInstanceAs (Decidable (List.Sublist _ _))

section End

variable {es : List UsartEvent} {s : Usart}

/-- One of the registers is empty, and one of them stays so. -/
theorem room_stable : Stable Usart.move fun s => s.tdr = none ∨ s.shift = none := by
  rintro e s (htdr | hshift)
  · exact Or.inl (tdr_stable e s htdr)
  · cases e with
    | load => exact Or.inl (by simp only [Usart.move, hshift])
    | finish => exact Or.inr rfl
    | receive flags => exact Or.inr hshift
    | interrupt bytes => exact Or.inl rfl

/-- While the USART sends, the data register is emptied. -/
theorem shifts_tdr (h : Shifts es) (s : Usart) : (settle Usart.move es s).tdr = none := by
  rcases List.cons_sublist_iff.mp h with ⟨before, after, rfl, hfinish, hload⟩
  rw [settle_append]
  refine settle_of_mem room_stable tdr_stable (fun s hs => ?_)
    (List.singleton_sublist.mp hload)
    (settle_of_mem (P := fun _ => True) (fun _ _ _ => trivial) room_stable
      (fun _ _ => Or.inr rfl) hfinish trivial)
  rcases hs with htdr | hshift
  · exact tdr_stable .load s htdr
  · simp only [Usart.move, hshift]

/-- With an empty data register, the shift register is emptied as well. -/
theorem shifts_idle (h : Shifts es) (htdr : s.tdr = none) :
    (settle Usart.move es s).tdr = none ∧ (settle Usart.move es s).shift = none :=
  settle_of_mem tdr_stable idle_stable (fun s hs => ⟨tdr_stable .finish s hs, rfl⟩)
    (h.subset List.mem_cons_self) htdr

theorem waitTxe_completes :
    Completes Shifts 1 (fun _ => True) (waitFor TXE) fun _ _ => True := by
  refine completes_mono (completes_poll (P := fun _ => True) (Q := fun _ _ => True) (fun _ => 0)
    (fun _ _ _ => trivial) (fun _ _ _ hs => hs) (fun _ _ _ => ⟨trivial, Nat.le_refl 0⟩)
    (fun es s _ hshifts hp => ?_) fun _ _ _ => trivial) (Nat.le_refl 1)
    (fun _ _ => ⟨trivial, Nat.le_refl 0⟩) fun _ _ _ => trivial
  exact absurd (sr_txe.mpr (shifts_tdr hshifts s)) (of_decide_eq_false hp)

/-- How far the USART is from having sent everything. -/
def Usart.behind (s : Usart) : Nat :=
  if s.tdr = none ∧ s.shift = none then 0 else if s.tdr = none then 1 else 2

theorem behind_le_two (s : Usart) : s.behind ≤ 2 := by
  unfold Usart.behind
  split
  · exact Nat.zero_le 2
  · split <;> decide

/-- Nothing that happens by itself puts the USART back. -/
theorem behind_stable (k : Nat) : Stable Usart.move fun s => s.behind ≤ k := by
  intro e s hle
  refine Nat.le_trans ?_ hle
  unfold Usart.behind
  by_cases hidle : s.tdr = none ∧ s.shift = none
  · rw [if_pos (idle_stable e s hidle)]
    exact Nat.zero_le _
  · rw [if_neg hidle]
    by_cases htdr : s.tdr = none
    · rw [if_pos (tdr_stable e s htdr), if_pos htdr]
      split <;> decide
    · rw [if_neg htdr]
      exact behind_le_two (Usart.move e s)

theorem waitTc_completes :
    Completes Shifts 3 (fun _ => True) (waitFor TC) fun _ _ => True := by
  refine completes_mono (completes_poll (P := fun _ => True) (Q := fun _ _ => True) Usart.behind
    (fun _ _ _ => trivial) behind_stable (fun _ _ _ => ⟨trivial, Nat.le_refl _⟩)
    (fun es s _ hshifts hp => ?_) fun _ _ _ => trivial) (Nat.le_refl 3)
    (fun s _ => ⟨trivial, behind_le_two s⟩) fun _ _ _ => trivial
  -- If the transmission is not complete yet, the data register was full before.
  have hbusy := (not_congr sr_tc).mp (of_decide_eq_false hp)
  have htdr := shifts_tdr hshifts s
  have hfull : s.tdr ≠ none := fun hc => hbusy (shifts_idle hshifts hc)
  simp only [Usart.behind, if_neg hbusy, if_pos htdr, if_neg hfull,
    if_neg fun hc : s.tdr = none ∧ s.shift = none => hfull hc.1]
  decide

end End

/-- Printing comes to an end if the USART shifts often enough: two times for each byte
    and three for each message. How long it takes in between makes no difference. -/
theorem prints_end (messages : List (List Byte)) (sched : List (List UsartEvent)) (s : Usart)
    (hshifts : (messages.map fun message => 2 * message.length + 3).sum ≤
      sched.countP (Shifts ·)) :
    ∃ rest s', prints messages sched s = .done () rest s' := by
  have hbyte : ∀ byte, Completes Shifts 2 (fun _ => True)
      (do
        let _ ← waitFor TXE
        access Usart.move fun s => ((), Usart.writeDr byte s)) fun _ _ => True := fun byte =>
    completes_bind waitTxe_completes fun _ =>
      completes_access (fun _ _ _ => trivial) fun _ _ => trivial
  have hprint : ∀ message : List Byte, Completes Shifts (2 * message.length + 3)
      (fun _ => True) (print message) fun _ _ => True := by
    intro message
    have hbytes := completes_each (fun _ => 2) hbyte message
    rw [List.map_const', List.sum_replicate_nat, Nat.mul_comm] at hbytes
    exact completes_bind hbytes fun _ =>
      completes_bind waitTc_completes fun _ => completes_pure fun _ _ => trivial
  rcases completes_each _ hprint messages sched s trivial hshifts with ⟨_, rest, s', hdone, _⟩
  exact ⟨rest, s', hdone⟩

/-- Two letters, with a USART that is slower than the accesses: it sends a byte in every
    third of the times between them. -/
theorem prints_end_letters : ∃ rest s',
    prints [[0x41#8, 0x42#8]] (List.replicate 7 [[], [], [.finish, .load]]).flatten
      { receiver := 0#32, tdr := none, shift := none, line := [], printed := [] } =
      .done () rest s' :=
  prints_end _ _ _ (by decide)

end NextLevelRTOS
