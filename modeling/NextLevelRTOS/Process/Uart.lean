import NextLevelRTOS.Lib.Stretches
import NextLevelRTOS.Process.Io

/-!
# The UART Interrupt

`init_isr` and `uart_isr_handler` by themselves. A byte that arrives is put into
`uart_rx_buffer`; the fourth completes a command. An overrun throws away what has
been received of a command, and the first of several in a row is reported to the
host.

The state remembers two things of the bytes so far: those of the command that has
begun, and whether the last interrupt was an overrun. So the commands are the groups
of four bytes between overruns, and the words sent to the host are the runs of
overruns.

A `REBOOT` does not return. The system starts anew, with its memory cleared, and
`init_isr` is called again.

`byte_in_id` and `in_buffer`, which are written here and read nowhere, are left out.
`indices`, `raised` and `printed` are history: the indices with which the buffer has
been read and written, the commands, and the words sent to the host.

## Main definitions

* `UartSystem`: The globals.
* `initIsr`, `uartInterrupt`: The two functions.
* `FramesCommands`: What a run does.
* `Collects`: The bytes of the command that has begun.

## Theorems

* `collects_overrun`, `collects_byte`: What one interrupt does.
* `uart_commands`: What a run does.
* `uartIsrHandler_agrees`: The machine with the kernel takes the same steps.
-/

namespace NextLevelRTOS

open Buffer Stretches

/-- A command: what is stored in `*internal_rx_state`, and the bytes in the buffer. -/
structure RaisedCommand where
  state : Word
  bytes : List Byte
  deriving DecidableEq, Repr

/-- What the UART holds when it interrupts: `ORE`, `RXNE` and the data register. -/
structure UartRegisters where
  ore : Bool
  rxne : Bool
  dr : Byte
  deriving DecidableEq, Repr

/-- The globals of `uart_isr.c`. -/
structure UartSystem where
  rxState : Word
  uartRxBuffer : CharBuffer
  /-- An `unsigned char`. -/
  bytesReceived : Nat
  hostIsNotified : Bool
  indices : List Nat
  raised : List RaisedCommand
  printed : List Word

/-- `init_isr` -/
def initIsr (u : UartSystem) : UartSystem :=
  { u with
    rxState := RX_READY
    bytesReceived := 0
    uartRxBuffer := loop (fun i b => Function.update b i 0#8) BUFFERSIZE u.uartRxBuffer
    indices := u.indices ++ List.range BUFFERSIZE }

/-- `reboot`, and the start that follows: the memory is cleared. -/
def restartUart (u : UartSystem) : UartSystem :=
  initIsr
    { u with
      rxState := 0#32
      uartRxBuffer := fun _ => 0#8
      bytesReceived := 0
      hostIsNotified := false }

/-- `uart_isr_handler` -/
def uartInterrupt (e : UartRegisters) (u : UartSystem) : UartSystem :=
  if e.ore then
    let u := if u.hostIsNotified then u
      else { u with printed := u.printed ++ [0xFFFFFFFF#32], hostIsNotified := true }
    let u := if e.rxne then
        { u with
          uartRxBuffer := Function.update u.uartRxBuffer u.bytesReceived e.dr
          indices := u.indices ++ [u.bytesReceived] }
      else u
    { u with bytesReceived := 0 }
  else
    let u := { u with
      hostIsNotified := false
      uartRxBuffer := Function.update u.uartRxBuffer u.bytesReceived e.dr
      indices := u.indices ++ [u.bytesReceived]
      bytesReceived := (u.bytesReceived + 1) % 256 }
    if u.bytesReceived ≠ BUFFERSIZE then u
    else
      let u := { u with
        rxState := wordOf u.uartRxBuffer &&& 0xFF#32
        indices := u.indices ++ List.range BUFFERSIZE }
      let u := { u with
        raised := u.raised ++
          [{ state := u.rxState, bytes := (List.range BUFFERSIZE).map u.uartRxBuffer }] }
      if u.rxState = REBOOT then restartUart u else { u with bytesReceived := 0 }

/-- Interrupts, one after the other. -/
def uartRun (es : List UartRegisters) (u : UartSystem) : UartSystem :=
  es.foldl (fun u e => uartInterrupt e u) u

/-- `init_isr` has been called, with anything at all in the buffer. -/
def startUart (uartRxBuffer : CharBuffer) (rxState : Word) (bytesReceived : Nat) : UartSystem :=
  initIsr
    { rxState := rxState
      uartRxBuffer := uartRxBuffer
      bytesReceived := bytesReceived
      hostIsNotified := false
      indices := []
      raised := []
      printed := [] }

/-- After these interrupts the buffer has been read and written inside its bounds,
    the commands raised are the groups of four bytes between overruns, each with its
    first byte as the state, and the host has got a word for each run of overruns. -/
structure FramesCommands (es : List UartRegisters) (u : UartSystem) : Prop where
  bounds : ∀ i ∈ u.indices, i < BUFFERSIZE
  commands : u.raised.map (·.bytes) = stretchGroups BUFFERSIZE (·.ore) (·.dr) es
  states : ∀ c ∈ u.raised, ∃ b ∈ c.bytes.head?, c.state = b.setWidth 32
  errors : u.printed = List.replicate (markRuns (·.ore) es).length 0xFFFFFFFF#32

/-! ### One interrupt -/

/-- The command that has begun, and that everything so far was in order. -/
structure Collects (u : UartSystem) (begun : List Byte) : Prop where
  received : u.bytesReceived = begun.length
  room : begun.length < BUFFERSIZE
  bytes : ∀ i < begun.length, begun[i]? = some (u.uartRxBuffer i)
  bounds : ∀ i ∈ u.indices, i < BUFFERSIZE
  states : ∀ c ∈ u.raised, ∃ b ∈ c.bytes.head?, c.state = b.setWidth 32

section Interrupt

variable {u : UartSystem} {e : UartRegisters} {begun : List Byte}

/-- The low byte of a word is the first one in memory. -/
theorem wordOf_low (b : CharBuffer) : wordOf b &&& 0xFF#32 = (b 0).setWidth 32 := by
  have hlow : (wordOf b).setWidth 8 = b 0 := by
    rw [← byteOf_wordOf b (by decide : 0 < 4), byteOf, Nat.mul_zero, BitVec.ushiftRight_zero]
  have hmask : (0xFF#32).toNat = 2 ^ 8 - 1 := rfl
  rw [← hlow, ← BitVec.toNat_inj, BitVec.toNat_and, hmask, Nat.and_two_pow_sub_one_eq_mod,
    BitVec.toNat_setWidth, BitVec.toNat_setWidth]
  exact (Nat.mod_eq_of_lt (Nat.lt_trans (Nat.mod_lt _ (by decide)) (by decide))).symm

theorem collects_nil (hreceived : u.bytesReceived = 0) (hbounds : ∀ i ∈ u.indices, i < BUFFERSIZE)
    (hstates : ∀ c ∈ u.raised, ∃ b ∈ c.bytes.head?, c.state = b.setWidth 32) : Collects u [] :=
  ⟨hreceived, by decide, fun i hi => absurd hi (Nat.not_lt_zero i), hbounds, hstates⟩

/-- `init_isr` begins a command. -/
theorem collects_initIsr (hbounds : ∀ i ∈ u.indices, i < BUFFERSIZE)
    (hstates : ∀ c ∈ u.raised, ∃ b ∈ c.bytes.head?, c.state = b.setWidth 32) :
    Collects (initIsr u) [] := by
  refine collects_nil rfl (fun i hi => ?_) hstates
  rcases List.mem_append.mp hi with hi | hi
  · exact hbounds i hi
  · exact List.mem_range.mp hi

/-- The cell that is written next is one of the buffer. -/
theorem collects_indices (h : Collects u begun) :
    ∀ i ∈ u.indices ++ [u.bytesReceived], i < BUFFERSIZE := by
  intro i hi
  rcases List.mem_append.mp hi with hi | hi
  · exact h.bounds i hi
  · rw [List.mem_singleton.mp hi, h.received]
    exact h.room

/-- An overrun begins a new command, and is reported unless the last interrupt was
    one. -/
theorem collects_overrun (h : Collects u begun) (hore : e.ore = true) :
    Collects (uartInterrupt e u) [] ∧ (uartInterrupt e u).hostIsNotified = true ∧
      (uartInterrupt e u).raised = u.raised ∧
      (uartInterrupt e u).printed =
        u.printed ++ List.replicate (if u.hostIsNotified then 0 else 1) 0xFFFFFFFF#32 := by
  have hindices := collects_indices h
  unfold uartInterrupt
  rw [if_pos hore]
  cases hnotified : u.hostIsNotified with
  | true =>
      have hprinted := (List.append_nil u.printed).symm
      cases hrxne : e.rxne with
      | true => exact ⟨collects_nil rfl hindices h.states, hnotified, rfl, hprinted⟩
      | false => exact ⟨collects_nil rfl h.bounds h.states, hnotified, rfl, hprinted⟩
  | false =>
      cases hrxne : e.rxne with
      | true => exact ⟨collects_nil rfl hindices h.states, rfl, rfl, rfl⟩
      | false => exact ⟨collects_nil rfl h.bounds h.states, rfl, rfl, rfl⟩

/-- The byte that arrives is stored behind the others. -/
theorem stored_bytes (h : Collects u begun) :
    ∀ i < (begun ++ [e.dr]).length,
      (begun ++ [e.dr])[i]? = some (Function.update u.uartRxBuffer u.bytesReceived e.dr i) := by
  intro i hi
  rw [List.length_append, List.length_singleton] at hi
  rw [h.received]
  by_cases heq : i = begun.length
  · rw [heq, List.getElem?_concat_length, Function.update_self]
  · rw [List.getElem?_append_left (by omega), Function.update_of_ne heq]
    exact h.bytes i (by omega)

/-- A byte goes on with a command that it does not complete. -/
theorem collects_byte (h : Collects u begun) (hore : e.ore = false)
    (hmore : begun.length + 1 ≠ BUFFERSIZE) :
    Collects (uartInterrupt e u) (begun ++ [e.dr]) ∧ (uartInterrupt e u).hostIsNotified = false ∧
      (uartInterrupt e u).raised = u.raised ∧ (uartInterrupt e u).printed = u.printed := by
  have hroom := h.room
  have hreceived : (u.bytesReceived + 1) % 256 = begun.length + 1 := by
    rw [h.received]
    exact Nat.mod_eq_of_lt (Nat.lt_trans (Nat.succ_lt_succ hroom) (by decide))
  have hcount : (u.bytesReceived + 1) % 256 ≠ BUFFERSIZE := by rwa [hreceived]
  unfold uartInterrupt
  rw [if_neg (by rw [hore]; exact Bool.false_ne_true)]
  dsimp only
  rw [if_pos hcount]
  refine ⟨⟨?_, ?_, stored_bytes h, collects_indices h, h.states⟩, rfl, rfl, rfl⟩
  · rw [hreceived, List.length_append, List.length_singleton]
  · rw [List.length_append, List.length_singleton]
    omega

theorem map_range_bytes {b : CharBuffer} {l : List Byte} {n : Nat} (hlength : l.length = n)
    (hbytes : ∀ i < l.length, l[i]? = some (b i)) : (List.range n).map b = l := by
  refine List.ext_getElem? fun i => ?_
  rw [List.getElem?_map]
  by_cases hi : i < l.length
  · rw [hbytes i hi, List.getElem?_range (by omega)]
    rfl
  · have hrange : (List.range n)[i]? = none :=
      List.getElem?_eq_none (by rw [List.length_range]; omega)
    rw [hrange, List.getElem?_eq_none (by omega)]
    rfl

/-- The byte that completes a command raises it, and the next one begins. -/
theorem collects_command (h : Collects u begun) (hore : e.ore = false)
    (hlast : begun.length + 1 = BUFFERSIZE) :
    Collects (uartInterrupt e u) [] ∧ (uartInterrupt e u).hostIsNotified = false ∧
      (uartInterrupt e u).raised.map (·.bytes) = u.raised.map (·.bytes) ++ [begun ++ [e.dr]] ∧
      (uartInterrupt e u).printed = u.printed := by
  have hcount : ¬ (u.bytesReceived + 1) % 256 ≠ BUFFERSIZE := by
    rw [h.received, hlast]
    exact fun hc => hc rfl
  have hstored : (List.range BUFFERSIZE).map (Function.update u.uartRxBuffer u.bytesReceived e.dr) =
      begun ++ [e.dr] :=
    map_range_bytes (by rw [List.length_append, List.length_singleton, hlast]) (stored_bytes h)
  have hindices :
      ∀ i ∈ u.indices ++ [u.bytesReceived] ++ List.range BUFFERSIZE, i < BUFFERSIZE := by
    intro i hi
    rcases List.mem_append.mp hi with hi | hi
    · exact collects_indices h i hi
    · exact List.mem_range.mp hi
  -- The command that is raised.
  set b := Function.update u.uartRxBuffer u.bytesReceived e.dr with hb
  set c : RaisedCommand :=
    { state := wordOf b &&& 0xFF#32, bytes := (List.range BUFFERSIZE).map b } with hc
  have hstates : ∀ d ∈ u.raised ++ [c], ∃ x ∈ d.bytes.head?, d.state = x.setWidth 32 := by
    intro d hd
    rcases List.mem_append.mp hd with hd | hd
    · exact h.states d hd
    · rw [List.mem_singleton.mp hd]
      exact ⟨b 0, rfl, wordOf_low b⟩
  have hraised : (u.raised ++ [c]).map (·.bytes) = u.raised.map (·.bytes) ++ [begun ++ [e.dr]] := by
    rw [List.map_append, List.map_singleton, ← hstored]
  unfold uartInterrupt
  rw [if_neg (by rw [hore]; exact Bool.false_ne_true)]
  dsimp only
  rw [if_neg hcount]
  -- A reboot starts with the next command as well.
  split
  · exact ⟨collects_initIsr hindices hstates, rfl, hraised, rfl⟩
  · exact ⟨collects_nil rfl hindices hstates, rfl, hraised, rfl⟩

end Interrupt

/-! ### Runs -/

/-- A reader in the middle of a stream raises the groups to come and reports the
    runs to come. -/
theorem uartRun_collects (es : List UartRegisters) (u : UartSystem) (begun : List Byte)
    (h : Collects u begun) :
    (∃ begun', Collects (uartRun es u) begun') ∧
      (uartRun es u).raised.map (·.bytes) =
        u.raised.map (·.bytes) ++ groupsAfter BUFFERSIZE (·.ore) (·.dr) begun es ∧
      (uartRun es u).printed =
        u.printed ++ List.replicate (runsAfter (·.ore) u.hostIsNotified es) 0xFFFFFFFF#32 := by
  induction es generalizing u begun with
  | nil =>
      refine ⟨⟨begun, h⟩, ?_, ?_⟩
      · rw [groupsAfter_nil h.room, List.append_nil]
        rfl
      · rw [runsAfter_nil, List.replicate_zero, List.append_nil]
        rfl
  | cons e es ih =>
      have hrun : uartRun (e :: es) u = uartRun es (uartInterrupt e u) := rfl
      cases hore : e.ore with
      | true =>
          -- What had begun is no group, and a run of overruns begins or goes on.
          rcases collects_overrun h hore with ⟨hnext, hnotified, hraised, hprinted⟩
          rcases ih _ _ hnext with ⟨hend, hcommands, herrors⟩
          rw [hrun]
          refine ⟨hend, ?_, ?_⟩
          · rw [hcommands, hraised, groupsAfter_mark h.room hore]
          · rw [herrors, hprinted, hnotified, runsAfter_mark hore, List.append_assoc,
              List.replicate_append_replicate]
      | false =>
          by_cases hlast : begun.length + 1 = BUFFERSIZE
          · rcases collects_command h hore hlast with ⟨hnext, hnotified, hraised, hprinted⟩
            rcases ih _ _ hnext with ⟨hend, hcommands, herrors⟩
            -- The byte completes the group that had begun.
            have hfull : (begun ++ [e.dr]).length = BUFFERSIZE := by
              rw [List.length_append, List.length_singleton, hlast]
            rw [hrun]
            refine ⟨hend, ?_, ?_⟩
            · rw [hcommands, hraised, groupsAfter_item hore, groupsAfter_full (by decide) hfull,
                List.append_assoc, List.singleton_append]
            · rw [herrors, hprinted, hnotified, runsAfter_item hore]
          -- The group grows.
          · rcases collects_byte h hore hlast with ⟨hnext, hnotified, hraised, hprinted⟩
            rcases ih _ _ hnext with ⟨hend, hcommands, herrors⟩
            rw [hrun]
            refine ⟨hend, ?_, ?_⟩
            · rw [hcommands, hraised, groupsAfter_item hore]
            · rw [herrors, hprinted, hnotified, runsAfter_item hore]

/-- After `init_isr`, any interrupts at all. -/
theorem uart_commands (uartRxBuffer : CharBuffer) (rxState : Word) (bytesReceived : Nat)
    (es : List UartRegisters) :
    FramesCommands es (uartRun es (startUart uartRxBuffer rxState bytesReceived)) := by
  have hstart : Collects (startUart uartRxBuffer rxState bytesReceived) [] :=
    collects_initIsr (fun i hi => absurd hi List.not_mem_nil) fun c hc => absurd hc List.not_mem_nil
  rcases uartRun_collects es _ _ hstart with ⟨⟨begun, hend⟩, hcommands, herrors⟩
  -- Nothing has begun at the start, and no overrun goes on.
  refine ⟨hend.bounds, hcommands.trans (groupsAfter_start es), hend.states, ?_⟩
  rw [herrors, ← runsAfter_start]
  rfl

/-! ### The machine with the kernel -/

/-- The word of a command. -/
def RaisedCommand.word (c : RaisedCommand) : Word := wordOf fun i => c.bytes.getD i 0#8

/-- The machine with the kernel has the same globals and has completed the same
    commands. -/
structure Agrees (s : IoSystem) (u : UartSystem) : Prop where
  rxState : s.rxState = u.rxState
  buffer : s.uartRxBuffer = u.uartRxBuffer
  received : s.bytesReceived = u.bytesReceived
  notified : s.hostIsNotified = u.hostIsNotified
  completed : s.completed = u.raised.map (·.word)

/-- The handler does to both machines the same, up to a reboot. -/
theorem uartIsrHandler_agrees {s : IoSystem} {u : UartSystem} {begun : List Byte}
    (h : Agrees s u) (hcollects : Collects u begun) (e : UartRegisters) :
    (∃ s', uartIsrHandler e.ore e.rxne e.dr s = some s' ∧ Agrees s' (uartInterrupt e u)) ∨
      (uartIsrHandler e.ore e.rxne e.dr s = none ∧
        ∃ c, (uartInterrupt e u).raised = u.raised ++ [c] ∧ c.state = REBOOT) := by
  have hcount : (u.bytesReceived + 1) % 256 = u.bytesReceived + 1 := by
    have hroom := hcollects.room
    rw [hcollects.received]
    exact Nat.mod_eq_of_lt (Nat.lt_trans (Nat.succ_lt_succ hroom) (by decide))
  -- The globals that both have are the same from here on.
  rcases s with ⟨kernel, rxState, uartRxBuffer, bytesReceived, hostIsNotified, rxneie,
    externalIoRunner, ioHandler, tInfo, stream, runner, idle, stage, idleStage, printed, completed,
    acted, transferred, called⟩
  rcases h with ⟨hrxState, hbuffer, hreceived, hnotified, hcompleted⟩
  dsimp only at hrxState hbuffer hreceived hnotified hcompleted
  subst hrxState hbuffer hreceived hnotified hcompleted
  unfold uartIsrHandler uartInterrupt
  cases hore : e.ore with
  | true =>
      refine Or.inl ⟨_, rfl, ?_⟩
      cases hnotified : u.hostIsNotified with
      | true =>
          cases hrxne : e.rxne with
          | true => exact ⟨rfl, rfl, rfl, hnotified.symm, rfl⟩
          | false => exact ⟨rfl, rfl, rfl, hnotified.symm, rfl⟩
      | false =>
          cases hrxne : e.rxne with
          | true => exact ⟨rfl, rfl, rfl, rfl, rfl⟩
          | false => exact ⟨rfl, rfl, rfl, rfl, rfl⟩
  | false =>
      simp only [Bool.false_eq_true, if_false, hcount]
      by_cases hmore : u.bytesReceived + 1 ≠ BUFFERSIZE
      · rw [if_pos hmore, if_pos hmore]
        exact Or.inl ⟨_, rfl, ⟨rfl, rfl, rfl, rfl, rfl⟩⟩
      · rw [if_neg hmore, if_neg hmore]
        -- The word in the buffer is the command, and decides about the reboot.
        by_cases hreboot :
            wordOf (Function.update u.uartRxBuffer u.bytesReceived e.dr) &&& 0xFF#32 = REBOOT
        · rw [if_pos hreboot]
          exact Or.inr ⟨if_pos hreboot, _, rfl, hreboot⟩
        · rw [if_neg hreboot]
          refine Or.inl ⟨_, if_neg hreboot, ⟨rfl, rfl, rfl, rfl, ?_⟩⟩
          dsimp only
          rw [List.map_append]
          rfl

end NextLevelRTOS
