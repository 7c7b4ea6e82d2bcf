import NextLevelRTOS.Lib.Pulses
import NextLevelRTOS.Memory.Entry

/-!
# The Humidity Sensor

`am2302_run` from where the sensor begins to send. The sensor encodes a bit in the
length of a high pulse. The loop samples the pin for ten milliseconds. It notes the
time when the pin rises, and when it falls it compares the time that has passed with
a threshold and sets a bit, from position 39 downwards.

A sample is what one round reads: the timer in the condition, the pin, and the timer
once more where the pin has changed. Nothing is assumed about the times. The
samples are a list, so a round that reads no more samples has left the loop.

The pin starts out low, so it rises before it falls, and the loop counts the pulses
of the signal. After the fortieth pulse the position goes on downwards through zero.
What `1ULL` shifted by 64 or more gives is left open by the language; it is a
parameter here, and so is what lies where `t_now` has not been assigned.

`shifts` and `compared` are history: the amounts of the shifts, and the values of
`t_now` when it was read.

## Main definitions

* `Sample`, `Setting`: What the loop reads, and what is left open.
* `Decoder`, `decodeRound`, `decodeLoop`: The loop.
* `storeReadings`, `am2302Run`: What is stored.
* `highPulses`: The pulses that the samples show.
* `isLong`: A pulse is measured as a one.
* `Tally`, `countPulse`: What the loop does for a pulse.

## Theorems

* `decode_tally`: The loop counts the pulses of the signal.
* `decode_pulses`: What it makes of them.
* `mem_shifts`: The amounts of the shifts.
* `decode_compared`: The times of the comparisons.
* `getLsbD_decode`: The bits of the result.
-/

namespace NextLevelRTOS

open Pulses

/-- What a round of the loop reads. -/
structure Sample where
  elapsed : Word
  idr : Word
  counter : Word
  deriving DecidableEq, Repr

/-- The pin, what lies where `t_now` will be, and what a shift that is too wide gives. -/
structure Setting where
  pin : Fin 16
  stack : Word
  wide : BitVec 64 → BitVec 64

/-- `Am2302Readings_t` -/
structure Am2302Readings where
  rh : BitVec 16
  temp : BitVec 16
  crc : Byte
  isValid : Byte
  deriving DecidableEq, Repr

/-- `SensorOutputZero` -/
def sensorOutputZero : Word := 30

/-- The local variables of the loop, and what has been done with them. -/
structure Decoder where
  prevState : Word
  tNow : Option Word
  result : BitVec 64
  iteration : BitVec 64
  shifts : List (BitVec 64)
  compared : List (Option Word)
  deriving DecidableEq, Repr

/-- `read_pin` -/
def readPin (pin : Fin 16) (idr : Word) : Word := idr &&& (1#32 <<< pin.val)

/-- `1ULL << n` -/
def oneShifted (c : Setting) (n : BitVec 64) : BitVec 64 :=
  if n.toNat < 64 then 1#64 <<< n.toNat else c.wide n

/-- One round of the loop. -/
def decodeRound (c : Setting) (d : Decoder) (x : Sample) : Decoder :=
  let currentState := readPin c.pin x.idr
  if d.prevState < currentState then
    { d with tNow := some x.counter, prevState := currentState }
  else if currentState < d.prevState then
    let one := ¬ x.counter - d.tNow.getD c.stack < sensorOutputZero
    { d with
      result := if one then d.result ||| oneShifted c d.iteration else d.result
      shifts := if one then d.shifts ++ [d.iteration] else d.shifts
      compared := d.compared ++ [d.tNow]
      iteration := d.iteration - 1
      prevState := currentState }
  else d

/-- `while ((elapsed = timer_read_counter(timerNumber)) < 10000)` -/
def decodeLoop (c : Setting) : List Sample → Decoder → Decoder
  | [], d => d
  | x :: xs, d => if x.elapsed < 10000 then decodeLoop c xs (decodeRound c d x) else d

/-- The variables before the loop. -/
def Decoder.start : Decoder :=
  { prevState := 0, tNow := none, result := 0, iteration := 39, shifts := [], compared := [] }

/-- The loop, from its beginning. -/
def decode (c : Setting) (xs : List Sample) : Decoder := decodeLoop c xs Decoder.start

/-- What is stored behind the loop. -/
def storeReadings (result : BitVec 64) : Am2302Readings :=
  let rh := (result >>> 24).setWidth 16
  let temp := (result >>> 8).setWidth 16 &&& 0xFFFF#16
  let crc := result.setWidth 8 &&& 0xFF#8
  let sum : Word := (rh.setWidth 32 &&& 0xFF#32) + (rh.setWidth 32 >>> 8) +
    (temp.setWidth 32 &&& 0xFF#32) + (temp.setWidth 32 >>> 8)
  { rh := rh, temp := temp, crc := crc, isValid := if sum.setWidth 8 = crc then 1 else 0 }

/-- `am2302_run` -/
def am2302Run (c : Setting) (xs : List Sample) : Am2302Readings :=
  storeReadings (decode c xs).result

/-! ### Pulses -/

/-- The pin is high. -/
def isHigh (c : Setting) (x : Sample) : Bool := x.idr.getLsbD c.pin.val

/-- The samples of the ten milliseconds. -/
def window (xs : List Sample) : List Sample := xs.takeWhile fun x => x.elapsed < 10000

/-- The pulses that the samples show. -/
def highPulses (c : Setting) (xs : List Sample) : List (Sample × Sample) :=
  pulses (isHigh c) (window xs)

/-- A pulse is measured as at least 30 microseconds. -/
def isLong (p : Sample × Sample) : Bool := sensorOutputZero ≤ p.2.counter - p.1.counter

/-- What the loop has made of the pulses so far. -/
structure Tally where
  result : BitVec 64
  iteration : BitVec 64
  shifts : List (BitVec 64)
  compared : List (Option Word)

/-- The variables but for the last edge. -/
def Decoder.tally (d : Decoder) : Tally :=
  { result := d.result, iteration := d.iteration, shifts := d.shifts, compared := d.compared }

/-- What the loop makes of another pulse. -/
def countPulse (c : Setting) (t : Tally) (p : Sample × Sample) : Tally :=
  { result := if isLong p then t.result ||| oneShifted c t.iteration else t.result
    iteration := t.iteration - 1
    shifts := if isLong p then t.shifts ++ [t.iteration] else t.shifts
    compared := t.compared ++ [some p.1.counter] }

/-- The bits that the pulses stand for. -/
def bits (c : Setting) (xs : List Sample) : List Bool := (highPulses c xs).map isLong

/-- The position for a pulse, which has a number from zero on. -/
def position (k : Nat) : BitVec 64 := 39 - BitVec.ofNat 64 k

/-- The positions of the ones among some pulses, of which the first has number `n`. -/
def positionsFrom (n : Nat) : List (Sample × Sample) → List (BitVec 64)
  | [] => []
  | p :: ps => (if isLong p then [position n] else []) ++ positionsFrom (n + 1) ps

/-- Bits are set at some positions. -/
def setBits (c : Setting) (r : BitVec 64) (l : List (BitVec 64)) : BitVec 64 :=
  l.foldl (fun r n => r ||| oneShifted c n) r

section Loop

variable {c : Setting}

theorem decodeLoop_eq (xs : List Sample) (d : Decoder) :
    decodeLoop c xs d = (window xs).foldl (decodeRound c) d := by
  induction xs generalizing d with
  | nil => rfl
  | cons x xs ih =>
      by_cases hx : x.elapsed < 10000
      · rw [decodeLoop, if_pos hx, ih, window, window, List.takeWhile_cons,
          if_pos (decide_eq_true hx), List.foldl_cons]
      · rw [decodeLoop, if_neg hx, window, List.takeWhile_cons,
          if_neg (fun hc => hx (of_decide_eq_true hc)), List.foldl_nil]

theorem mask_pos (pin : Fin 16) : 0#32 < 1#32 <<< pin.val := by
  revert pin
  decide

/-- The value of the pin when it is high. -/
def Setting.mask (c : Setting) : Word := 1#32 <<< c.pin.val

/-- What `read_pin` returns is one of two values. -/
theorem readPin_eq (c : Setting) (x : Sample) :
    readPin c.pin x.idr = if isHigh c x then c.mask else 0 := by
  rw [readPin, ← BitVec.twoPow_eq, BitVec.and_twoPow]
  rfl

theorem decodeRound_same {d : Decoder} {x : Sample} (h : d.prevState = readPin c.pin x.idr) :
    decodeRound c d x = d := by
  simp only [decodeRound, h, if_neg (BitVec.lt_irrefl _)]

theorem decodeRound_rise {d : Decoder} {x : Sample} (h : d.prevState = 0)
    (hx : readPin c.pin x.idr = c.mask) :
    decodeRound c d x = { d with tNow := some x.counter, prevState := c.mask } := by
  simp only [decodeRound, h, hx]
  exact if_pos (mask_pos c.pin)

theorem decodeRound_fall {d : Decoder} {x rise : Sample} (h : d.prevState = c.mask)
    (hx : readPin c.pin x.idr = 0) (hrise : d.tNow = some rise.counter) :
    (decodeRound c d x).prevState = 0 ∧
      (decodeRound c d x).tally = countPulse c d.tally (rise, x) := by
  have hmask : (0 : Word) < c.mask := mask_pos c.pin
  have hone : (¬ x.counter - rise.counter < sensorOutputZero) ↔ isLong (rise, x) = true := by
    rw [BitVec.not_lt, isLong, decide_eq_true_iff]
  simp only [decodeRound, h, hx, if_neg (BitVec.not_lt.mpr (BitVec.le_of_lt hmask)), if_pos hmask,
    hrise, Option.getD_some, hone, Decoder.tally, countPulse, and_self]

/-- The variables keep the level of the last sample and, while a pulse goes on, the time
    of its rise. -/
structure Tracks (c : Setting) (o : Option Sample) (d : Decoder) : Prop where
  prevState : d.prevState = if o.isSome then c.mask else 0
  tNow : ∀ rise ∈ o, d.tNow = some rise.counter

theorem decodeRound_tracks {o : Option Sample} {d : Decoder} (h : Tracks c o d) (x : Sample) :
    Tracks c (begun (isHigh c) o [x]) (decodeRound c d x) ∧
      (decodeRound c d x).tally = (pulsesAfter (isHigh c) o [x]).foldl (countPulse c) d.tally := by
  have hread := readPin_eq c x
  have hprev := h.prevState
  cases o with
  | none =>
      cases hx : isHigh c x with
      | true =>
          rw [hx] at hread
          rw [decodeRound_rise hprev hread]
          simp only [begun, pulsesAfter, hx, if_true]
          exact ⟨⟨rfl, fun rise hrise => by rw [← Option.some.inj hrise]⟩, rfl⟩
      | false =>
          rw [hx] at hread
          rw [decodeRound_same (hprev.trans hread.symm)]
          simp only [begun, pulsesAfter, hx, Bool.false_eq_true, if_false]
          exact ⟨h, rfl⟩
  | some rise =>
      cases hx : isHigh c x with
      | true =>
          rw [hx] at hread
          rw [decodeRound_same (hprev.trans hread.symm)]
          simp only [begun, pulsesAfter, hx, if_true]
          exact ⟨h, rfl⟩
      | false =>
          rw [hx] at hread
          rcases decodeRound_fall hprev hread (h.tNow rise rfl) with ⟨hlow, htally⟩
          simp only [begun, pulsesAfter, hx, Bool.false_eq_true, if_false]
          exact ⟨⟨hlow, fun _ hrise => absurd hrise (Option.not_mem_none _)⟩, htally⟩

theorem foldl_tally (xs : List Sample) : ∀ (o : Option Sample) (d : Decoder), Tracks c o d →
    (xs.foldl (decodeRound c) d).tally =
      (pulsesAfter (isHigh c) o xs).foldl (countPulse c) d.tally := by
  induction xs with
  | nil => exact fun _ _ _ => rfl
  | cons x xs ih =>
      intro o d h
      rcases decodeRound_tracks h x with ⟨htracks, htally⟩
      rw [List.foldl_cons, ih _ _ htracks, htally, ← List.foldl_append, ← pulsesAfter_append,
        List.singleton_append]

/-- The loop counts the pulses of the signal. -/
theorem decode_tally (c : Setting) (xs : List Sample) :
    (decode c xs).tally = (highPulses c xs).foldl (countPulse c) Decoder.start.tally := by
  have hstart : Tracks c none Decoder.start :=
    ⟨rfl, fun _ hrise => absurd hrise (Option.not_mem_none _)⟩
  rw [decode, decodeLoop_eq, foldl_tally _ none _ hstart, pulsesAfter_eq]
  rfl

theorem position_succ (n : Nat) : position n - 1 = position (n + 1) := by
  rw [position, position, BitVec.ofNat_add, BitVec.sub_sub]
  rfl

/-- What the loop makes of pulses when the first has number `n`. -/
theorem foldl_countPulse (ps : List (Sample × Sample)) : ∀ (n : Nat) (t : Tally),
    t.iteration = position n →
    ps.foldl (countPulse c) t =
      { result := setBits c t.result (positionsFrom n ps)
        iteration := position (n + ps.length)
        shifts := t.shifts ++ positionsFrom n ps
        compared := t.compared ++ ps.map fun p => some p.1.counter } := by
  induction ps with
  | nil =>
      intro n t ht
      simp only [List.foldl_nil, positionsFrom, List.append_nil, List.map_nil, List.length_nil,
        Nat.add_zero, ← ht]
      rfl
  | cons p ps ih =>
      intro n t ht
      have hnext : (countPulse c t p).iteration = position (n + 1) := by
        rw [← position_succ, ← ht]
        rfl
      rw [List.foldl_cons, ih (n + 1) _ hnext]
      have hlength : n + 1 + ps.length = n + (p :: ps).length := by
        rw [List.length_cons]
        omega
      rw [hlength]
      cases hp : isLong p with
      | true => simp only [countPulse, hp, if_true, positionsFrom, ht, List.singleton_append,
          List.append_assoc, List.map_cons, setBits, List.foldl_cons]
      | false => simp only [countPulse, hp, Bool.false_eq_true, if_false, positionsFrom,
          List.nil_append, List.singleton_append, List.append_assoc, List.map_cons]

theorem mem_positionsFrom {n : Nat} {ps : List (Sample × Sample)} {s : BitVec 64} :
    s ∈ positionsFrom n ps ↔ ∃ k, (ps.map isLong)[k]? = some true ∧ s = position (n + k) := by
  induction ps generalizing n with
  | nil => exact iff_of_false List.not_mem_nil fun ⟨k, hk, _⟩ => nomatch hk
  | cons p ps ih =>
      rw [positionsFrom, List.mem_append, ih]
      constructor
      · rintro (hs | ⟨k, hk, hs⟩)
        · cases hp : isLong p with
          | true =>
              rw [hp, if_pos rfl, List.mem_singleton] at hs
              exact ⟨0, congrArg some hp, hs⟩
          | false =>
              rw [hp, if_neg Bool.false_ne_true] at hs
              exact absurd hs List.not_mem_nil
        · exact ⟨k + 1, hk, by rw [hs, Nat.add_right_comm]; rfl⟩
      · rintro ⟨k, hk, hs⟩
        cases k with
        | zero =>
            have hp : isLong p = true := Option.some.inj hk
            rw [if_pos hp, List.mem_singleton]
            exact Or.inl hs
        | succ k => exact Or.inr ⟨k, hk, by rw [hs, Nat.add_right_comm]; rfl⟩

/-- What the loop makes of the signal. -/
theorem decode_pulses (c : Setting) (xs : List Sample) :
    (decode c xs).tally =
      { result := setBits c 0 (positionsFrom 0 (highPulses c xs))
        iteration := position (highPulses c xs).length
        shifts := positionsFrom 0 (highPulses c xs)
        compared := (highPulses c xs).map fun p => some p.1.counter } := by
  rw [decode_tally, foldl_countPulse _ 0 _ rfl, Nat.zero_add]
  rfl

theorem decode_shifts (c : Setting) (xs : List Sample) :
    (decode c xs).shifts = positionsFrom 0 (highPulses c xs) :=
  congrArg Tally.shifts (decode_pulses c xs)

/-- The times of the comparisons. -/
theorem decode_compared (c : Setting) (xs : List Sample) :
    (decode c xs).compared = (highPulses c xs).map fun p => some p.1.counter :=
  congrArg Tally.compared (decode_pulses c xs)

theorem decode_result (c : Setting) (xs : List Sample) :
    (decode c xs).result = setBits c 0 (decode c xs).shifts := by
  rw [decode_shifts]
  exact congrArg Tally.result (decode_pulses c xs)

/-- The amounts of the shifts. -/
theorem mem_shifts {xs : List Sample} {s : BitVec 64} :
    s ∈ (decode c xs).shifts ↔ ∃ k, (bits c xs)[k]? = some true ∧ s = position k := by
  rw [decode_shifts, mem_positionsFrom]
  simp only [Nat.zero_add, bits]

theorem getLsbD_oneShifted {n : BitVec 64} (hn : n.toNat < 64) (i : Nat) :
    (oneShifted c n).getLsbD i = decide (n.toNat = i) := by
  rw [oneShifted, if_pos hn, ← BitVec.twoPow_eq, BitVec.getLsbD_twoPow, decide_eq_true hn,
    Bool.true_and]

/-- No bit is cleared. -/
theorem setBits_mono (l : List (BitVec 64)) {r : BitVec 64} {i : Nat} (h : r.getLsbD i = true) :
    (setBits c r l).getLsbD i = true := by
  induction l generalizing r with
  | nil => exact h
  | cons n l ih => exact ih (by rw [BitVec.getLsbD_or, h, Bool.true_or])

theorem setBits_set {l : List (BitVec 64)} (r : BitVec 64) {n : BitVec 64} (hmem : n ∈ l)
    (hn : n.toNat < 64) : (setBits c r l).getLsbD n.toNat = true := by
  induction l generalizing r with
  | nil => exact absurd hmem List.not_mem_nil
  | cons m l ih =>
      rcases List.mem_cons.mp hmem with rfl | hmem
      · refine setBits_mono l ?_
        rw [BitVec.getLsbD_or, getLsbD_oneShifted hn, decide_eq_true rfl, Bool.or_true]
      · exact ih _ hmem

/-- Shifts that are not too wide set the bits at their positions only. -/
theorem setBits_only {l : List (BitVec 64)} {r : BitVec 64} (hl : ∀ n ∈ l, n.toNat < 64) {i : Nat}
    (h : (setBits c r l).getLsbD i = true) : r.getLsbD i = true ∨ ∃ n ∈ l, n.toNat = i := by
  induction l generalizing r with
  | nil => exact Or.inl h
  | cons n l ih =>
      have hn := hl n List.mem_cons_self
      rcases ih (fun m hm => hl m (List.mem_cons_of_mem n hm)) h with hr | ⟨m, hm, hmi⟩
      · rw [BitVec.getLsbD_or, getLsbD_oneShifted hn, Bool.or_eq_true, decide_eq_true_iff] at hr
        exact hr.imp_right fun hni => ⟨n, List.mem_cons_self, hni⟩
      · exact Or.inr ⟨m, List.mem_cons_of_mem n hm, hmi⟩

/-- The bits of the result, where no shift is too wide. -/
theorem getLsbD_decode {xs : List Sample} (h : ∀ n ∈ (decode c xs).shifts, n.toNat < 64)
    {i : Nat} : (decode c xs).result.getLsbD i = true ↔
      ∃ k, (bits c xs)[k]? = some true ∧ (position k).toNat = i := by
  constructor
  · intro hi
    rw [decode_result] at hi
    rcases setBits_only h hi with hzero | ⟨n, hn, hni⟩
    · exact Bool.noConfusion (BitVec.getLsbD_zero.symm.trans hzero)
    · rcases mem_shifts.mp hn with ⟨k, hk, rfl⟩
      exact ⟨k, hk, hni⟩
  · rintro ⟨k, hk, rfl⟩
    have hmem := mem_shifts.mpr ⟨k, hk, rfl⟩
    rw [decode_result]
    exact setBits_set 0 hmem (h _ hmem)

end Loop

end NextLevelRTOS
