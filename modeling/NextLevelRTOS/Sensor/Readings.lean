import NextLevelRTOS.Sensor.Am2302

/-!
# Readings

What `am2302_run` stores when the samples show forty pulses. The sensor sends two
words and the sum of their bytes, each with its highest bit first. The loop puts the
first bit at position 39 and the last one at zero, so the result is the number whose
digits have been sent, and the fields that are cut from it are what has been sent.

`is_valid` compares the last byte with the sum of the four bytes before it.

## Main definitions

* `msbFirst`: The bits of a word, highest first.
* `checksum`: The sum of the bytes of two words.
* `byteAt`: A byte of what has been sent.

## Theorems

* `decode_forty`: The result after forty pulses.
* `isValid_iff`: What `is_valid` says about any result.
* `am2302Run_readings`: What is stored.
-/

namespace NextLevelRTOS

open Pulses

/-- The bits of a word, highest first. -/
def msbFirst {w : Nat} (x : BitVec w) : List Bool := (List.range w).map x.getMsbD

/-- The sum of the four bytes of two words, in a byte. -/
def checksum (humidity temperature : BitVec 16) : Byte :=
  humidity.setWidth 8 + (humidity >>> 8).setWidth 8 + temperature.setWidth 8 +
    (temperature >>> 8).setWidth 8

/-- Byte number `n` of the bits that have been sent. -/
def byteAt (l : List Bool) (n : Nat) : Byte :=
  (BitVec.ofBoolListBE ((l.drop (8 * n)).take 8)).setWidth 8

section Readings

variable {c : Setting} {xs : List Sample}

theorem toNat_position {k : Nat} (hk : k < 40) : (position k).toNat = 39 - k := by
  rw [position, BitVec.toNat_sub]
  simp only [BitVec.ofNat_eq_ofNat, BitVec.toNat_ofNat]
  omega

theorem getD_eq_true {l : List Bool} {k : Nat} : l.getD k false = true ↔ l[k]? = some true := by
  rw [List.getD_eq_getElem?_getD]
  cases l[k]? with
  | none => exact iff_of_false Bool.false_ne_true nofun
  | some b => exact ⟨fun h => congrArg some h, fun h => Option.some.inj h⟩

/-- The result after forty pulses is the number that has been sent. -/
theorem decode_forty (h : (bits c xs).length = 40) (i : Nat) :
    (decode c xs).result.getLsbD i = (decide (i < 40) && (bits c xs).getD (39 - i) false) := by
  have hlt {k : Nat} (hk : (bits c xs)[k]? = some true) : k < 40 := by
    rw [← h]
    exact (List.getElem?_eq_some_iff.mp hk).1
  have hshifts : ∀ n ∈ (decode c xs).shifts, n.toNat < 64 := by
    intro n hn
    rcases mem_shifts.mp hn with ⟨k, hk, rfl⟩
    rw [toNat_position (hlt hk)]
    omega
  rw [Bool.eq_iff_iff, getLsbD_decode hshifts, Bool.and_eq_true, decide_eq_true_iff, getD_eq_true]
  constructor
  · rintro ⟨k, hk, rfl⟩
    have hk40 := hlt hk
    rw [toNat_position hk40, show 39 - (39 - k) = k by omega]
    exact ⟨by omega, hk⟩
  · rintro ⟨hi, hk⟩
    exact ⟨39 - i, hk, by rw [toNat_position (by omega)]; omega⟩

/-! ### The fields -/

theorem setWidth_low (x : BitVec 16) : (x.setWidth 32 &&& 0xFF#32).setWidth 8 = x.setWidth 8 := by
  have hmask : (0xFF#32).setWidth 8 = BitVec.allOnes 8 := by decide
  have hnarrow : (x.setWidth 32).setWidth 8 = x.setWidth 8 :=
    BitVec.setWidth_setWidth_of_le x (by decide)
  rw [BitVec.setWidth_and, hnarrow]
  exact (congrArg (x.setWidth 8 &&& ·) hmask).trans BitVec.and_allOnes

theorem setWidth_high (x : BitVec 16) :
    (x.setWidth 32 >>> 8).setWidth 8 = (x >>> 8).setWidth 8 := by
  refine BitVec.eq_of_getLsbD_eq fun i hi => ?_
  simp only [BitVec.getLsbD_setWidth, BitVec.getLsbD_ushiftRight]
  have h32 : 8 + i < 32 := by omega
  simp only [h32, decide_true, Bool.true_and]

/-- What is stored depends on the lowest forty bits of the result. -/
theorem storeReadings_eq (r : BitVec 64) : storeReadings r =
    { rh := (r >>> 24).setWidth 16
      temp := (r >>> 8).setWidth 16
      crc := r.setWidth 8
      isValid := if checksum ((r >>> 24).setWidth 16) ((r >>> 8).setWidth 16) = r.setWidth 8
        then 1 else 0 } := by
  have hcrc : r.setWidth 8 &&& 0xFF#8 = r.setWidth 8 := BitVec.and_allOnes
  have htemp : (r >>> 8).setWidth 16 &&& 0xFFFF#16 = (r >>> 8).setWidth 16 := BitVec.and_allOnes
  have hsum (x y : BitVec 16) : ((x.setWidth 32 &&& 0xFF#32) + (x.setWidth 32 >>> 8) +
      (y.setWidth 32 &&& 0xFF#32) + (y.setWidth 32 >>> 8)).setWidth 8 = checksum x y := by
    rw [BitVec.setWidth_add _ _ (by decide), BitVec.setWidth_add _ _ (by decide),
      BitVec.setWidth_add _ _ (by decide), setWidth_low, setWidth_high, setWidth_low,
      setWidth_high, checksum]
  simp only [storeReadings, hcrc, htemp, hsum]

theorem length_msbFirst {w : Nat} (x : BitVec w) : (msbFirst x).length = w := by
  rw [msbFirst, List.length_map, List.length_range]

theorem getElem?_msbFirst {w : Nat} (x : BitVec w) {k : Nat} (hk : k < w) :
    (msbFirst x)[k]? = some (x.getMsbD k) := by
  rw [msbFirst, List.getElem?_map, List.getElem?_range hk]
  rfl

/-- Bits are those of the number they are the digits of. -/
theorem msbFirst_ofBoolListBE {l : List Bool} {w : Nat} (h : l.length = w) :
    msbFirst ((BitVec.ofBoolListBE l).setWidth w) = l := by
  subst h
  rw [BitVec.setWidth_eq]
  refine List.ext_getElem? fun k => ?_
  by_cases hk : k < l.length
  · rw [getElem?_msbFirst _ hk, BitVec.getMsbD_ofBoolListBE, List.getD_eq_getElem?_getD,
      List.getElem?_eq_getElem hk, Option.getD_some]
  · rw [List.getElem?_eq_none (by rw [length_msbFirst]; omega), List.getElem?_eq_none (by omega)]

/-- Digits that have been sent are found where they should be in the result. -/
theorem field_sent {w : Nat} {x : BitVec w} {a b : List Bool}
    (hsent : bits c xs = a ++ (msbFirst x ++ b)) (h : (bits c xs).length = 40) :
    ((decode c xs).result >>> b.length).setWidth w = x := by
  have hlength := h
  rw [hsent, List.length_append, List.length_append, length_msbFirst] at hlength
  refine BitVec.eq_of_getLsbD_eq fun i hi => ?_
  have hdigit : (bits c xs)[39 - (b.length + i)]? = some (x.getLsbD i) := by
    rw [hsent, show 39 - (b.length + i) = a.length + (w - 1 - i) by omega,
      List.getElem?_append_right (Nat.le_add_right _ _), Nat.add_sub_cancel_left,
      List.getElem?_append_left (by rw [length_msbFirst]; omega),
      getElem?_msbFirst x (by omega), BitVec.getMsbD_eq_getLsbD, decide_eq_true (by omega),
      Bool.true_and, show w - 1 - (w - 1 - i) = i by omega]
  rw [BitVec.getLsbD_setWidth, decide_eq_true hi, Bool.true_and, BitVec.getLsbD_ushiftRight,
    decode_forty h, decide_eq_true (by omega), Bool.true_and, List.getD_eq_getElem?_getD, hdigit,
    Option.getD_some]

/-- A byte of the result. -/
theorem byte_sent (h : (bits c xs).length = 40) {n : Nat} (hn : n < 5) :
    ((decode c xs).result >>> (32 - 8 * n)).setWidth 8 = byteAt (bits c xs) n := by
  have hdigits : msbFirst (byteAt (bits c xs) n) = ((bits c xs).drop (8 * n)).take 8 :=
    msbFirst_ofBoolListBE (by rw [List.length_take, List.length_drop, h]; omega)
  have hsent : bits c xs = (bits c xs).take (8 * n) ++
      (msbFirst (byteAt (bits c xs) n) ++ ((bits c xs).drop (8 * n)).drop 8) := by
    rw [hdigits, List.take_append_drop, List.take_append_drop]
  have hfield := field_sent hsent h
  rwa [List.length_drop, List.length_drop, h, show 40 - 8 * n - 8 = 32 - 8 * n by omega] at hfield

theorem setWidth_shifted (r : BitVec 64) (n : Nat) :
    ((r >>> n).setWidth 16 >>> 8).setWidth 8 = (r >>> (n + 8)).setWidth 8 := by
  refine BitVec.eq_of_getLsbD_eq fun i hi => ?_
  simp only [BitVec.getLsbD_setWidth, BitVec.getLsbD_ushiftRight]
  rw [decide_eq_true (show 8 + i < 16 by omega), Bool.true_and, Nat.add_assoc]

/-- The sum of the bytes of the two words is that of the first four bytes. -/
theorem checksum_sent (h : (bits c xs).length = 40) :
    checksum (((decode c xs).result >>> 24).setWidth 16) (((decode c xs).result >>> 8).setWidth 16)
      = byteAt (bits c xs) 1 + byteAt (bits c xs) 0 + byteAt (bits c xs) 3 +
        byteAt (bits c xs) 2 := by
  have hbyte0 : ((decode c xs).result >>> (24 + 8)).setWidth 8 = byteAt (bits c xs) 0 :=
    byte_sent h (n := 0) (by decide)
  have hbyte1 : ((decode c xs).result >>> 24).setWidth 8 = byteAt (bits c xs) 1 :=
    byte_sent h (n := 1) (by decide)
  have hbyte2 : ((decode c xs).result >>> (8 + 8)).setWidth 8 = byteAt (bits c xs) 2 :=
    byte_sent h (n := 2) (by decide)
  have hbyte3 : ((decode c xs).result >>> 8).setWidth 8 = byteAt (bits c xs) 3 :=
    byte_sent h (n := 3) (by decide)
  rw [checksum, setWidth_shifted, setWidth_shifted, BitVec.setWidth_setWidth_of_le _ (by decide),
    BitVec.setWidth_setWidth_of_le _ (by decide), hbyte0, hbyte1, hbyte2, hbyte3]

/-- The readings are valid exactly if the last byte is the sum of the four before it. -/
theorem isValid_iff (h : (bits c xs).length = 40) :
    (am2302Run c xs).isValid = 1 ↔
      (byteAt (bits c xs) 4).toNat =
        ((byteAt (bits c xs) 0).toNat + (byteAt (bits c xs) 1).toNat +
          (byteAt (bits c xs) 2).toNat + (byteAt (bits c xs) 3).toNat) % 256 := by
  have hbyte4 : (decode c xs).result.setWidth 8 = byteAt (bits c xs) 4 := by
    have hbyte := byte_sent h (n := 4) (by decide)
    rwa [BitVec.ushiftRight_zero] at hbyte
  have hvalid : (am2302Run c xs).isValid = 1 ↔
      checksum (((decode c xs).result >>> 24).setWidth 16)
        (((decode c xs).result >>> 8).setWidth 16) = (decode c xs).result.setWidth 8 := by
    rw [am2302Run, storeReadings_eq]
    exact ite_eq_left_iff.trans ⟨fun hc => not_not.mp fun hne => absurd (hc hne) (by decide),
      fun hc hne => absurd hc hne⟩
  rw [hvalid, checksum_sent h, hbyte4, BitVec.toNat_eq, eq_comm]
  simp only [BitVec.toNat_add]
  omega

/-- With forty pulses, what the sensor has sent is stored, and it is found valid; and
    whatever has been sent, it is found valid exactly if the last byte is the sum of the
    others. -/
theorem am2302Run_readings (c : Setting) (xs : List Sample)
    (hforty : (highPulses c xs).length = 40) :
    (∀ humidity temperature : BitVec 16,
      bits c xs = msbFirst humidity ++ msbFirst temperature ++
        msbFirst (checksum humidity temperature) →
      am2302Run c xs =
        { rh := humidity
          temp := temperature
          crc := checksum humidity temperature
          isValid := 1 }) ∧
    ((am2302Run c xs).isValid = 1 ↔
      (byteAt (bits c xs) 4).toNat =
        ((byteAt (bits c xs) 0).toNat + (byteAt (bits c xs) 1).toNat +
          (byteAt (bits c xs) 2).toNat + (byteAt (bits c xs) 3).toNat) % 256) := by
  have h : (bits c xs).length = 40 := (List.length_map _).trans hforty
  refine ⟨fun humidity temperature hsent => ?_, isValid_iff h⟩
  rw [List.append_assoc] at hsent
  have hrh : ((decode c xs).result >>> 24).setWidth 16 = humidity := by
    have hfield := field_sent (hsent.trans (List.nil_append _).symm) h
    rwa [List.length_append, length_msbFirst, length_msbFirst] at hfield
  have htemp : ((decode c xs).result >>> 8).setWidth 16 = temperature := by
    have hfield := field_sent hsent h
    rwa [length_msbFirst] at hfield
  have hcrc : (decode c xs).result.setWidth 8 = checksum humidity temperature := by
    rw [← List.append_assoc, ← List.append_nil (msbFirst (checksum humidity temperature))] at hsent
    have hfield := field_sent hsent h
    rwa [List.length_nil, BitVec.ushiftRight_zero] at hfield
  rw [am2302Run, storeReadings_eq, hrh, htemp, hcrc, if_pos rfl]

end Readings

/-- A signal with the given bits: a rise every hundred microseconds, and a fall after 70
    or 26. -/
def signal (l : List Bool) : List Sample :=
  l.zipIdx.flatMap fun (b, k) =>
    [{ elapsed := BitVec.ofNat 32 (100 * k), idr := 1, counter := BitVec.ofNat 32 (100 * k) },
      { elapsed := BitVec.ofNat 32 (100 * k + if b then 70 else 26)
        idr := 0
        counter := BitVec.ofNat 32 (100 * k + if b then 70 else 26) }]

/-- The sensor on pin zero. -/
def onPinZero : Setting := { pin := 0, stack := 0, wide := fun _ => 0 }

/-- A relative humidity of 65.2 percent at 35.1 degrees. -/
def exampleSignal : List Sample :=
  signal (msbFirst 652#16 ++ msbFirst 351#16 ++ msbFirst (checksum 652 351))

theorem am2302Run_readings_example :
    am2302Run onPinZero exampleSignal =
      { rh := 652, temp := 351, crc := 0xEE, isValid := 1 } := by
  have hbits : bits onPinZero exampleSignal =
      msbFirst 652#16 ++ msbFirst 351#16 ++ msbFirst (checksum 652 351) := by
    rw [bits, highPulses, ← pulsesAfter_eq]
    decide +kernel
  have hforty : (highPulses onPinZero exampleSignal).length = 40 :=
    (List.length_map _).symm.trans (congrArg List.length hbits)
  exact (am2302Run_readings onPinZero exampleSignal hforty).1 652 351 hbits

end NextLevelRTOS
