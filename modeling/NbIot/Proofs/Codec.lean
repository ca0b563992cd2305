import Mathlib.Tactic.Ring
import Mathlib.Algebra.Order.Ring.Rat
import NbIot.Agent.Measurement
import NbIot.Node.Packet

/-!
# The measurement codec is a bijection

The node packs machine integers, the agent reads hexadecimal text and signed
bytes. Field by field the two agree: a wide field comes back as its unsigned
pattern, a narrow one with its sign. The temperature scale is undone exactly,
so packing what was read gives the same bytes, and no two packets read alike.
Whoever reads the measurement by the names of its properties gets the readings
back, so no two packets make the same measurement either.
-/

namespace NbIot

open Lib.Words

def FitsByte (v : BitVec 16) : Prop := -128 ≤ v.toInt ∧ v.toInt ≤ 127

/-- What the agent reads off a sample: its own values, the temperature on the
scale of the formula. -/
def Sample.readings (s : Sample) : Readings where
  light := s.lightValue.toNat
  loudness := s.loudnessValue.toNat
  motion := s.motionValue.toInt
  temperature := (s.convertedTemp.toNat : Int) * (1 / 100) - 27315 / 100
  humidity := s.humidityValue.toInt
  pressure := s.pressureValue.toNat
  battery := s.battValue.toNat
  airquality := s.airqualityValue.toInt

def Readings.sample (r : Readings) : Sample where
  lightValue := BitVec.ofInt 16 r.light
  loudnessValue := BitVec.ofInt 16 r.loudness
  motionValue := BitVec.ofInt 16 r.motion
  convertedTemp := convertTemp r.temperature
  humidityValue := BitVec.ofInt 16 r.humidity
  pressureValue := BitVec.ofInt 32 r.pressure
  battValue := BitVec.ofInt 16 r.battery
  airqualityValue := BitVec.ofInt 16 r.airquality

theorem unpack_pack {s : Sample} (hm : FitsByte s.motionValue)
    (hh : FitsByte s.humidityValue) (ha : FitsByte s.airqualityValue)
    (hp : s.pressureValue.toNat < 2 ^ 24) :
    unpack (pack s) = .ok s.readings := by
  rw [pack, unpack_fourteen]
  simp only [bigEndian_two, bigEndian_three hp, signed_byteAt hm.1 hm.2,
    signed_byteAt hh.1 hh.2, signed_byteAt ha.1 ha.2]
  rfl

theorem convertTemp_scale (n : Int) :
    convertTemp ((n : Rat) * (1 / 100) - 27315 / 100) = BitVec.ofInt 16 n := by
  have hscale :
      ((n : Rat) * (1 / 100) - 27315 / 100 + 27315 / 100) * 100 = n := by ring
  unfold convertTemp
  simp only [hscale, Rat.num_intCast, Rat.den_intCast, Nat.cast_one,
    Int.tdiv_one]

theorem byteAt_two (a b : UInt8) :
    byteAt (BitVec.ofInt 16 (bigEndian [a, b] : Int)) 8 = a ∧
      byteAt (BitVec.ofInt 16 (bigEndian [a, b] : Int)) 0 = b := by
  have ha := a.toNat_lt
  have hb := b.toNat_lt
  refine ⟨byteAt_of_toNat (by omega) ?_, byteAt_of_toNat (by omega) ?_⟩
  · simp only [BitVec.toNat_ofInt, bigEndian, List.foldl]
    omega
  · simp only [BitVec.toNat_ofInt, bigEndian, List.foldl]
    omega

theorem byteAt_three (a b c : UInt8) :
    byteAt (BitVec.ofInt 32 (bigEndian [a, b, c] : Int)) 16 = a ∧
      byteAt (BitVec.ofInt 32 (bigEndian [a, b, c] : Int)) 8 = b ∧
      byteAt (BitVec.ofInt 32 (bigEndian [a, b, c] : Int)) 0 = c := by
  have ha := a.toNat_lt
  have hb := b.toNat_lt
  have hc := c.toNat_lt
  refine ⟨byteAt_of_toNat (by omega) ?_, byteAt_of_toNat (by omega) ?_,
    byteAt_of_toNat (by omega) ?_⟩
  · simp only [BitVec.toNat_ofInt, bigEndian, List.foldl]
    omega
  · simp only [BitVec.toNat_ofInt, bigEndian, List.foldl]
    omega
  · simp only [BitVec.toNat_ofInt, bigEndian, List.foldl]
    omega

theorem pack_unpack {p : Bytes} (h : p.length = 14) :
    ∃ r, unpack p = .ok r ∧ pack r.sample = p := by
  obtain ⟨b0, b1, b2, b3, b4, b5, b6, b7, b8, b9, b10, b11, b12, b13, rfl⟩ :=
    exists_fourteen h
  refine ⟨_, unpack_fourteen .., ?_⟩
  simp only [pack, Readings.sample, convertTemp_scale, byteAt_two,
    byteAt_three, byteAt_ofInt_signed]

/-- Node and agent share one codec. The three parts are the two round trips
and the injectivity that follows; the measurement is built from the readings
in the first two. -/
theorem measurement_codec (cumulocityId creationdateTimestamp : JString) :
    (∀ s : Sample, FitsByte s.motionValue → FitsByte s.humidityValue →
      FitsByte s.airqualityValue → s.pressureValue.toNat < 2 ^ 24 →
      unpack (pack s) = .ok s.readings ∧
        createMeasurement cumulocityId creationdateTimestamp (pack s) =
          .ok (s.readings.representation cumulocityId creationdateTimestamp)) ∧
    (∀ p : Bytes, p.length = 14 →
      ∃ r, unpack p = .ok r ∧ pack r.sample = p ∧
        createMeasurement cumulocityId creationdateTimestamp p =
          .ok (r.representation cumulocityId creationdateTimestamp)) ∧
    ∀ p q : Bytes, p.length = 14 → q.length = 14 →
      unpack p = unpack q → p = q := by
  refine ⟨?_, ?_, ?_⟩
  · intro s hm hh ha hp
    have hunpack := unpack_pack hm hh ha hp
    refine ⟨hunpack, ?_⟩
    rw [createMeasurement, hunpack]
    rfl
  · intro p hlen
    obtain ⟨r, hunpack, hpack⟩ := pack_unpack hlen
    refine ⟨r, hunpack, hpack, ?_⟩
    rw [createMeasurement, hunpack]
    rfl
  · intro p q hp hq heq
    obtain ⟨r, hr, hpack⟩ := pack_unpack hp
    obtain ⟨r', hr', hpack'⟩ := pack_unpack hq
    have hsame : r = r' := by
      rw [hr, hr'] at heq
      injection heq
    rw [← hpack, ← hpack', hsame]

theorem measurement_codec_negative :
    unpack (pack ⟨0xffff, 0x8000, -128, 0x954c, -1, 0xfffffe, 0x0a0a, -127⟩) =
      .ok ⟨65535, 32768, -128, 38220 * (1 / 100) - 27315 / 100, -1, 16777214,
        2570, -127⟩ :=
  ((measurement_codec [] []).1
    ⟨0xffff, 0x8000, -128, 0x954c, -1, 0xfffffe, 0x0a0a, -127⟩
    ⟨by decide, by decide⟩ ⟨by decide, by decide⟩ ⟨by decide, by decide⟩
    (by decide)).1

/-! ## What the measurement says -/

namespace MeasurementRepresentation

/-- The value that is stored under a property. A property that is set twice keeps
the second value. -/
def value (m : MeasurementRepresentation) (property : String) : Option ReadingValue :=
  (m.readings.reverse.find? fun r => r.property = property.toList).map (·.value)

def int (m : MeasurementRepresentation) (property : String) : Option Int :=
  match m.value property with
  | some (.int n) => some n
  | _ => none

def float (m : MeasurementRepresentation) (property : String) : Option Rat :=
  match m.value property with
  | some (.float q) => some q
  | _ => none

/-- The readings, by the properties that they stand under. -/
def readBack (m : MeasurementRepresentation) : Option Readings := do
  return {
    light := ← m.int "Light"
    loudness := ← m.int "Loudness"
    motion := ← m.int "Motion"
    temperature := ← m.float "Temperature"
    humidity := ← m.int "Humidity"
    pressure := ← m.int "Pressure"
    battery := ← m.int "Battery"
    airquality := ← m.int "AirQuality" }

end MeasurementRepresentation

theorem readBack_representation (r : Readings) (cumulocityId creationdateTimestamp : JString) :
    (r.representation cumulocityId creationdateTimestamp).readBack = some r := rfl

/-- A packet's measurement gives back its readings, each under its own property, the
source and the time; so the measurement determines all three. -/
theorem measurement_reads_back {p : Bytes} (hp : p.length = 14)
    (cumulocityId creationdateTimestamp : JString) :
    ∃ m r, createMeasurement cumulocityId creationdateTimestamp p = .ok m ∧
      unpack p = .ok r ∧ m.readBack = some r ∧ m.source.id = cumulocityId ∧
      m.time = creationdateTimestamp ∧
      ∀ (q : Bytes) (cumulocityId' creationdateTimestamp' : JString), q.length = 14 →
        createMeasurement cumulocityId' creationdateTimestamp' q = .ok m →
          q = p ∧ cumulocityId' = cumulocityId ∧
            creationdateTimestamp' = creationdateTimestamp := by
  obtain ⟨r, hr, hpack⟩ := pack_unpack hp
  refine ⟨r.representation cumulocityId creationdateTimestamp, r, ?_, hr, rfl, rfl, rfl, ?_⟩
  · rw [createMeasurement, hr]
    rfl
  · intro q cumulocityId' creationdateTimestamp' hq hmade
    obtain ⟨r', hr', hpack'⟩ := pack_unpack hq
    rw [createMeasurement, hr'] at hmade
    have hsame : r'.representation cumulocityId' creationdateTimestamp' =
        r.representation cumulocityId creationdateTimestamp := Except.ok.inj hmade
    have hreadings := congrArg MeasurementRepresentation.readBack hsame
    rw [readBack_representation, readBack_representation] at hreadings
    refine ⟨?_, congrArg (·.source.id) hsame, congrArg (·.time) hsame⟩
    rw [← hpack, ← hpack', Option.some.inj hreadings]

theorem zeros_read_back :
    ∃ m r, createMeasurement ['1'] ['t'] (List.replicate 14 0) = .ok m ∧
      unpack (List.replicate 14 0) = .ok r ∧ m.readBack = some r ∧ m.source.id = ['1'] ∧
      m.time = ['t'] ∧
      ∀ (q : Bytes) (cumulocityId' creationdateTimestamp' : JString), q.length = 14 →
        createMeasurement cumulocityId' creationdateTimestamp' q = .ok m →
          q = List.replicate 14 0 ∧ cumulocityId' = ['1'] ∧ creationdateTimestamp' = ['t'] :=
  measurement_reads_back (by decide) ['1'] ['t']

end NbIot
