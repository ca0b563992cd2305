import NbIot.Agent.Java
import NbIot.Lib.Words
import Mathlib.Data.Rat.Defs

/-!
# `createMeasurement`

The wide fields are read through their hexadecimal text, the narrow ones are
signed bytes. The temperature is a float in the source; here it is the
rational the formula means.
-/

namespace NbIot

/-- The locals `createMeasurement` computes from the payload. -/
structure Readings where
  light : Int
  loudness : Int
  motion : Int
  temperature : Rat
  humidity : Int
  pressure : Int
  battery : Int
  airquality : Int
  deriving DecidableEq, Repr

/-- `Integer.parseInt(String.format("%02X…%02X", bs…), 16)`. -/
def parseHex (bs : Bytes) : Java Int := parseInt (bs.flatMap formatHex) 16

def unpack (payload : Bytes) : Java Readings := do
  let light ← parseHex [← arrayGet payload 0, ← arrayGet payload 1]
  let loudness ← parseHex [← arrayGet payload 2, ← arrayGet payload 3]
  let motion := Lib.Words.signed (← arrayGet payload 4)
  let temperature ← parseHex [← arrayGet payload 5, ← arrayGet payload 6]
  let humidity := Lib.Words.signed (← arrayGet payload 7)
  let pressure ←
    parseHex [← arrayGet payload 8, ← arrayGet payload 9, ← arrayGet payload 10]
  let battery ← parseHex [← arrayGet payload 11, ← arrayGet payload 12]
  let airquality := Lib.Words.signed (← arrayGet payload 13)
  return { light, loudness, motion
           temperature := temperature * (1 / 100) - 27315 / 100
           humidity, pressure, battery, airquality }

inductive ReadingValue where
  | int (n : Int)
  | float (q : Rat)
  deriving DecidableEq, Repr

/-- One `set(createReading(fragment, unit, value), property)`. -/
structure Reading where
  property : JString
  fragment : JString
  unit : JString
  value : ReadingValue
  deriving DecidableEq, Repr

def createReading (fragment unit : String) (value : ReadingValue)
    (property : String) : Reading :=
  ⟨property.toList, fragment.toList, unit.toList, value⟩

/-- The properties of the `source` of a measurement. -/
structure MeasurementSource where
  type : JString
  id : JString
  value : Option JString
  deriving DecidableEq, Repr

structure MeasurementRepresentation where
  time : JString
  source : MeasurementSource
  type : JString
  readings : List Reading
  deriving DecidableEq, Repr

def Readings.representation (r : Readings)
    (cumulocityId creationdateTimestamp : JString) :
    MeasurementRepresentation where
  time := creationdateTimestamp
  source := ⟨"com_cumulocity_model_ID".toList, cumulocityId, none⟩
  type := "Sodaq".toList
  readings :=
    [createReading "E" "light" (.int r.light) "Light",
      createReading "I" "loudness" (.int r.loudness) "Loudness",
      createReading "m" "motion" (.int r.motion) "Motion",
      createReading "T" "*C" (.float r.temperature) "Temperature",
      createReading "h" "%RH" (.int r.humidity) "Humidity",
      createReading "p" "Pa" (.int r.pressure) "Pressure",
      createReading "U" "mV" (.int r.battery) "Battery",
      createReading "q" "quality" (.int r.airquality) "AirQuality"]

def createMeasurement (cumulocityId creationdateTimestamp : JString)
    (payload : Bytes) : Java MeasurementRepresentation := do
  let readings ← unpack payload
  return readings.representation cumulocityId creationdateTimestamp

/-! ## What it reads from fourteen bytes -/

open Lib.Words

theorem parseHex_eq {bs : Bytes} (hne : bs ≠ [])
    (h : bigEndian bs ≤ 2147483647) : parseHex bs = .ok (bigEndian bs : Int) := by
  refine parseInt_of_digits (read_hexBytes hne) ?_ h
  intro c hc
  obtain ⟨b, _, hb⟩ := List.mem_flatMap.mp hc
  have hdigit : ∀ n : Fin 16, Lib.Digits.hexDigit n ≠ '-' ∧
      Lib.Digits.hexDigit n ≠ '+' := by decide
  have hlt := b.toNat_lt
  simp only [formatHex, Lib.Digits.hexByte, List.mem_cons, List.not_mem_nil,
    or_false] at hb
  rcases hb with rfl | rfl
  · exact hdigit ⟨b.toNat / 16, by omega⟩
  · exact hdigit ⟨b.toNat % 16, by omega⟩

theorem parseHex_two (a b : UInt8) :
    parseHex [a, b] = .ok (bigEndian [a, b] : Int) := by
  have ha := a.toNat_lt
  have hb := b.toNat_lt
  exact parseHex_eq (by simp) (by simp only [bigEndian, List.foldl]; omega)

theorem parseHex_three (a b c : UInt8) :
    parseHex [a, b, c] = .ok (bigEndian [a, b, c] : Int) := by
  have ha := a.toNat_lt
  have hb := b.toNat_lt
  have hc := c.toNat_lt
  exact parseHex_eq (by simp) (by simp only [bigEndian, List.foldl]; omega)

/-- Fourteen bytes always decode, each field from its own bytes. -/
theorem unpack_fourteen (b0 b1 b2 b3 b4 b5 b6 b7 b8 b9 b10 b11 b12 b13 : UInt8) :
    unpack [b0, b1, b2, b3, b4, b5, b6, b7, b8, b9, b10, b11, b12, b13] = .ok
      { light := bigEndian [b0, b1]
        loudness := bigEndian [b2, b3]
        motion := signed b4
        temperature := (bigEndian [b5, b6] : Int) * (1 / 100) - 27315 / 100
        humidity := signed b7
        pressure := bigEndian [b8, b9, b10]
        battery := bigEndian [b11, b12]
        airquality := signed b13 } := by
  unfold unpack
  simp only [arrayGet, List.getElem?_cons_zero, List.getElem?_cons_succ]
  show (parseHex [b0, b1] >>= _) = _
  rw [parseHex_two]
  show (parseHex [b2, b3] >>= _) = _
  rw [parseHex_two]
  show (parseHex [b5, b6] >>= _) = _
  rw [parseHex_two]
  show (parseHex [b8, b9, b10] >>= _) = _
  rw [parseHex_three]
  show (parseHex [b11, b12] >>= _) = _
  rw [parseHex_two]
  rfl

theorem exists_fourteen {p : Bytes} (h : p.length = 14) :
    ∃ b0 b1 b2 b3 b4 b5 b6 b7 b8 b9 b10 b11 b12 b13,
      p = [b0, b1, b2, b3, b4, b5, b6, b7, b8, b9, b10, b11, b12, b13] := by
  match p, h with
  | [b0, b1, b2, b3, b4, b5, b6, b7, b8, b9, b10, b11, b12, b13], _ =>
      exact ⟨b0, b1, b2, b3, b4, b5, b6, b7, b8, b9, b10, b11, b12, b13, rfl⟩

theorem ne_nil_of_fourteen {p : Bytes} (h : p.length = 14) : p ≠ [] := by
  intro hnil
  rw [hnil] at h
  exact absurd h (by decide)

theorem exists_unpack {p : Bytes} (h : p.length = 14) :
    ∃ r, unpack p = .ok r := by
  obtain ⟨b0, b1, b2, b3, b4, b5, b6, b7, b8, b9, b10, b11, b12, b13, rfl⟩ :=
    exists_fourteen h
  exact ⟨_, unpack_fourteen ..⟩

end NbIot
