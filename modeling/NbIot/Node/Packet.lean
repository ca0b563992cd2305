import NbIot.Lib.Words
import Mathlib.Data.Rat.Defs

/-!
# The fourteen bytes of a reading

`int` is 16 bits and `long` 32 bits on the board. The shifts are arithmetic
and every byte is masked, so a negative `convertedTemp` is packed like any
other pattern. Floating-point readings are taken in exact arithmetic.
-/

namespace NbIot

/-- The readings of one pass of `loop`, as the packing code has them. -/
structure Sample where
  lightValue : BitVec 16
  loudnessValue : BitVec 16
  motionValue : BitVec 16
  convertedTemp : BitVec 16
  humidityValue : BitVec 16
  pressureValue : BitVec 32
  battValue : BitVec 16
  airqualityValue : BitVec 16
  deriving DecidableEq, Repr

/-- `(int)((temperatureValue + 273.15) * 100)`. -/
def convertTemp (temperatureValue : Rat) : BitVec 16 :=
  let scaled := (temperatureValue + 27315 / 100) * 100
  BitVec.ofInt 16 (scaled.num.tdiv scaled.den)

open Lib.Words in
/-- `packet[0]` to `packet[13]`. -/
def pack (s : Sample) : List UInt8 :=
  [byteAt s.lightValue 8, byteAt s.lightValue 0,
    byteAt s.loudnessValue 8, byteAt s.loudnessValue 0,
    byteAt s.motionValue 0,
    byteAt s.convertedTemp 8, byteAt s.convertedTemp 0,
    byteAt s.humidityValue 0,
    byteAt s.pressureValue 16, byteAt s.pressureValue 8,
    byteAt s.pressureValue 0,
    byteAt s.battValue 8, byteAt s.battValue 0,
    byteAt s.airqualityValue 0]

theorem pack_length (s : Sample) : (pack s).length = 14 := rfl

end NbIot
