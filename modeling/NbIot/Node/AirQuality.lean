import Mathlib.Data.BitVec

/-!
# The air quality sensor

A timer interrupt takes a reading every 62 overflows and sets a flag, and `slope`
clears the flag and judges the two latest readings, against each other and against a
standard: the mean of 150 readings. The interrupt is taken in front of or behind a
call of `slope`, not within it. The sensor is a global variable, so it starts with
zeros; an `int` has 16 bits, and a reading ten.
-/

namespace NbIot

/-- What `analogRead` returns. -/
abbrev Analog := Fin 1024

structure AirQuality where
  i : BitVec 16 := 0
  volStandard : BitVec 32 := 0
  firstVol : BitVec 16 := 0
  lastVol : BitVec 16 := 0
  temp : BitVec 16 := 0
  counter : BitVec 16 := 0
  timerIndex : Bool := false
  error : Bool := false
  deriving DecidableEq

/-- A reading as an `int`. -/
def Analog.int (r : Analog) : BitVec 16 := .ofNat 16 r

namespace AirQuality

/-! ## Starting -/

/-- The loop of `init`: `v` is `init_voltage`, and `i` a local variable. There is no
result while there are no more readings. -/
def initLoop (i : UInt8) (v : Analog) (a : AirQuality) : List Analog → Option AirQuality
  | [] => if v.val = 0 ∨ v.val = 798 then some a else none
  | r :: readings =>
      if v.val = 0 then some a
      else if v < 798 ∧ 10 < v then
        some { a with
          firstVol := r.int
          lastVol := r.int
          volStandard := r.int.signExtend 32
          error := false }
      else if 798 < v ∨ v ≤ 10 then
        if i + 1 = 5 then initLoop 0 r { a with error := true } readings
        else initLoop (i + 1) r a readings
      else some a

def init (a : AirQuality) : List Analog → Option AirQuality
  | [] => none
  | v :: readings => initLoop 0 v a readings

/-! ## Running -/

/-- `ISR(TIMER1_OVF_vect)`. -/
def isr (reading : Analog) (a : AirQuality) : AirQuality :=
  if a.counter = 61 then
    { a with
      lastVol := a.firstVol
      firstVol := reading.int
      counter := 0
      timerIndex := true }
  else { a with counter := a.counter + 1 }

def avgVoltage (a : AirQuality) : AirQuality :=
  if a.i = 150 then
    { a with volStandard := .ofInt 32 (a.temp.toInt.tdiv 150), temp := 0, i := 0 }
  else { a with temp := a.temp + a.firstVol, i := a.i + 1 }

/-- `first_vol-last_vol`. -/
def rise (a : AirQuality) : Int := (a.firstVol - a.lastVol).toInt

/-- `first_vol-vol_standard`, a `long`. -/
def excess (a : AirQuality) : Int := (a.firstVol.signExtend 32 - a.volStandard).toInt

/-- What `slope` makes of the readings, from 0 for the worst to 3. -/
def quality (a : AirQuality) : Int :=
  if 400 < a.rise ∨ 700 < a.firstVol.toInt then 0
  else if (400 < a.rise ∧ a.firstVol.toInt < 700) ∨ 150 < a.excess then 1
  else if (200 < a.rise ∧ a.firstVol.toInt < 700) ∨ 50 < a.excess then 2
  else 3

def slope (a : AirQuality) : Int × AirQuality :=
  if a.timerIndex then (a.quality, { a.avgVoltage with timerIndex := false }) else (-1, a)

end AirQuality

/-- An overflow of the timer, with the reading there would be, or a call of `slope`. -/
inductive SensorEvent where
  | overflow (reading : Analog)
  | slope

namespace AirQuality

def step (a : AirQuality) : SensorEvent → Option AirQuality
  | .overflow reading => some (a.isr reading)
  | .slope => some a.slope.2

/-- What the calls of `slope` return. -/
def results : AirQuality → List SensorEvent → List Int
  | _, [] => []
  | a, .overflow reading :: events => (a.isr reading).results events
  | a, .slope :: events => a.slope.1 :: a.slope.2.results events

end AirQuality

end NbIot
