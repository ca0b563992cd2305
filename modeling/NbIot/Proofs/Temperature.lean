import Mathlib.Data.Rat.Floor
import Mathlib.Tactic.Linarith
import NbIot.Agent.Measurement
import NbIot.Node.Packet

/-!
# The temperature over its whole range

Above 54.52 degrees the scaled temperature no longer fits a signed `int`, and
what the node shifts and masks is a negative number. The bytes are those of the
unsigned pattern all the same, and the agent reads the pattern, so the number
on the wire is the scaled temperature rounded down, from one end of the range
to the other. What it stands for is at most one step below the temperature, and
never out of order.
-/

namespace NbIot

open Lib.Words

/-- The readings with the temperature sensor at `temperatureValue`. -/
def Sample.atTemperature (s : Sample) (temperatureValue : Rat) : Sample :=
  { s with convertedTemp := convertTemp temperatureValue }

/-- The range documented where the node converts the temperature. -/
def InRange (temperatureValue : Rat) : Prop :=
  -(27315 / 100) ≤ temperatureValue ∧ temperatureValue < 38221 / 100

/-- `(temperatureValue + 273.15) * 100`. -/
def scaled (temperatureValue : Rat) : Rat := (temperatureValue + 27315 / 100) * 100

theorem InRange.bounds {t : Rat} (h : InRange t) : 0 ≤ scaled t ∧ scaled t < 65536 := by
  obtain ⟨hlo, hhi⟩ := h
  unfold scaled
  constructor <;> linarith

/-- Truncation rounds a number that is not negative down. -/
theorem tdiv_eq_floor {q : Rat} (h : 0 ≤ q) : q.num.tdiv q.den = ⌊q⌋ := by
  rw [Rat.floor_def', Int.tdiv_eq_ediv_of_nonneg (Rat.num_nonneg.mpr h)]

/-- The pattern of the `int`, negative or not, is the scaled temperature rounded
down. -/
theorem InRange.convertTemp_toNat {t : Rat} (h : InRange t) :
    ((convertTemp t).toNat : Int) = ⌊scaled t⌋ := by
  obtain ⟨hlo, hhi⟩ := h.bounds
  have hfloor : 0 ≤ ⌊scaled t⌋ := Int.floor_nonneg.mpr hlo
  have hlt : ⌊scaled t⌋ < 65536 := Int.floor_lt.mpr (by exact_mod_cast hhi)
  show ((BitVec.ofInt 16 ((scaled t).num.tdiv (scaled t).den)).toNat : Int) = _
  rw [tdiv_eq_floor hlo, BitVec.toNat_ofInt]
  omega

/-- What the agent computes from the two bytes, whatever the other readings. -/
theorem unpack_atTemperature (s : Sample) (t : Rat) :
    ∃ r, unpack (pack (s.atTemperature t)) = .ok r ∧
      r.temperature = ((convertTemp t).toNat : Int) * (1 / 100) - 27315 / 100 := by
  refine ⟨_, unpack_fourteen .., ?_⟩
  simp only [bigEndian_two, Sample.atTemperature]

theorem temperature_floor {s : Sample} {t : Rat} {r : Readings} (h : InRange t)
    (hr : unpack (pack (s.atTemperature t)) = .ok r) :
    r.temperature = ⌊scaled t⌋ * (1 / 100) - 27315 / 100 := by
  obtain ⟨r', hr', htemp⟩ := unpack_atTemperature s t
  rw [hr] at hr'
  injection hr' with hr'
  rw [hr', htemp, h.convertTemp_toNat]

/-- Over the documented range the agent's temperature is at most one step below
the node's, and a higher temperature is never reported as a lower one. -/
theorem temperature_survives (cumulocityId creationdateTimestamp : JString) :
    (∀ (s : Sample) (t : Rat), InRange t →
      ∃ r, unpack (pack (s.atTemperature t)) = .ok r ∧
        createMeasurement cumulocityId creationdateTimestamp (pack (s.atTemperature t)) =
          .ok (r.representation cumulocityId creationdateTimestamp) ∧
        t - 1 / 100 < r.temperature ∧ r.temperature ≤ t) ∧
    ∀ (s₁ s₂ : Sample) (t₁ t₂ : Rat), InRange t₁ → InRange t₂ → t₁ ≤ t₂ →
      ∀ r₁ r₂, unpack (pack (s₁.atTemperature t₁)) = .ok r₁ →
        unpack (pack (s₂.atTemperature t₂)) = .ok r₂ →
          r₁.temperature ≤ r₂.temperature := by
  refine ⟨?_, ?_⟩
  · intro s t ht
    obtain ⟨r, hr, _⟩ := unpack_atTemperature s t
    have htemp := temperature_floor ht hr
    have hle := Int.floor_le (scaled t)
    have hlt := Int.lt_floor_add_one (scaled t)
    refine ⟨r, hr, by rw [createMeasurement, hr]; rfl, ?_, ?_⟩
    · rw [htemp]
      unfold scaled at hlt ⊢
      linarith
    · rw [htemp]
      unfold scaled at hle ⊢
      linarith
  · intro s₁ s₂ t₁ t₂ h₁ h₂ hle r₁ r₂ hr₁ hr₂
    have hscaled : scaled t₁ ≤ scaled t₂ := by
      unfold scaled
      linarith
    have hfloor : (⌊scaled t₁⌋ : Rat) ≤ ⌊scaled t₂⌋ :=
      Int.cast_le.mpr (Int.floor_le_floor hscaled)
    rw [temperature_floor h₁ hr₁, temperature_floor h₂ hr₂]
    linarith

/-- At 100 degrees the `int` is negative. -/
theorem temperature_survives_hot :
    (convertTemp 100).toInt < 0 ∧
      ∃ r, unpack (pack ((⟨0, 0, 0, 0, 0, 0, 0, 0⟩ : Sample).atTemperature 100)) = .ok r ∧
        100 - 1 / 100 < r.temperature ∧ r.temperature ≤ 100 := by
  obtain ⟨r, hr, _, hlo, hhi⟩ := (temperature_survives [] []).1
    ⟨0, 0, 0, 0, 0, 0, 0, 0⟩ 100 (by unfold InRange; norm_num)
  exact ⟨by decide +kernel, r, hr, hlo, hhi⟩

end NbIot
