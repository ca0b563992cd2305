import Mathlib.Algebra.Group.Action.Defs
import Mathlib.Algebra.Order.BigOperators.Group.List
import Mathlib.Algebra.Order.Ring.Nat
import NbIot.Lib.Run
import NbIot.Node.AirQuality

/-!
# What the sensor says over a whole run

The standard is meant to be the mean of 150 readings. They are summed up in an `int`,
so it is the mean if and only if they sum up to less than 2^15, which is an average of
218 (`standard_is_mean_iff`). No window of the timer is reported twice
(`reported_once`), and a higher reading is never judged better, but for the step from
below 700 to exactly 700 (`worse_iff`).
-/

namespace NbIot

open Lib (Along along_congr along_good_iff along_of_forall run run_invariant)

/-- The sensor, the readings since the standard was last set, and what it should be. -/
structure Watched where
  sensor : AirQuality
  samples : List Nat
  mean : Int

namespace Watched

/-- The event sets the standard. -/
def Averages (w : Watched) : SensorEvent → Prop
  | .overflow _ => False
  | .slope => w.sensor.timerIndex = true ∧ w.samples.length = 150

def step (w : Watched) : SensorEvent → Option Watched
  | .overflow reading => some { w with sensor := w.sensor.isr reading }
  | .slope =>
      let sensor := w.sensor.slope.2
      if w.sensor.timerIndex then
        if w.samples.length = 150 then some ⟨sensor, [], (w.samples.sum / 150 : Nat)⟩
        else some { w with sensor, samples := w.samples ++ [w.sensor.firstVol.toNat] }
      else some { w with sensor }

/-- What always holds: readings have ten bits, and the sum is kept in sixteen. -/
structure Tracks (w : Watched) : Prop where
  first_lt : w.sensor.firstVol.toNat < 1024
  last_lt : w.sensor.lastVol.toNat < 1024
  count : w.sensor.i.toNat = w.samples.length
  count_le : w.samples.length ≤ 150
  samples_lt : ∀ v ∈ w.samples, v < 1024
  sum : w.sensor.temp = .ofNat 16 w.samples.sum

/-- The standard is what it should be. -/
def Exact (w : Watched) : Prop := w.sensor.volStandard.toInt = w.mean

theorem int_lt (reading : Analog) : reading.int.toNat = reading.val := by
  rw [Analog.int, BitVec.toNat_ofNat]
  omega

/-- What a step can do: the interrupt, or a call of `slope` that has nothing to say,
sets the standard, or adds to the sum. -/
inductive Steps (w : Watched) : SensorEvent → Watched → Prop where
  | overflow (reading : Analog) :
      Steps w (.overflow reading) { w with sensor := w.sensor.isr reading }
  | idle (hflag : w.sensor.timerIndex = false) : Steps w .slope w
  | average (hflag : w.sensor.timerIndex = true) (hwindow : w.samples.length = 150) :
      Steps w .slope
        { sensor := { w.sensor with
            volStandard := .ofInt 32 (w.sensor.temp.toInt.tdiv 150)
            temp := 0
            i := 0
            timerIndex := false }
          samples := []
          mean := (w.samples.sum / 150 : Nat) }
  | add (hflag : w.sensor.timerIndex = true) (hwindow : w.samples.length ≠ 150) :
      Steps w .slope
        { w with
          sensor := { w.sensor with
            temp := w.sensor.temp + w.sensor.firstVol
            i := w.sensor.i + 1
            timerIndex := false }
          samples := w.samples ++ [w.sensor.firstVol.toNat] }

theorem step_steps {w w' : Watched} {event : SensorEvent} (hw : w.Tracks)
    (hstep : w.step event = some w') : Steps w event w' := by
  have hfull : w.sensor.i = 150 ↔ w.samples.length = 150 := by
    rw [← hw.count]
    exact ⟨fun h => congrArg BitVec.toNat h, fun h => BitVec.eq_of_toNat_eq h⟩
  cases event with
  | overflow reading =>
      injection hstep with hstep
      exact hstep ▸ .overflow reading
  | slope =>
      rw [step, AirQuality.slope] at hstep
      cases hflag : w.sensor.timerIndex with
      | false =>
          simp only [hflag, Bool.false_eq_true, if_false] at hstep
          injection hstep with hstep
          exact hstep ▸ .idle hflag
      | true =>
          simp only [hflag, if_true] at hstep
          by_cases hwindow : w.samples.length = 150
          · rw [if_pos hwindow, AirQuality.avgVoltage, if_pos (hfull.mpr hwindow)] at hstep
            injection hstep with hstep
            exact hstep ▸ .average hflag hwindow
          · rw [if_neg hwindow, AirQuality.avgVoltage, if_neg (mt hfull.mp hwindow)] at hstep
            injection hstep with hstep
            exact hstep ▸ .add hflag hwindow

theorem step_tracks {w w' : Watched} {event : SensorEvent} (hw : w.Tracks)
    (hstep : w.step event = some w') : w'.Tracks := by
  have hcount := hw.count
  have hle := hw.count_le
  cases step_steps hw hstep with
  | overflow reading =>
      have hlt := int_lt reading
      unfold AirQuality.isr
      split
      · exact ⟨by show reading.int.toNat < 1024; omega, hw.first_lt, hcount, hle,
          hw.samples_lt, hw.sum⟩
      · exact ⟨hw.first_lt, hw.last_lt, hcount, hle, hw.samples_lt, hw.sum⟩
  | idle hflag => exact hw
  | average hflag hwindow =>
      exact ⟨hw.first_lt, hw.last_lt, rfl, Nat.zero_le _, fun _ h => absurd h List.not_mem_nil,
        rfl⟩
  | add hflag hwindow =>
      refine ⟨hw.first_lt, hw.last_lt, ?_, ?_, ?_, ?_⟩
      · show (w.sensor.i + 1).toNat = (w.samples ++ [w.sensor.firstVol.toNat]).length
        rw [List.length_append, List.length_singleton, BitVec.toNat_add, hcount]
        exact Nat.mod_eq_of_lt (show w.samples.length + 1 < 2 ^ 16 by omega)
      · show (w.samples ++ [w.sensor.firstVol.toNat]).length ≤ 150
        rw [List.length_append, List.length_singleton]
        omega
      · intro v hv
        rcases List.mem_append.mp hv with hv | hv
        · exact hw.samples_lt v hv
        · rw [List.mem_singleton.mp hv]
          exact hw.first_lt
      · show w.sensor.temp + w.sensor.firstVol = _
        rw [hw.sum, List.sum_append, List.sum_singleton, BitVec.ofNat_add, BitVec.ofNat_toNat,
          BitVec.setWidth_eq]

/-- The division of the language rounds towards zero. -/
theorem tdiv_cases (x : Int) :
    0 ≤ x ∧ x.tdiv 150 = x / 150 ∨ x < 0 ∧ x.tdiv 150 = -(-x / 150) := by
  rcases Int.lt_or_le x 0 with hneg | hpos
  · refine Or.inr ⟨hneg, ?_⟩
    rw [← Int.tdiv_eq_ediv_of_nonneg (by omega), Int.neg_tdiv, Int.neg_neg]
  · exact Or.inl ⟨hpos, Int.tdiv_eq_ediv_of_nonneg hpos⟩

/-- The mean of a sum that is kept in an `int`. -/
theorem mean_iff {total : Nat} (hle : total ≤ 153450) :
    (BitVec.ofInt 32 ((BitVec.ofNat 16 total).toInt.tdiv 150)).toInt =
        ((total / 150 : Nat) : Int) ↔ total < 32768 := by
  have hsum := BitVec.toInt_eq_toNat_cond (BitVec.ofNat 16 total)
  have hlt := (BitVec.ofNat 16 total).isLt
  have hmod : (BitVec.ofNat 16 total).toNat = total % 65536 := BitVec.toNat_ofNat ..
  have hquotient := tdiv_cases (BitVec.ofNat 16 total).toInt
  generalize (BitVec.ofNat 16 total).toInt = x at *
  have hmean : (BitVec.ofInt 32 (x.tdiv 150)).toInt = x.tdiv 150 := by
    rw [BitVec.toInt_ofInt, Int.bmod_def]
    split at hsum <;> split <;> omega
  rw [hmean]
  split at hsum <;> omega

theorem step_exact_iff {w w' : Watched} {event : SensorEvent} (hw : w.Tracks)
    (hexact : w.Exact) (hstep : w.step event = some w') :
    w'.Exact ↔ (w.Averages event → w.samples.sum < 32768) := by
  cases step_steps hw hstep with
  | overflow reading =>
      refine iff_of_true ?_ fun h => h.elim
      unfold Exact AirQuality.isr
      split <;> exact hexact
  | idle hflag =>
      refine iff_of_true hexact fun h => ?_
      rw [h.1] at hflag
      cases hflag
  | average hflag hwindow =>
      have hle := List.sum_le_card_nsmul w.samples 1023
        fun v hv => Nat.le_of_lt_succ (hw.samples_lt v hv)
      rw [hwindow, smul_eq_mul] at hle
      show (BitVec.ofInt 32 (w.sensor.temp.toInt.tdiv 150)).toInt =
        ((w.samples.sum / 150 : Nat) : Int) ↔ _
      rw [hw.sum, mean_iff hle]
      exact ⟨fun h _ => h, fun h => h ⟨hflag, hwindow⟩⟩
  | add hflag hwindow => exact iff_of_true hexact fun h => absurd h.2 hwindow

/-- A sensor that has just been started. -/
def start (sensor : AirQuality) : Watched := ⟨sensor, [], sensor.volStandard.toInt⟩

end Watched

namespace AirQuality

/-- What `init` leaves: nothing was summed up yet. -/
structure Started (a : AirQuality) : Prop where
  first_lt : a.firstVol.toNat < 1024
  last_lt : a.lastVol.toNat < 1024
  standard : a.volStandard.toInt = a.firstVol.toNat
  count : a.i = 0
  sum : a.temp = 0
  counter : a.counter = 0
  flag : a.timerIndex = false

theorem initLoop_started {i : UInt8} {v : Analog} {a b : AirQuality} {readings : List Analog}
    (ha : a.Started) (h : initLoop i v a readings = some b) : b.Started := by
  induction readings generalizing i v a with
  | nil =>
      rw [initLoop] at h
      split at h
      · cases h
        exact ha
      · cases h
  | cons r readings ih =>
      have hr : r.int.toNat < 1024 := by
        rw [Watched.int_lt]
        exact r.isLt
      rw [initLoop] at h
      split at h
      · cases h
        exact ha
      split at h
      · cases h
        refine ⟨hr, hr, ?_, ha.count, ha.sum, ha.counter, ha.flag⟩
        show (r.int.signExtend 32).toInt = r.int.toNat
        rw [BitVec.toInt_signExtend_of_le (by decide), BitVec.toInt_eq_toNat_cond]
        exact if_pos (by omega)
      split at h
      · split at h
        · exact ih (a := { a with error := true })
            ⟨ha.first_lt, ha.last_lt, ha.standard, ha.count, ha.sum, ha.counter, ha.flag⟩ h
        · exact ih ha h
      · cases h
        exact ha

theorem init_started {readings : List Analog} {a : AirQuality}
    (h : init {} readings = some a) : a.Started := by
  cases readings with
  | nil => cases h
  | cons v readings =>
      refine initLoop_started ⟨?_, ?_, rfl, rfl, rfl, rfl, rfl⟩ h
      all_goals exact Nat.zero_lt_succ _

end AirQuality

namespace Watched

theorem start_tracks {a : AirQuality} (ha : a.Started) : (start a).Tracks :=
  ⟨ha.first_lt, ha.last_lt, congrArg BitVec.toNat ha.count, Nat.zero_le _,
    fun _ h => absurd h List.not_mem_nil, ha.sum⟩

theorem step_isSome (w : Watched) (event : SensorEvent) : (w.step event).isSome := by
  cases event with
  | overflow reading => rfl
  | slope =>
      rw [step]
      split
      · split <;> rfl
      · rfl

/-- In every run the standard is the mean of the readings it was computed from if and
only if they always summed up to less than 2^15. -/
theorem standard_is_mean_iff {readings : List Analog} {a : AirQuality}
    (hinit : AirQuality.init {} readings = some a) (events : List SensorEvent) :
    Along (fun w event => ∀ w' ∈ w.step event, w'.Exact) step (start a) events ↔
      Along (fun w event => w.Averages event → w.samples.sum < 32768) step (start a)
        events := by
  have hstart := start_tracks (AirQuality.init_started hinit)
  refine (along_good_iff Tracks (fun w event w' hw _ hstep => step_tracks hw hstep)
    (fun w event w' hw hexact _ hstep => step_exact_iff hw hexact hstep) hstart rfl
    (along_of_forall (fun _ _ => trivial) _ _)).trans ?_
  simp only [step_isSome, true_imp_iff]

/-! ## Clean air -/

/-- The readings are low enough for 150 of them to be added up. -/
structure Clean (w : Watched) : Prop extends w.Tracks where
  first_le : w.sensor.firstVol.toNat ≤ 218
  samples_le : ∀ v ∈ w.samples, v ≤ 218

def Low : SensorEvent → Prop
  | .overflow reading => reading.val ≤ 218
  | .slope => True

theorem step_clean {w w' : Watched} {event : SensorEvent} (hw : w.Clean) (hlow : Low event)
    (hstep : w.step event = some w') : w'.Clean := by
  refine ⟨step_tracks hw.toTracks hstep, ?_, ?_⟩
  · cases step_steps hw.toTracks hstep with
    | overflow reading =>
        show (w.sensor.isr reading).firstVol.toNat ≤ 218
        unfold AirQuality.isr
        split
        · show reading.int.toNat ≤ 218
          rw [int_lt]
          exact hlow
        · exact hw.first_le
    | idle hflag => exact hw.first_le
    | average hflag hwindow => exact hw.first_le
    | add hflag hwindow => exact hw.first_le
  · cases step_steps hw.toTracks hstep with
    | overflow reading => exact hw.samples_le
    | idle hflag => exact hw.samples_le
    | average hflag hwindow => exact fun v hv => absurd hv List.not_mem_nil
    | add hflag hwindow =>
        intro v hv
        rcases List.mem_append.mp hv with hv | hv
        · exact hw.samples_le v hv
        · rw [List.mem_singleton.mp hv]
          exact hw.first_le

/-- As long as no reading is above 218, the sum fits. -/
theorem sums_fit {w : Watched} (hw : w.Clean) {events : List SensorEvent}
    (hlow : ∀ event ∈ events, Low event) :
    Along (fun w event => w.Averages event → w.samples.sum < 32768) step w events := by
  refine (along_congr Clean (fun _ _ _ hw hlow hstep => step_clean hw hlow hstep)
    (fun v event hv _ => ?_) hw (Lib.along_of_forall_mem hlow w)).mpr
      (along_of_forall (fun _ _ => trivial) w events)
  refine iff_true_intro fun _ => ?_
  have hsum := List.sum_le_card_nsmul v.samples 218 hv.samples_le
  have hcount := hv.count_le
  rw [smul_eq_mul] at hsum
  omega

/-! ## One window -/

/-- The overflows of a window, and the call of `slope` that reports it. -/
def window (reading : Analog) : List SensorEvent :=
  List.replicate 62 (.overflow reading) ++ [.slope]

theorem run_overflows {w : Watched} {n : Nat} (hn : w.sensor.counter.toNat + n ≤ 61)
    (reading : Analog) :
    run step w (List.replicate n (.overflow reading)) =
      some { w with sensor := { w.sensor with
        counter := w.sensor.counter + .ofNat 16 n } } := by
  induction n generalizing w with
  | zero => simp [run]
  | succ n ih =>
      have hmore : w.sensor.counter ≠ 61 := by
        intro h
        rw [h] at hn
        exact absurd hn (by rw [show (61 : BitVec 16).toNat = 61 from rfl]; omega)
      have hnext : (w.sensor.counter + 1).toNat = w.sensor.counter.toNat + 1 := by
        rw [BitVec.toNat_add]
        exact Nat.mod_eq_of_lt (show w.sensor.counter.toNat + 1 < 2 ^ 16 by omega)
      show run step { w with sensor := w.sensor.isr reading } _ = _
      rw [AirQuality.isr, if_neg hmore]
      refine (ih ?_).trans ?_
      · show (w.sensor.counter + 1).toNat + n ≤ 61
        omega
      · have hsum : w.sensor.counter + 1 + BitVec.ofNat 16 n =
            w.sensor.counter + BitVec.ofNat 16 (n + 1) := by
          rw [BitVec.add_assoc, Nat.add_comm n 1, BitVec.ofNat_add]
          rfl
        simp only [hsum]

/-- A window is a call of `slope` with the flag set and the reading in place. -/
theorem run_window {w : Watched} (hcounter : w.sensor.counter = 0) (reading : Analog) :
    run step w (window reading) = step { w with sensor := { w.sensor with
      lastVol := w.sensor.firstVol, firstVol := reading.int, timerIndex := true } } .slope := by
  have hlast : ({ w.sensor with counter := 61 } : AirQuality).isr reading =
      { w.sensor with
        lastVol := w.sensor.firstVol, firstVol := reading.int, timerIndex := true } := by
    rw [AirQuality.isr, if_pos rfl, ← hcounter]
  have hfill := run_overflows (w := w) (n := 61) (by rw [hcounter]; decide) reading
  rw [hcounter] at hfill
  rw [window, List.replicate_succ', Lib.run_append_eq, Lib.run_append_eq, hfill]
  show run step { w with sensor := ({ w.sensor with counter := 61 } : AirQuality).isr reading }
    [.slope] = _
  rw [hlast]
  exact Option.bind_fun_some _

/-- Each window adds its reading to the sum, and the one after 150 sets the standard. -/
theorem window_counts {w : Watched} (hw : w.Tracks) (hcounter : w.sensor.counter = 0)
    (reading : Analog) :
    ∃ w', run step w (window reading) = some w' ∧ w'.Tracks ∧ w'.sensor.counter = 0 ∧
      (w.samples.length ≠ 150 → w'.samples = w.samples ++ [reading.val]) ∧
      (w.samples.length = 150 → w'.mean = (w.samples.sum / 150 : Nat)) := by
  let seen : Watched := { w with sensor := { w.sensor with
    lastVol := w.sensor.firstVol, firstVol := reading.int, timerIndex := true } }
  have hseen : seen.Tracks := by
    refine ⟨?_, hw.first_lt, hw.count, hw.count_le, hw.samples_lt, hw.sum⟩
    show reading.int.toNat < 1024
    rw [int_lt]
    exact reading.isLt
  obtain ⟨w', hstep⟩ := Option.isSome_iff_exists.mp (seen.step_isSome .slope)
  refine ⟨w', (run_window hcounter reading).trans hstep, step_tracks hseen hstep, ?_⟩
  cases step_steps hseen hstep with
  | idle hflag => cases hflag
  | average hflag hwindow => exact ⟨hcounter, fun hshort => absurd hwindow hshort, fun _ => rfl⟩
  | add hflag hwindow =>
      refine ⟨hcounter, fun _ => ?_, fun hfull => absurd hfull hwindow⟩
      show w.samples ++ [reading.int.toNat] = _
      rw [int_lt]

theorem window_low {reading : Analog} (h : reading.val ≤ 218) :
    ∀ event ∈ window reading, Low event := by
  intro event hevent
  rcases List.mem_append.mp hevent with hevent | hevent
  · rw [List.eq_of_mem_replicate hevent]
    exact h
  · rw [List.mem_singleton.mp hevent]
    trivial

/-- Some windows with one reading. -/
def windows (n : Nat) (reading : Analog) : List SensorEvent :=
  (List.replicate n (window reading)).flatten

theorem run_windows {w : Watched} (hw : w.Tracks) (hcounter : w.sensor.counter = 0)
    (reading : Analog) {n : Nat} (hn : w.samples.length + n ≤ 150) :
    ∃ w', run step w (windows n reading) = some w' ∧ w'.Tracks ∧ w'.sensor.counter = 0 ∧
      w'.samples = w.samples ++ List.replicate n reading.val := by
  induction n generalizing w with
  | zero => exact ⟨w, rfl, hw, hcounter, (List.append_nil _).symm⟩
  | succ n ih =>
      obtain ⟨v, hv, htracks, hzero, hadds, _⟩ := window_counts hw hcounter reading
      have hsamples := hadds (by omega)
      obtain ⟨w', hrun, htracks', hzero', hsamples'⟩ := ih htracks hzero (by
        rw [hsamples, List.length_append, List.length_singleton]
        omega)
      refine ⟨w', ?_, htracks', hzero', ?_⟩
      · rw [windows, List.replicate_succ, List.flatten_cons, Lib.run_append_eq, hv]
        exact hrun
      · rw [hsamples', hsamples, List.append_assoc, List.replicate_succ]
        rfl

/-- After 151 windows the standard is set to the reading. -/
theorem windows_average {w : Watched} (hw : w.Tracks) (hcounter : w.sensor.counter = 0)
    (hnone : w.samples = []) (reading : Analog) :
    ∃ w', run step w (windows 150 reading ++ window reading) = some w' ∧
      w'.mean = reading.val := by
  obtain ⟨v, hv, htracks, hzero, hsamples⟩ :=
    run_windows hw hcounter reading (n := 150) (by rw [hnone]; exact Nat.le_refl _)
  obtain ⟨w', hw', _, _, _, hmean⟩ := window_counts htracks hzero reading
  rw [hnone, List.nil_append] at hsamples
  refine ⟨w', Lib.run_append.mpr ⟨v, hv, hw'⟩, ?_⟩
  rw [hmean (by rw [hsamples, List.length_replicate]), hsamples, List.sum_replicate, smul_eq_mul,
    Nat.mul_div_cancel_left _ (by decide)]

end Watched

namespace AirQuality

/-! ## Each window once -/

def overflows (events : List SensorEvent) : Nat :=
  events.countP fun event => match event with
    | .overflow _ => true
    | .slope => false

theorem quality_nonneg (a : AirQuality) : 0 ≤ a.quality := by
  unfold quality
  split
  · exact Int.le_refl _
  split
  · decide
  split <;> decide

/-- The overflows that were counted and not reported. -/
def unreported (a : AirQuality) : Nat := a.counter.toNat + if a.timerIndex then 62 else 0

/-- An overflow is counted, or it ends the window that the flag then stands for. -/
theorem isr_unreported {a : AirQuality} (hcounter : a.counter.toNat ≤ 61) (reading : Analog) :
    (a.isr reading).counter.toNat ≤ 61 ∧
      (a.isr reading).unreported ≤ a.unreported + 1 := by
  unfold unreported isr
  split
  · rename_i hfull
    have hcounted : a.counter.toNat = 61 := congrArg BitVec.toNat hfull
    refine ⟨Nat.zero_le _, ?_⟩
    show 0 + 62 ≤ _
    omega
  · rename_i hmore
    have hne : a.counter.toNat ≠ 61 := fun h => hmore (BitVec.eq_of_toNat_eq h)
    have hnext : (a.counter + 1).toNat = a.counter.toNat + 1 := by
      rw [BitVec.toNat_add]
      exact Nat.mod_eq_of_lt (show a.counter.toNat + 1 < 2 ^ 16 by omega)
    simp only [hnext]
    omega

/-- A judgement takes back the flag, and with it a window. -/
theorem slope_unreported (a : AirQuality) :
    a.slope.2.counter = a.counter ∧
      62 * (if a.slope.1 ≠ -1 then 1 else 0) + a.slope.2.unreported ≤ a.unreported := by
  rw [slope]
  split
  · rename_i hflag
    have hquality := a.quality_nonneg
    have hkept : a.avgVoltage.counter = a.counter := by
      unfold avgVoltage
      split <;> rfl
    refine ⟨hkept, ?_⟩
    simp only [unreported, hkept, hflag, Bool.false_eq_true, if_false, if_true]
    split <;> omega
  · exact ⟨rfl, Nat.le_of_eq (Nat.zero_add _)⟩

theorem results_le (a : AirQuality) (hcounter : a.counter.toNat ≤ 61)
    (events : List SensorEvent) :
    62 * ((a.results events).filter (· ≠ -1)).length ≤ overflows events + a.unreported := by
  induction events generalizing a with
  | nil => exact Nat.zero_le _
  | cons event events ih =>
      cases event with
      | overflow reading =>
          obtain ⟨hnext, hstep⟩ := isr_unreported hcounter reading
          have hcount : overflows (.overflow reading :: events) = overflows events + 1 :=
            List.countP_cons_of_pos rfl
          have hrest := ih (a.isr reading) hnext
          rw [results, hcount]
          omega
      | slope =>
          obtain ⟨hkept, hstep⟩ := a.slope_unreported
          have hcount : overflows (.slope :: events) = overflows events :=
            List.countP_cons_of_neg Bool.false_ne_true
          have hrest := ih a.slope.2 (by rw [hkept]; exact hcounter)
          rw [results, hcount, List.filter_cons]
          split at hstep
          · rename_i hreported
            rw [if_pos (decide_eq_true hreported), List.length_cons]
            omega
          · rename_i hnone
            rw [if_neg (mt of_decide_eq_true hnone)]
            omega

/-- Every window of 62 overflows is reported once at most, however often `slope` is
called. -/
theorem reported_once {readings : List Analog} {a : AirQuality}
    (hinit : init {} readings = some a) (events : List SensorEvent) :
    62 * ((a.results events).filter (· ≠ -1)).length ≤ overflows events := by
  have hstart := init_started hinit
  have hle := results_le a (by rw [hstart.counter]; decide) events
  rw [unreported, hstart.counter, hstart.flag] at hle
  exact hle

/-! ## What is worse -/

/-- The ranges that the readings and the standard stay in. -/
structure Ranged (a : AirQuality) : Prop where
  first_lt : a.firstVol.toNat < 1024
  last_lt : a.lastVol.toNat < 1024
  standard_ge : -218 ≤ a.volStandard.toInt
  standard_le : a.volStandard.toInt ≤ 1023

theorem step_ranged {a b : AirQuality} {event : SensorEvent} (ha : a.Ranged)
    (hstep : a.step event = some b) : b.Ranged := by
  cases event with
  | overflow reading =>
      injection hstep with hstep
      subst hstep
      have hlt := Watched.int_lt reading
      unfold isr
      split
      · exact ⟨by show reading.int.toNat < 1024; omega, ha.first_lt, ha.standard_ge,
          ha.standard_le⟩
      · exact ⟨ha.first_lt, ha.last_lt, ha.standard_ge, ha.standard_le⟩
  | slope =>
      injection hstep with hstep
      subst hstep
      unfold slope
      split
      · unfold avgVoltage
        split
        · have hlo := BitVec.le_toInt a.temp
          have hhi := BitVec.toInt_lt (x := a.temp)
          have hquotient := Watched.tdiv_cases a.temp.toInt
          have hmean : (BitVec.ofInt 32 (a.temp.toInt.tdiv 150)).toInt =
              a.temp.toInt.tdiv 150 := by
            rw [BitVec.toInt_ofInt, Int.bmod_def]
            split <;> omega
          refine ⟨ha.first_lt, ha.last_lt, ?_, ?_⟩
          · show -218 ≤ (BitVec.ofInt 32 (a.temp.toInt.tdiv 150)).toInt
            omega
          · show (BitVec.ofInt 32 (a.temp.toInt.tdiv 150)).toInt ≤ 1023
            omega
        · exact ⟨ha.first_lt, ha.last_lt, ha.standard_ge, ha.standard_le⟩
      · exact ha

theorem rise_eq {a : AirQuality} (ha : a.Ranged) :
    a.rise = a.firstVol.toNat - a.lastVol.toNat := by
  have hfirst := ha.first_lt
  have hlast := ha.last_lt
  rw [rise, BitVec.toInt_eq_toNat_bmod, BitVec.toNat_sub, Int.bmod_def]
  split <;> omega

theorem excess_eq {a : AirQuality} (ha : a.Ranged) :
    a.excess = a.firstVol.toNat - a.volStandard.toInt := by
  have hfirst := ha.first_lt
  have hlo := ha.standard_ge
  have hhi := ha.standard_le
  have hword : (a.firstVol.signExtend 32).toInt = a.firstVol.toNat := by
    rw [BitVec.toInt_signExtend_of_le (by decide), BitVec.toInt_eq_toNat_cond]
    exact if_pos (by omega)
  rw [excess, BitVec.toInt_sub, hword, Int.bmod_def]
  split <;> omega

theorem started_ranged {a : AirQuality} (ha : a.Started) : a.Ranged := by
  have hfirst := ha.first_lt
  have hstandard := ha.standard
  exact ⟨hfirst, ha.last_lt, by omega, by omega⟩

/-- The four judgements. The rise that the second asks for is one of the first. -/
theorem quality_cases (a : AirQuality) :
    (400 < a.rise ∨ 700 < a.firstVol.toInt) ∧ a.quality = 0 ∨
      (a.rise ≤ 400 ∧ a.firstVol.toInt ≤ 700 ∧ 150 < a.excess) ∧ a.quality = 1 ∨
      (a.rise ≤ 400 ∧ a.firstVol.toInt ≤ 700 ∧ a.excess ≤ 150 ∧
        (200 < a.rise ∧ a.firstVol.toInt < 700 ∨ 50 < a.excess)) ∧ a.quality = 2 ∨
      (a.rise ≤ 400 ∧ a.firstVol.toInt ≤ 700 ∧ a.excess ≤ 50 ∧
        (a.rise ≤ 200 ∨ a.firstVol.toInt = 700)) ∧ a.quality = 3 := by
  unfold quality
  split
  · omega
  split
  · omega
  split <;> omega

/-- In every state of every run a higher reading is judged no better, unless it is
exactly 700 and the rise alone made a lower one bad. -/
theorem worse_iff {readings : List Analog} {a b : AirQuality}
    (hinit : init {} readings = some a) {events : List SensorEvent}
    (hrun : run step a events = some b) {r : Analog} (hle : b.firstVol.toNat ≤ r.val) :
    ({ b with firstVol := r.int } : AirQuality).quality ≤ b.quality ↔
      ¬ (r.val = 700 ∧ b.firstVol.toNat < 700 ∧ b.lastVol.toNat + 200 < b.firstVol.toNat ∧
        700 ≤ b.lastVol.toNat + 400 ∧ 700 ≤ b.volStandard.toInt + 50) := by
  have hb : b.Ranged := run_invariant (fun _ _ _ ha => step_ranged ha)
    (started_ranged (init_started hinit)) hrun
  have hr := r.isLt
  have hint := Watched.int_lt r
  generalize hhigher : ({ b with firstVol := r.int } : AirQuality) = c
  have hlast : c.lastVol = b.lastVol := by rw [← hhigher]
  have hstandard : c.volStandard = b.volStandard := by rw [← hhigher]
  have hfirst : c.firstVol.toNat = r.val := by
    rw [← hhigher]
    exact hint
  have hc : c.Ranged := by
    rw [← hhigher]
    exact ⟨by show r.int.toNat < 1024; omega, hb.last_lt, hb.standard_ge, hb.standard_le⟩
  have hword : ∀ d : AirQuality, d.Ranged → d.firstVol.toInt = d.firstVol.toNat := by
    intro d hd
    have hlt := hd.first_lt
    rw [BitVec.toInt_eq_toNat_cond]
    exact if_pos (by omega)
  have hjudged := b.quality_cases
  have hjudged' := c.quality_cases
  rw [rise_eq hb, excess_eq hb, hword b hb] at hjudged
  rw [rise_eq hc, excess_eq hc, hword c hc, hfirst, hlast, hstandard] at hjudged'
  omega

end AirQuality

/-! ## A small sensor, to run -/

namespace Small

/-- The sensor is ready at once, in clean air. -/
def sensor : AirQuality :=
  { volStandard := 100, firstVol := 100, lastVol := 100 }

theorem sensor_init : AirQuality.init {} [100, 100] = some sensor := by decide

end Small

/-- In air a little worse than at the start, the standard follows after 151 windows. -/
theorem clean_air_is_mean :
    ∃ w, run Watched.step (Watched.start Small.sensor)
        (Watched.windows 150 120 ++ Watched.window 120) = some w ∧ w.mean = 120 ∧
      Along (fun w event => ∀ w' ∈ w.step event, w'.Exact) Watched.step
        (Watched.start Small.sensor) (Watched.windows 150 120 ++ Watched.window 120) := by
  have htracks := Watched.start_tracks (AirQuality.init_started Small.sensor_init)
  have hclean : (Watched.start Small.sensor).Clean :=
    ⟨htracks, by decide, fun v hv => absurd hv List.not_mem_nil⟩
  have hwindow := Watched.window_low (show (120 : Analog).val ≤ 218 by decide)
  have hlow : ∀ event ∈ Watched.windows 150 120 ++ Watched.window 120, Watched.Low event := by
    intro event hevent
    rcases List.mem_append.mp hevent with hevent | hevent
    · obtain ⟨events, hwindows, hevent⟩ := List.mem_flatten.mp hevent
      rw [List.eq_of_mem_replicate hwindows] at hevent
      exact hwindow event hevent
    · exact hwindow event hevent
  obtain ⟨w, hrun, hmean⟩ := Watched.windows_average htracks rfl rfl 120
  exact ⟨w, hrun, hmean, (Watched.standard_is_mean_iff Small.sensor_init _).mpr
    (Watched.sums_fit hclean hlow)⟩

/-- The window is reported, by the best of the judgements. -/
theorem clean_air_once :
    (Small.sensor.results (Watched.window 100)).filter (· ≠ -1) = [3] ∧
      62 * ((Small.sensor.results (Watched.window 100)).filter (· ≠ -1)).length ≤
        AirQuality.overflows (Watched.window 100) :=
  ⟨by decide +kernel, AirQuality.reported_once Small.sensor_init _⟩

theorem clean_air_worse :
    ({ Small.sensor with firstVol := Analog.int 700 } : AirQuality).quality ≤
        Small.sensor.quality ↔
      ¬ ((700 : Analog).val = 700 ∧ Small.sensor.firstVol.toNat < 700 ∧
        Small.sensor.lastVol.toNat + 200 < Small.sensor.firstVol.toNat ∧
        700 ≤ Small.sensor.lastVol.toNat + 400 ∧
        700 ≤ Small.sensor.volStandard.toInt + 50) :=
  AirQuality.worse_iff Small.sensor_init (show run AirQuality.step _ [] = _ from rfl) (by decide)

end NbIot
