import NbIot.Lib.Run
import NbIot.Node.Sketch

/-!
# The send timer

`sendNextAt` is a time of the 32-bit clock, and the pass that reads it compares
it to the clock as a number. The two agree with the times since boot as long as
neither has wrapped without the other. When only the scheduled time has, the
node sends right away; when only the clock has, it is silent until the clock
comes round to the scheduled time. `is_timedout`, in the library of the same
node, subtracts instead, and is right at any time.
-/

namespace NbIot

open Lib (run Along)

/-- The node since boot: the time, and when it last set the time of the next
send. -/
structure Uptime where
  sketch : Sketch
  clock : Nat := 0
  sentAt : Option Nat := none

/-- The clock shows the two times on the same turn, or on a later turn but at a
later place. -/
def InStep (scheduled now : Nat) : Prop :=
  scheduled / 2 ^ 32 = now / 2 ^ 32 ∨
    scheduled / 2 ^ 32 < now / 2 ^ 32 ∧ scheduled % 2 ^ 32 < now % 2 ^ 32

instance (scheduled now : Nat) : Decidable (InStep scheduled now) :=
  inferInstanceAs (Decidable (_ ∨ _))

namespace Uptime

/-- The times of the passes are positive and never go back. -/
def Polls (u : Uptime) (p : Pass) : Prop := 0 < p.now ∧ u.clock ≤ p.now

instance (u : Uptime) (p : Pass) : Decidable (u.Polls p) :=
  inferInstanceAs (Decidable (_ ∧ _))

def step (u : Uptime) (p : Pass) : Option Uptime :=
  if u.Polls p then
    (u.sketch.loop p).map fun looped =>
      if u.sketch.due p.now then ⟨looped.sketch, p.now + p.took, some (p.now + p.took)⟩
      else ⟨looped.sketch, p.now, u.sentAt⟩
  else none

/-- The pass sends if and only if more than ten seconds are over. -/
def Timely (u : Uptime) (p : Pass) : Prop :=
  u.Polls p → ∀ e ∈ u.sentAt, u.sketch.due p.now = true ↔ 10000 < p.now - e

instance (u : Uptime) (p : Pass) : Decidable (u.Timely p) :=
  inferInstanceAs (Decidable (_ → _))

/-- The clock shows the scheduled time and the time of the pass in step. -/
def NotWrapped (u : Uptime) (p : Pass) : Prop :=
  u.Polls p → ∀ e ∈ u.sentAt, InStep (e + 10000) p.now

/-- What is compared is the scheduled time, as the clock will show it. -/
def Scheduled (u : Uptime) : Prop :=
  ∀ e ∈ u.sentAt, u.sketch.sendNextAt = millis (e + 10000) ∧ e ≤ u.clock

theorem scheduled_step {u v : Uptime} {p : Pass} (h : u.Scheduled)
    (hstep : u.step p = some v) : v.Scheduled := by
  unfold step at hstep
  split at hstep
  · rename_i hpolls
    obtain ⟨looped, hloop, hv⟩ := Option.map_eq_some_iff.mp hstep
    rcases Sketch.loop_cases hloop with ⟨hdue, rfl⟩ | ⟨hdue, replied, _, _, _, _, hnext⟩
    · rw [if_neg (by rw [hdue]; exact Bool.false_ne_true)] at hv
      rw [← hv]
      intro e he
      obtain ⟨hsend, hle⟩ := h e he
      exact ⟨hsend, Nat.le_trans hle hpolls.2⟩
    · rw [if_pos hdue] at hv
      rw [← hv]
      intro e he
      rw [← Option.some.inj he]
      refine ⟨?_, Nat.le_refl _⟩
      exact hnext.trans (BitVec.ofNat_add (p.now + p.took) 10000).symm
  · cases hstep

/-- The wrapped times compare as the times do exactly where they are in step. -/
theorem compare_iff {e now : Nat} (h : e ≤ now) :
    ((e + 10000) % 2 ^ 32 < now % 2 ^ 32 ↔ 10000 < now - e) ↔ InStep (e + 10000) now := by
  unfold InStep
  omega

theorem timely_iff_notWrapped {u : Uptime} (h : u.Scheduled) (p : Pass) :
    u.Timely p ↔ u.NotWrapped p := by
  refine forall_congr' fun hpolls => forall₂_congr fun e he => ?_
  obtain ⟨hsend, hle⟩ := h e he
  have hdue : u.sketch.due p.now = true ↔ (e + 10000) % 2 ^ 32 < p.now % 2 ^ 32 := by
    rw [Sketch.due, hsend, decide_eq_true_iff, millis, millis, BitVec.toNat_ofNat,
      BitVec.toNat_ofNat]
  rw [hdue]
  exact compare_iff (Nat.le_trans hle hpolls.2)

/-- However long the node runs, every pass sends when it should exactly when the
clock never shows a scheduled time and the time of a pass out of step. -/
theorem timely_run_iff (s : Sketch) (passes : List Pass) :
    Along Timely step { sketch := s } passes ↔
      Along NotWrapped step { sketch := s } passes := by
  refine Lib.along_congr Scheduled (fun u p v hu _ hstep => scheduled_step hu hstep)
    (fun u p hu _ => timely_iff_notWrapped hu p) ?_
    (Lib.along_of_forall (fun _ _ => trivial) _ passes)
  intro e he
  cases he

/-- One second after a pass the next one sends, and after twenty seconds none
does, when the clock wraps in between. -/
theorem wrapped_clock_misleads :
    ¬ Along Timely step { sketch := Small.booted }
        [Small.pass (2 ^ 32 - 10000) 5000 [] [], Small.pass (2 ^ 32 - 4000) 0 [] []] ∧
      ¬ Along Timely step { sketch := Small.booted }
        [Small.pass (2 ^ 32 - 20000) 0 [] [], Small.pass (2 ^ 32 + 5) 0 [] []] := by
  decide +kernel

end Uptime

end NbIot
