import NbIot.Agent.Routes
import NbIot.Lib.Run
import Mathlib.Logic.Function.Basic

/-!
# The platform, as far as the agent can tell

Only what the agent relies on. The operator accepts a device, which lets one
poll return a password; the password replaces the one the device's user had.
It is fresh, that is, nobody has been given or has presented it before. A call
with a user's current password can succeed, any call can fail, and an object
is always added, under an id of its own.
-/

namespace NbIot

structure Cumulocity where
  accepted : List JString := []
  /-- The acceptances whose password has not been released. -/
  pending : List JString := []
  credentials : JString → Option JString := fun _ => none
  /-- The passwords that have been released or presented. -/
  seen : List JString := []
  inventory : List (Line × ManagedObject) := []

namespace Cumulocity

def accept (c : Cumulocity) (deviceId : JString) : Option Cumulocity :=
  if deviceId ∈ c.pending then none
  else some { c with accepted := deviceId :: c.accepted
                     pending := deviceId :: c.pending }

def revoke (c : Cumulocity) (deviceId : JString) : Cumulocity :=
  { c with credentials := Function.update c.credentials (username deviceId) none }

def release (c : Cumulocity) (deviceId password : JString) : Cumulocity :=
  { c with
    pending := c.pending.erase deviceId
    credentials :=
      Function.update c.credentials (username deviceId) (some password)
    seen := password :: c.seen }

def present (c : Cumulocity) (password : JString) : Cumulocity :=
  { c with seen := password :: c.seen }

/-- The platform answers a call; `none` where it would not answer so. -/
def call (c : Cumulocity) : PlatformCall → Option Cumulocity
  | .pollCredentials _ none => some c
  | .pollCredentials deviceId (some password) =>
      if deviceId ∈ c.pending ∧ password.text ∉ c.seen then
        some (c.release deviceId password.text)
      else none
  | .createObject _ _ _ none => some c
  | .createObject user password mo (some id) =>
      if c.credentials user = some password ∧
          id.text ∉ c.inventory.map (·.1.text) then
        some { c with inventory := c.inventory ++ [(id, mo)] }
      else none
  | .createMeasurement user password _ stored =>
      if stored = true → c.credentials user = some password then
        some (c.present password)
      else none

/-! ## What the calls of one message do -/

/-- The platform after a registration that was given a password. -/
def enroll (c : Cumulocity) (deviceId password : JString) (create : Option Line) :
    Cumulocity :=
  { c.release deviceId password with
    inventory := c.inventory ++
      (create.map fun id => (id, sodaqDevice deviceId)).toList }

theorem run_push {c c' : Cumulocity} {user password : JString}
    {m : MeasurementRepresentation} {stored : Bool} :
    Lib.run call c [.createMeasurement user password m stored] = some c' ↔
      (stored = true → c.credentials user = some password) ∧
        c' = c.present password := by
  rw [Lib.run_cons]
  simp only [call, Lib.run, Option.some.injEq]
  refine ⟨?_, fun h => ⟨_, if_pos h.1, h.2.symm⟩⟩
  intro h
  obtain ⟨t, ht, hc⟩ := h
  split at ht
  · rename_i hok
    injection ht with ht
    exact ⟨hok, by rw [← hc, ← ht]⟩
  · cases ht

theorem run_register_none {c c' : Cumulocity} {deviceId : JString}
    {create : Option Line}
    (h : Lib.run call c (registerCalls deviceId none create) = some c') :
    c' = c := by
  rw [registerCalls, Lib.run_cons] at h
  obtain ⟨t, ht, hc⟩ := h
  rw [call] at ht
  injection ht with ht
  injection hc with hc
  rw [← hc, ← ht]

theorem run_register_some {c c' : Cumulocity} {deviceId : JString}
    {password : Line} {create : Option Line}
    (h : Lib.run call c (registerCalls deviceId (some password) create) = some c') :
    deviceId ∈ c.pending ∧ password.text ∉ c.seen ∧
      c' = c.enroll deviceId password.text create := by
  rw [registerCalls, Lib.run_cons] at h
  obtain ⟨t, ht, hrest⟩ := h
  rw [call] at ht
  split at ht
  · rename_i hok
    injection ht with ht
    refine ⟨hok.1, hok.2, ?_⟩
    obtain ⟨u, hu, hc⟩ := Lib.run_cons.mp hrest
    injection hc with hc
    rw [← hc]
    cases create with
    | none =>
        injection hu with hu
        rw [← hu, ← ht]
        simp [enroll, release]
    | some id =>
        rw [call] at hu
        split at hu
        · injection hu with hu
          rw [← hu, ← ht]
          simp [enroll, release]
        · cases hu
  · cases ht

theorem run_enroll {c : Cumulocity} {deviceId : JString} {password id : Line}
    (hpending : deviceId ∈ c.pending) (hpassword : password.text ∉ c.seen)
    (hid : id.text ∉ c.inventory.map (·.1.text)) :
    Lib.run call c (registerCalls deviceId (some password) (some id)) =
      some (c.enroll deviceId password.text (some id)) := by
  refine Lib.run_cons.mpr ⟨c.release deviceId password.text, ?_, ?_⟩
  · rw [call, if_pos ⟨hpending, hpassword⟩]
  refine Lib.run_cons.mpr ⟨_, ?_, rfl⟩
  have hcredentials : (c.release deviceId password.text).credentials (username deviceId) =
      some password.text := Function.update_self _ _ _
  rw [call, if_pos ⟨hcredentials, hid⟩]
  rfl

end Cumulocity

end NbIot
