import NbIot.Agent.Exchange
import NbIot.Cloud.Cumulocity

/-!
# The agent in front of the platform

The product of the two machines. A step of the agent is possible when the
platform can give the answers it was made with, and the operator may act in
between.
-/

namespace NbIot

structure Backend where
  agent : Agent := {}
  cumulocity : Cumulocity := {}

inductive BackendAction where
  | agent (act : AgentAction)
  | accept (deviceId : JString)
  | revoke (deviceId : JString)

namespace Backend

/-- The platform calls between two states of the agent. -/
def callsSince (before after : Agent) : List PlatformCall :=
  (after.calls.map (·.body)).drop before.calls.length

def step (b : Backend) : BackendAction → Option Backend
  | .agent act => do
      let agent ← b.agent.step act
      let cumulocity ←
        Lib.run Cumulocity.call b.cumulocity (callsSince b.agent agent)
      return { agent, cumulocity }
  | .accept deviceId => do
      return { b with cumulocity := ← b.cumulocity.accept deviceId }
  | .revoke deviceId =>
      some { b with cumulocity := b.cumulocity.revoke deviceId }

end Backend

/-- A step of the two machines, with the agent seen as exchanges. -/
inductive Change (xs : List Exchange) (c : Cumulocity) :
    BackendAction → List PlatformCall → List Exchange → Cumulocity → Prop where
  | agent {act : AgentAction} {made : List PlatformCall} {ys : List Exchange}
      {c' : Cumulocity} (hmove : Moves xs act made ys)
      (hcalls : Lib.run Cumulocity.call c made = some c') :
      Change xs c (.agent act) made ys c'
  | accept (deviceId : JString) (hpending : deviceId ∉ c.pending) :
      Change xs c (.accept deviceId) [] xs { c with
        accepted := deviceId :: c.accepted, pending := deviceId :: c.pending }
  | revoke (deviceId : JString) :
      Change xs c (.revoke deviceId) [] xs (c.revoke deviceId)

/-- What a change can have done to the platform. -/
theorem Change.platform {xs ys : List Exchange} {c c' : Cumulocity}
    {act : BackendAction} {made : List PlatformCall}
    (h : Change xs c act made ys c') :
    (∃ seen, c.seen ⊆ seen ∧ c' = { c with seen }) ∨
      (∃ deviceId, act = .accept deviceId ∧ c' = { c with
        accepted := deviceId :: c.accepted, pending := deviceId :: c.pending }) ∨
      (∃ deviceId, act = .revoke deviceId ∧ c' = c.revoke deviceId) ∨
      ∃ (deviceId : JString) (password : Line) (create : Option Line),
        made = registerCalls deviceId (some password) create ∧
        deviceId ∈ c.pending ∧ password.text ∉ c.seen ∧
        c' = c.enroll deviceId password.text create := by
  have hsame : c' = c → ∃ seen, c.seen ⊆ seen ∧ c' = { c with seen } :=
    fun hc => ⟨c.seen, fun _ hmem => hmem, hc⟩
  cases h with
  | accept deviceId hpending => exact Or.inr (Or.inl ⟨deviceId, rfl, rfl⟩)
  | revoke deviceId => exact Or.inr (Or.inr (Or.inl ⟨deviceId, rfl, rfl⟩))
  | agent hmove hcalls =>
      cases hmove with
      | receive d w hask hw =>
          injection hcalls with hcalls
          exact Or.inl (hsame hcalls.symm)
      | encode i hx hans hr =>
          injection hcalls with hcalls
          exact Or.inl (hsame hcalls.symm)
      | push i stored hx hw =>
          exact Or.inl ⟨_, List.subset_cons_self _ _, (Cumulocity.run_push.mp hcalls).2⟩
      | @register o x id i poll create hx hw =>
          cases poll with
          | none => exact Or.inl (hsame (Cumulocity.run_register_none hcalls))
          | some password =>
              obtain ⟨hpending, hfresh, hc⟩ := Cumulocity.run_register_some hcalls
              exact Or.inr (Or.inr (Or.inr
                ⟨id.text, password, create, rfl, hpending, hfresh, hc⟩))

namespace Backend

/-- Every step of the backend is a change of its exchanges and its platform. -/
theorem step_change {b b' : Backend} {xs : List Exchange}
    (href : Refines b.agent xs) {act : BackendAction} (hs : b.step act = some b') :
    ∃ ys, Refines b'.agent ys ∧
      Change xs b.cumulocity act (callsSince b.agent b'.agent) ys b'.cumulocity := by
  have hnone : callsSince b.agent b.agent = [] := by simp [callsSince]
  cases act with
  | agent act =>
      obtain ⟨a, ha, hrest⟩ := Option.bind_eq_some_iff.mp hs
      obtain ⟨c, hc, hb⟩ := Option.bind_eq_some_iff.mp hrest
      obtain ⟨made, ys, hmove, hys, hcalls⟩ := href.step ha
      have hsince : callsSince b.agent a = made := by
        rw [callsSince, hcalls, ← List.length_map (f := Lib.Tagged.body),
          List.drop_left]
      injection hb with hb
      rw [← hb, hsince]
      exact ⟨ys, hys, .agent hmove (hsince ▸ hc)⟩
  | accept deviceId =>
      obtain ⟨c, hc, hb⟩ := Option.bind_eq_some_iff.mp hs
      injection hb with hb
      unfold Cumulocity.accept at hc
      split at hc
      · cases hc
      · rename_i hpending
        injection hc with hc
        rw [← hb, hnone, ← hc]
        exact ⟨xs, href, .accept deviceId hpending⟩
  | revoke deviceId =>
      injection hs with hs
      rw [← hs, hnone]
      exact ⟨xs, href, .revoke deviceId⟩

/-- The invariant rule: what every change keeps, a run keeps. -/
theorem run_invariant {inv : List Exchange → Cumulocity → Prop}
    (hchange : ∀ xs c act made ys c', inv xs c → Change xs c act made ys c' →
      inv ys c')
    (hinit : inv [] {}) {acts : List BackendAction} {b : Backend}
    (hrun : Lib.run step {} acts = some b) :
    ∃ xs, Refines b.agent xs ∧ inv xs b.cumulocity := by
  have hstep : ∀ (s : Backend) act t,
      (∃ xs, Refines s.agent xs ∧ inv xs s.cumulocity) → s.step act = some t →
      ∃ ys, Refines t.agent ys ∧ inv ys t.cumulocity := by
    intro s act t ⟨xs, href, hinv⟩ hs
    obtain ⟨ys, hys, hc⟩ := step_change href hs
    exact ⟨ys, hys, hchange xs _ act _ ys _ hinv hc⟩
  exact Lib.run_invariant hstep ⟨[], Refines.init, hinit⟩ hrun

end Backend

end NbIot
