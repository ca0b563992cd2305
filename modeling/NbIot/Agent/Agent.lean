import NbIot.Agent.Routes
import NbIot.Lib.Run
import NbIot.Lib.Tagged

/-!
# The agent as a state machine

Four routes around three queues. The consumers run concurrently, so a step
takes any message of a queue, not the oldest. A message goes back to one
datagram, and carries its number as a tag the code does not have; nothing
below looks at a tag except to copy it. The lists `received`, `calls`,
`published` and `sent` only grow. They are there to talk about a run.
-/

namespace NbIot

open Lib (Tagged takeAt)

structure Agent where
  /-- Set by `decode` when the first datagram arrives. -/
  ctx : Bool := false
  measurementQueue : List (Tagged JString) := []
  registerQueue : List (Tagged JString) := []
  credentialsQueue : List (Tagged JString) := []
  received : List Incoming := []
  calls : List (Tagged PlatformCall) := []
  published : List (Tagged JString) := []
  sent : List (Tagged Reply) := []

/-- A step of the agent: a datagram, or the message of a queue at an index
with the answers the platform gives while it is processed. -/
inductive AgentAction where
  | receive (d : Incoming)
  | push (i : Nat) (stored : Bool)
  | register (i : Nat) (poll create : Option Line)
  | encode (i : Nat)

namespace Agent

/-- Route 1. A datagram whose constructor throws goes no further. -/
def receive (a : Agent) (d : Incoming) : Agent :=
  let origin := a.received.length
  let a := { a with ctx := true, received := a.received ++ [d] }
  match d.route with
  | .ok (.measurement m) =>
      { a with measurementQueue := a.measurementQueue ++ [⟨origin, m⟩] }
  | .ok (.register m) =>
      { a with registerQueue := a.registerQueue ++ [⟨origin, m⟩] }
  | _ => a

/-- The end of Routes 2 and 3: a body that is not blank is published. -/
def publish (a : Agent) (origin : Nat) :
    Java (JString × List PlatformCall) → Agent
  | .error _ => a
  | .ok (body, calls) =>
      let a := { a with calls := a.calls ++ calls.map (⟨origin, ·⟩) }
      if body ≠ [] then
        { a with credentialsQueue := a.credentialsQueue ++ [⟨origin, body⟩]
                 published := a.published ++ [⟨origin, body⟩] }
      else a

def push (a : Agent) (i : Nat) (stored : Bool) : Option Agent := do
  let (m, rest) ← takeAt a.measurementQueue i
  return { a with measurementQueue := rest }.publish m.origin
    (pushMeasurement stored m.body)

def register (a : Agent) (i : Nat) (poll create : Option Line) :
    Option Agent := do
  let (m, rest) ← takeAt a.registerQueue i
  return { a with registerQueue := rest }.publish m.origin
    (registerDevice poll create m.body)

/-- Route 4. Without a channel, `encode` waits. -/
def encode (a : Agent) (i : Nat) : Option Agent := do
  let (m, rest) ← takeAt a.credentialsQueue i
  if a.ctx then
    match route4 m.body with
    | .error _ => return { a with credentialsQueue := rest }
    | .ok reply =>
        return { a with credentialsQueue := rest
                        sent := a.sent ++ [⟨m.origin, reply⟩] }
  else none

def step (a : Agent) : AgentAction → Option Agent
  | .receive d => some (a.receive d)
  | .push i stored => a.push i stored
  | .register i poll create => a.register i poll create
  | .encode i => a.encode i

theorem push_queue {a b : Agent} {i : Nat} {stored : Bool}
    (h : a.push i stored = some b) :
    ∃ m, a.measurementQueue[i]? = some m ∧
      ∀ n ∈ a.measurementQueue, n = m ∨ n ∈ b.measurementQueue := by
  obtain ⟨⟨m, rest⟩, htake, hb⟩ := Option.bind_eq_some_iff.mp h
  injection hb with hb
  have hqueue : b.measurementQueue = rest := by
    rw [← hb]
    unfold publish
    split
    · rfl
    · split
      · rfl
      · rfl
  refine ⟨m, (Lib.takeAt_eq_some.mp htake).1, fun n hn => ?_⟩
  rw [hqueue]
  exact List.mem_cons.mp ((Lib.perm_of_takeAt htake).mem_iff.mp hn)

/-! ## The histories only grow -/

theorem publish_sent (a : Agent) (origin : Nat) (r : Java (JString × List PlatformCall)) :
    (a.publish origin r).sent = a.sent ∧ (a.publish origin r).received = a.received := by
  unfold publish
  split
  · exact ⟨rfl, rfl⟩
  · split
    · exact ⟨rfl, rfl⟩
    · exact ⟨rfl, rfl⟩

theorem step_histories {a b : Agent} {act : AgentAction} (h : a.step act = some b) :
    (∃ new, b.sent = a.sent ++ new) ∧
      (b.received = a.received ∨
        ∃ d, act = .receive d ∧ b.received = a.received ++ [d]) := by
  cases act with
  | receive d =>
      injection h with h
      rw [← h]
      unfold receive
      split
      · exact ⟨⟨[], by simp⟩, Or.inr ⟨d, rfl, rfl⟩⟩
      · exact ⟨⟨[], by simp⟩, Or.inr ⟨d, rfl, rfl⟩⟩
      · exact ⟨⟨[], by simp⟩, Or.inr ⟨d, rfl, rfl⟩⟩
  | push i stored =>
      obtain ⟨⟨m, rest⟩, _, hb⟩ := Option.bind_eq_some_iff.mp h
      injection hb with hb
      obtain ⟨hsent, hreceived⟩ := publish_sent { a with measurementQueue := rest }
        m.origin (pushMeasurement stored m.body)
      rw [← hb]
      exact ⟨⟨[], by simp [hsent]⟩, Or.inl hreceived⟩
  | register i poll create =>
      obtain ⟨⟨m, rest⟩, _, hb⟩ := Option.bind_eq_some_iff.mp h
      injection hb with hb
      obtain ⟨hsent, hreceived⟩ := publish_sent { a with registerQueue := rest }
        m.origin (registerDevice poll create m.body)
      rw [← hb]
      exact ⟨⟨[], by simp [hsent]⟩, Or.inl hreceived⟩
  | encode i =>
      obtain ⟨⟨m, rest⟩, _, hb⟩ := Option.bind_eq_some_iff.mp h
      simp only at hb
      split at hb
      · split at hb
        · injection hb with hb
          exact ⟨⟨[], by rw [← hb]; simp⟩, Or.inl (by rw [← hb])⟩
        · injection hb with hb
          exact ⟨⟨_, by rw [← hb]⟩, Or.inl (by rw [← hb])⟩
      · cases hb

theorem publish_calls (a : Agent) (o : Nat) (r : Java (JString × List PlatformCall)) :
    ∃ made, (a.publish o r).calls = a.calls ++ made.map (Tagged.mk o) ∧
      ∀ body calls, r = .ok (body, calls) → made = calls := by
  cases r with
  | error e => exact ⟨[], (List.append_nil _).symm, nofun⟩
  | ok result =>
      refine ⟨result.2, ?_, fun body calls h => by cases h; rfl⟩
      unfold publish
      simp only []
      split <;> rfl

theorem step_calls {a b : Agent} {act : AgentAction} (h : a.step act = some b) :
    ∃ new, b.calls = a.calls ++ new := by
  cases act with
  | receive d =>
      refine ⟨[], ?_⟩
      rw [← Option.some.inj h, List.append_nil]
      unfold receive
      split <;> rfl
  | push i stored =>
      obtain ⟨⟨m, rest⟩, _, hb⟩ := Option.bind_eq_some_iff.mp h
      obtain ⟨made, hcalls, _⟩ := publish_calls { a with measurementQueue := rest } m.origin
        (pushMeasurement stored m.body)
      exact ⟨_, by rw [← Option.some.inj hb]; exact hcalls⟩
  | register i poll create =>
      obtain ⟨⟨m, rest⟩, _, hb⟩ := Option.bind_eq_some_iff.mp h
      obtain ⟨made, hcalls, _⟩ := publish_calls { a with registerQueue := rest } m.origin
        (registerDevice poll create m.body)
      exact ⟨_, by rw [← Option.some.inj hb]; exact hcalls⟩
  | encode i =>
      obtain ⟨⟨m, rest⟩, _, hb⟩ := Option.bind_eq_some_iff.mp h
      refine ⟨[], ?_⟩
      rw [List.append_nil]
      simp only at hb
      split at hb
      · split at hb <;> rw [← Option.some.inj hb]
      · cases hb

end Agent

/-! ## A small device, to run -/

namespace Small

def line (n : Nat) : Line :=
  ⟨intToString n, intToString_ne_nil n, newline_not_mem_intToString n⟩

def phone : Sender := ⟨['h'], 5, by decide⟩

def noon : Timestamp := ⟨['t'], by decide⟩

/-- Device `d` asks for a registration. -/
def asks : Incoming := ⟨phone, [100, 10, 10, 1], noon⟩

end Small

end NbIot
