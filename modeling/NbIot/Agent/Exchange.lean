import NbIot.Agent.Agent

/-!
# One datagram, one exchange

What the agent is for, without its queues: every datagram opens an exchange
with its sender, and an exchange moves on its own. It is asked for a
registration or a push, or for nothing; the platform answers; if the outcome
is worth telling, one reply leaves. No step touches two exchanges, so no reply
can carry what another one learned. `Moves` is that machine.

The agent's queues and histories are views of the list of exchanges
(`Refines`). `Refines.step` is the simulation: whatever message a consumer
takes, the step it makes is a move of the exchange the message belongs to, and
the calls it makes are the calls of the move.
-/

namespace NbIot

open Lib (Tagged Tracks takeAt view)

/-- What a datagram with credentials and fourteen bytes carries. -/
structure Measurement where
  deviceId : Line
  password : Line
  cumulocityId : Line
  payload : Bytes
  length : payload.length = 14

/-- What an exchange is about, with the platform's answers once they are in. -/
inductive Work where
  | nothing
  | measurement (m : Measurement) (stored : Option Bool)
  | register (deviceId : Line) (answers : Option (Option Line × Option Line))

/-- What the agent tells a device. -/
inductive Answer where
  | reset
  | credentials (password cumulocityId : Line)

structure Exchange where
  incoming : Incoming
  work : Work
  replied : Bool

def Measurement.text (m : Measurement) (d : Incoming) : JString :=
  measurementText d.sender.host d.sender.port.toNat m.deviceId.text
    m.password.text m.cumulocityId.text d.now.text m.payload

def Measurement.readings (m : Measurement) : Readings :=
  (unpack m.payload).toOption.get (by
    obtain ⟨r, hr⟩ := exists_unpack m.length
    rw [hr]
    rfl)

def Measurement.call (m : Measurement) (d : Incoming) (stored : Bool) :
    PlatformCall :=
  .createMeasurement (username m.deviceId.text) m.password.text
    (m.readings.representation m.cumulocityId.text d.now.text) stored

namespace Answer

def message (s : Sender) : Answer → JString
  | reset => resetMessage s.host s.port.toNat
  | credentials password cumulocityId =>
      credentialsMessage s.host s.port.toNat password.text cumulocityId.text

/-- The answer on the wire. -/
def content : Answer → Bytes
  | reset => [10]
  | credentials password cumulocityId =>
      getBytes (password.text ++ ['\n'] ++ cumulocityId.text)

theorem route4_message (s : Sender) (ans : Answer) :
    route4 (ans.message s) = .ok ⟨s.host, s.port.toNat, ans.content⟩ := by
  cases ans with
  | reset => exact route4_resetMessage s.host_free
  | credentials password cumulocityId => exact route4_credentialsMessage s.host_free

theorem message_ne_nil (s : Sender) (ans : Answer) : ans.message s ≠ [] := by
  cases ans with
  | reset => simp [message, resetMessage]
  | credentials password cumulocityId => simp [message, credentialsMessage]

end Answer

def PlatformCall.isMeasurement : PlatformCall → Bool
  | .createMeasurement .. => true
  | .pollCredentials .. | .createObject .. => false

namespace Work

def answer : Work → Option Answer
  | measurement _ (some false) => some .reset
  | register _ (some (some password, some id)) => some (.credentials password id)
  | _ => none

def calls (d : Incoming) : Work → List PlatformCall
  | measurement m (some stored) => [m.call d stored]
  | register deviceId (some (poll, create)) =>
      registerCalls deviceId.text poll create
  | _ => []

theorem answer_eq_some {w : Work} {ans : Answer} (h : w.answer = some ans) :
    (∃ m, w = .measurement m (some false) ∧ ans = .reset) ∨
      ∃ deviceId password id, w = .register deviceId (some (some password, some id)) ∧
        ans = .credentials password id := by
  unfold Work.answer at h
  split at h
  · rename_i m
    injection h with h
    exact Or.inl ⟨m, rfl, h.symm⟩
  · rename_i deviceId password id
    injection h with h
    exact Or.inr ⟨deviceId, password, id, rfl, h.symm⟩
  · cases h

theorem measurement_of_mem {w : Work} {d : Incoming} {call : PlatformCall}
    (hmem : call ∈ w.calls d) (h : call.isMeasurement = true) :
    ∃ m stored, w = .measurement m (some stored) ∧ call = m.call d stored := by
  unfold Work.calls at hmem
  split at hmem
  · rename_i m stored
    exact ⟨m, stored, rfl, List.mem_singleton.mp hmem⟩
  · rename_i deviceId poll create
    cases poll with
    | none =>
        rw [List.mem_singleton.mp hmem] at h
        cases h
    | some password =>
        rcases List.mem_cons.mp hmem with rfl | hmem
        · cases h
        · rw [List.mem_singleton.mp hmem] at h
          cases h
  · cases hmem

/-- The platform has not been asked yet. -/
def untouched : Work → Bool
  | nothing | measurement _ none | register _ none => true
  | _ => false

theorem of_untouched {w : Work} (h : w.untouched = true) :
    w.answer = none ∧ ∀ d, w.calls d = [] := by
  cases w with
  | nothing => exact ⟨rfl, fun _ => rfl⟩
  | measurement m stored =>
      cases stored with
      | none => exact ⟨rfl, fun _ => rfl⟩
      | some b => cases h
  | register deviceId answers =>
      cases answers with
      | none => exact ⟨rfl, fun _ => rfl⟩
      | some r => cases h

end Work

def Measurement.packet (m : Measurement) (d : Incoming) : DataPacket where
  ipAddress := d.sender.host
  port := d.sender.port.toNat
  deviceId := m.deviceId.text
  password := m.password.text
  cumulocityId := m.cumulocityId.text
  payload := some m.payload
  creationdateTimestamp := some d.now.text

/-- Route 1 makes this work of the datagram. -/
def Asks (d : Incoming) : Work → Prop
  | .nothing =>
      ∀ m, d.route ≠ .ok (.measurement m) ∧ d.route ≠ .ok (.register m)
  | .measurement m _ =>
      d.packet = .ok (m.packet d) ∧ d.route = .ok (.measurement (m.text d))
  | .register deviceId _ =>
      (∃ pkt, d.packet = .ok pkt ∧ pkt.deviceId = deviceId.text) ∧
        d.route = .ok (.register
          (registerText d.sender.host d.sender.port.toNat deviceId.text))

namespace Exchange

def queuedMeasurement (x : Exchange) : Option JString :=
  match x.work with
  | .measurement m none => some (m.text x.incoming)
  | _ => none

def queuedRegister (x : Exchange) : Option JString :=
  match x.work with
  | .register deviceId none => some (registerText x.incoming.sender.host
      x.incoming.sender.port.toNat deviceId.text)
  | _ => none

/-- The message that is published for the exchange. -/
def message (x : Exchange) : Option JString :=
  x.work.answer.map (·.message x.incoming.sender)

def queuedAnswer (x : Exchange) : Option JString :=
  if x.replied then none else x.message

def reply (x : Exchange) : Option Reply :=
  if x.replied then
    x.work.answer.map fun ans =>
      ⟨x.incoming.sender.host, x.incoming.sender.port.toNat, ans.content⟩
  else none

theorem queuedMeasurement_eq_some {x : Exchange} {text : JString} :
    x.queuedMeasurement = some text ↔
      ∃ m, x.work = .measurement m none ∧ text = m.text x.incoming := by
  unfold Exchange.queuedMeasurement
  split
  · rename_i m hw
    rw [hw]
    simp [eq_comm]
  · rename_i hw
    refine iff_of_false (by simp) ?_
    intro ⟨m, hm, _⟩
    exact hw m hm

theorem queuedRegister_eq_some {x : Exchange} {text : JString} :
    x.queuedRegister = some text ↔
      ∃ id, x.work = .register id none ∧ text = registerText x.incoming.sender.host
        x.incoming.sender.port.toNat id.text := by
  unfold Exchange.queuedRegister
  split
  · rename_i id hw
    rw [hw]
    simp [eq_comm]
  · rename_i hw
    refine iff_of_false (by simp) ?_
    intro ⟨id, hm, _⟩
    exact hw id hm

theorem queuedAnswer_eq_some {x : Exchange} {text : JString} :
    x.queuedAnswer = some text ↔ x.replied = false ∧
      ∃ ans, x.work.answer = some ans ∧ text = ans.message x.incoming.sender := by
  unfold Exchange.queuedAnswer Exchange.message
  cases x.replied with
  | true => simp
  | false => simp [eq_comm]

theorem reply_eq_some {x : Exchange} {r : Reply} (h : x.reply = some r) :
    ∃ ans, x.work.answer = some ans ∧ x.replied = true ∧
      r = ⟨x.incoming.sender.host, x.incoming.sender.port.toNat, ans.content⟩ := by
  unfold Exchange.reply at h
  split at h
  · rename_i hreplied
    obtain ⟨ans, hans, hr⟩ := Option.map_eq_some_iff.mp h
    exact ⟨ans, hans, hreplied, hr.symm⟩
  · cases h

end Exchange

/-- A move of one exchange, with the platform calls it makes. -/
inductive Moves (xs : List Exchange) :
    AgentAction → List PlatformCall → List Exchange → Prop where
  | receive (d : Incoming) (w : Work) (hask : Asks d w)
      (hw : w.untouched = true) :
      Moves xs (.receive d) [] (xs ++ [⟨d, w, false⟩])
  | push {o : Nat} {x : Exchange} {m : Measurement} (i : Nat) (stored : Bool)
      (hx : xs[o]? = some x) (hw : x.work = .measurement m none) :
      Moves xs (.push i stored) [m.call x.incoming stored]
        (xs.set o { x with work := .measurement m (some stored) })
  | register {o : Nat} {x : Exchange} {deviceId : Line} (i : Nat)
      (poll create : Option Line) (hx : xs[o]? = some x)
      (hw : x.work = .register deviceId none) :
      Moves xs (.register i poll create)
        (registerCalls deviceId.text poll create)
        (xs.set o { x with work := .register deviceId (some (poll, create)) })
  | encode {o : Nat} {x : Exchange} {ans : Answer} (i : Nat)
      (hx : xs[o]? = some x) (hans : x.work.answer = some ans)
      (hr : x.replied = false) :
      Moves xs (.encode i) [] (xs.set o { x with replied := true })

/-! ## What one move can have done -/

namespace Moves

variable {xs ys : List Exchange} {act : AgentAction} {made : List PlatformCall}

/-- A move is about one exchange, and leaves the others alone. -/
theorem elsewhere (h : Moves xs act made ys) : ∃ p : Nat, ∀ o : Nat, o ≠ p → ys[o]? = xs[o]? := by
  cases h with
  | receive d w hask hw =>
      refine ⟨xs.length, fun o ho => ?_⟩
      rcases Nat.lt_or_gt_of_ne ho with hlt | hgt
      · exact List.getElem?_append_left hlt
      · rw [List.getElem?_eq_none (by simp; omega), List.getElem?_eq_none (by omega)]
  | @push p x m i stored hx hw =>
      exact ⟨p, fun o ho => List.getElem?_set_ne (Ne.symm ho)⟩
  | @register p x deviceId i poll create hx hw =>
      exact ⟨p, fun o ho => List.getElem?_set_ne (Ne.symm ho)⟩
  | @encode p x ans i hx hans hr =>
      exact ⟨p, fun o ho => List.getElem?_set_ne (Ne.symm ho)⟩

/-- An exchange that has its answers had them before the move, or was waiting
for them and got them in the calls of the move. -/
theorem finished (h : Moves xs act made ys) {o : Nat} {y : Exchange}
    (hy : ys[o]? = some y) (hdone : y.work.untouched = false) :
    ∃ x, xs[o]? = some x ∧ y.incoming = x.incoming ∧
      (x.replied = true → y.replied = true) ∧
      (y.work = x.work ∨
        (∃ m i stored, x.work = .measurement m none ∧
          y.work = .measurement m (some stored) ∧ act = .push i stored ∧
          made = [m.call x.incoming stored]) ∨
        ∃ id i poll create, x.work = .register id none ∧
          y.work = .register id (some (poll, create)) ∧
          act = .register i poll create ∧
          made = registerCalls id.text poll create) := by
  cases h with
  | receive d w hask hw =>
      rcases Lib.getElem?_concat_iff.mp hy with ⟨_, rfl⟩ | hy
      · rw [hw] at hdone
        cases hdone
      · exact ⟨y, hy, rfl, id, Or.inl rfl⟩
  | @push p x m i stored hx hw =>
      rcases (Lib.getElem?_set_iff hx).mp hy with ⟨rfl, rfl⟩ | ⟨_, hy⟩
      · exact ⟨x, hx, rfl, id, Or.inr (Or.inl ⟨m, i, stored, hw, rfl, rfl, rfl⟩)⟩
      · exact ⟨y, hy, rfl, id, Or.inl rfl⟩
  | @register p x device i poll create hx hw =>
      rcases (Lib.getElem?_set_iff hx).mp hy with ⟨rfl, rfl⟩ | ⟨_, hy⟩
      · exact ⟨x, hx, rfl, id,
          Or.inr (Or.inr ⟨device, i, poll, create, hw, rfl, rfl, rfl⟩)⟩
      · exact ⟨y, hy, rfl, id, Or.inl rfl⟩
  | @encode p x ans i hx hans hr =>
      rcases (Lib.getElem?_set_iff hx).mp hy with ⟨rfl, rfl⟩ | ⟨_, hy⟩
      · exact ⟨x, hx, rfl, fun _ => rfl, Or.inl rfl⟩
      · exact ⟨y, hy, rfl, id, Or.inl rfl⟩

theorem finished_mono (h : Moves xs act made ys) {o : Nat} {x : Exchange}
    (hx : xs[o]? = some x) (hdone : x.work.untouched = false) :
    ∃ y, ys[o]? = some y ∧ y.incoming = x.incoming ∧ y.work = x.work := by
  cases h with
  | receive d w hask hw =>
      exact ⟨x, Lib.getElem?_concat_iff.mpr (Or.inr hx), rfl, rfl⟩
  | @push p z m i stored hz hw =>
      refine ⟨x, Lib.getElem?_set_of_differs (f := fun x => x.work.untouched) hz hx ?_, rfl,
        rfl⟩
      rw [hdone, hw]
      exact Bool.false_ne_true
  | @register p z id i poll create hz hw =>
      refine ⟨x, Lib.getElem?_set_of_differs (f := fun x => x.work.untouched) hz hx ?_, rfl,
        rfl⟩
      rw [hdone, hw]
      exact Bool.false_ne_true
  | @encode p z ans i hz hans hr =>
      by_cases heq : o = p
      · rw [heq, hz] at hx
        injection hx with hx
        exact ⟨_, (Lib.getElem?_set_iff hz).mpr (Or.inl ⟨heq, rfl⟩), by rw [← hx],
          by rw [← hx]⟩
      · exact ⟨x, (Lib.getElem?_set_iff hz).mpr (Or.inr ⟨heq, hx⟩), rfl, rfl⟩

theorem register_finishes {i : Nat} {poll create : Option Line}
    (h : Moves xs (.register i poll create) made ys) :
    ∃ (o : Nat) (y : Exchange) (id : Line), ys[o]? = some y ∧
      y.work = .register id (some (poll, create)) := by
  cases h with
  | @register o x id _ _ _ hx hw =>
      exact ⟨o, _, id, (Lib.getElem?_set_iff hx).mpr (Or.inl ⟨rfl, rfl⟩), rfl⟩

/-- A reply that was not there before is the reply of an answered exchange
that `encode` took. -/
theorem new_reply (h : Moves xs act made ys)
    (hun : ∀ x ∈ xs, x.work.answer = none → x.replied = false) {o : Nat} {r : Reply}
    (hr : view ys Exchange.reply o = some r)
    (hnew : view xs Exchange.reply o ≠ some r) :
    ∃ x, xs[o]? = some x ∧ x.work.answer ≠ none ∧ x.replied = false ∧
      r.host = x.incoming.sender.host ∧ r.port = x.incoming.sender.port.toNat := by
  have hquiet : ∀ {p : Nat} {x : Exchange} {w : Work}, xs[p]? = some x →
      x.work.untouched = true → ys = xs.set p { x with work := w } → False := by
    intro p x w hx hw hys
    have hreplied := hun x (List.mem_of_getElem? hx) ((Work.of_untouched hw).1)
    rw [hys, Lib.view_set_same hx (by simp [Exchange.reply, hreplied])] at hr
    exact hnew hr
  cases h with
  | receive d w hask hw =>
      rw [Lib.view_append_none (by rfl)] at hr
      exact absurd hr hnew
  | push i stored hx hw => exact (hquiet hx (by rw [hw]; rfl) rfl).elim
  | register i poll create hx hw => exact (hquiet hx (by rw [hw]; rfl) rfl).elim
  | @encode p x ans i hx hans hrep =>
      rw [Lib.view_set hx] at hr
      by_cases hp : o = p
      · rw [hp, Function.update_self] at hr
        obtain ⟨ans', _, _, hbody⟩ := Exchange.reply_eq_some hr
        exact ⟨x, hp ▸ hx, by rw [hans]; simp, hrep, by rw [hbody], by rw [hbody]⟩
      · rw [Function.update_of_ne hp] at hr
        exact absurd hr hnew

end Moves

/-! ## What a datagram asks for -/

def LfFree.line (f : LfFree) (h : f.bytes ≠ []) : Line :=
  ⟨newString f.bytes, newString_ne_nil h, newline_not_mem_newString f.free⟩

/-- Route 1 puts a push on a queue, or a registration, or nothing. -/
theorem Incoming.route_cases (d : Incoming) :
    (∃ m, Asks d (.measurement m none)) ∨ (∃ id, Asks d (.register id none)) ∨
      Asks d .nothing := by
  obtain ⟨f, hf⟩ := Frame.exists_bytes d.data
  have hpacket := Incoming.packet_frame hf.symm
  have hroute := Incoming.route_frame hf.symm
  cases htruncated : f.truncated with
  | true =>
      rw [htruncated] at hroute
      exact Or.inr (Or.inr (by simp [Asks, hroute]))
  | false =>
      simp only [htruncated, Bool.false_eq_true, if_false] at hpacket hroute
      cases f with
      | blank r => exact Or.inr (Or.inr (by simp [Asks, hroute, Frame.outcome]))
      | one i r | two i p r =>
          simp only [Frame.outcome] at hroute
          split at hroute
          · exact Or.inr (Or.inr (by simp [Asks, hroute]))
          · rename_i hi
            exact Or.inr (Or.inl ⟨i.line hi, ⟨_, hpacket, rfl⟩, hroute⟩)
      | three i p c x =>
          simp only [Frame.outcome] at hroute
          split at hroute
          · exact Or.inr (Or.inr (by simp [Asks, hroute]))
          rename_i hi
          split at hroute
          · exact Or.inr (Or.inl ⟨i.line hi, ⟨_, hpacket, rfl⟩, hroute⟩)
          rename_i hpc
          obtain ⟨hp, hc⟩ := not_or.mp hpc
          split at hroute
          · rename_i hx
            exact Or.inl ⟨⟨i.line hi, p.line hp, c.line hc, x, hx⟩, hpacket, hroute⟩
          · exact Or.inr (Or.inr (by simp [Asks, hroute]))

theorem Measurement.unpack_payload (m : Measurement) :
    unpack m.payload = .ok m.readings := by
  obtain ⟨r, hr⟩ := exists_unpack m.length
  simp [readings, hr, Except.toOption]

theorem Measurement.pushMeasurement_text (m : Measurement) (d : Incoming)
    (stored : Bool) :
    pushMeasurement stored (m.text d) =
      .ok (pushBody d.sender.host d.sender.port.toNat stored, [m.call d stored]) :=
  pushMeasurement_measurementText d.sender.host_free m.deviceId.sep_free
    m.password.sep_free m.cumulocityId.sep_free d.now.free m.length
    m.unpack_payload stored

/-! ## The agent's state as views of the exchanges -/

structure Refines (a : Agent) (xs : List Exchange) : Prop where
  ctx : xs ≠ [] → a.ctx = true
  received : a.received = xs.map (·.incoming)
  asks : ∀ x ∈ xs, Asks x.incoming x.work
  unanswered : ∀ x ∈ xs, x.work.answer = none → x.replied = false
  measurements : Tracks a.measurementQueue (view xs Exchange.queuedMeasurement)
  registers : Tracks a.registerQueue (view xs Exchange.queuedRegister)
  answers : Tracks a.credentialsQueue (view xs Exchange.queuedAnswer)
  published : Tracks a.published (view xs Exchange.message)
  sent : Tracks a.sent (view xs Exchange.reply)
  calls : ∀ c, c ∈ a.calls ↔
    ∃ x, xs[c.origin]? = some x ∧ c.body ∈ x.work.calls x.incoming

namespace Refines

theorem init : Refines {} [] where
  ctx h := absurd rfl h
  received := rfl
  asks x hx := absurd hx List.not_mem_nil
  unanswered x hx := absurd hx List.not_mem_nil
  measurements := Tracks.nil
  registers := Tracks.nil
  answers := Tracks.nil
  published := Tracks.nil
  sent := Tracks.nil
  calls c := by simp

variable {a b : Agent} {xs : List Exchange}

theorem asks_getElem? (h : Refines a xs) {o : Nat} {x : Exchange}
    (hx : xs[o]? = some x) : Asks x.incoming x.work :=
  h.asks x (List.mem_of_getElem? hx)

theorem append (h : Refines a xs) {d : Incoming} {w : Work} (hask : Asks d w)
    (hw : w.untouched = true) {measurements registers : List (Tagged JString)}
    (hm : Tracks measurements (view (xs ++ [⟨d, w, false⟩]) Exchange.queuedMeasurement))
    (hr : Tracks registers (view (xs ++ [⟨d, w, false⟩]) Exchange.queuedRegister)) :
    Refines { a with ctx := true, received := a.received ++ [d]
                     measurementQueue := measurements, registerQueue := registers }
      (xs ++ [⟨d, w, false⟩]) := by
  have hans := (Work.of_untouched hw).1
  refine ⟨fun _ => rfl, by simp [h.received], ?_, ?_, hm, hr, ?_, ?_, ?_, ?_⟩
  · intro x hx
    rcases List.mem_append.mp hx with hx | hx
    · exact h.asks x hx
    · rw [List.mem_singleton.mp hx]
      exact hask
  · intro x hx
    rcases List.mem_append.mp hx with hx | hx
    · exact h.unanswered x hx
    · rw [List.mem_singleton.mp hx]
      exact fun _ => rfl
  · rw [Lib.view_append_none (by simp [Exchange.queuedAnswer, Exchange.message, hans])]
    exact h.answers
  · rw [Lib.view_append_none (by simp [Exchange.message, hans])]
    exact h.published
  · rw [Lib.view_append_none (by simp [Exchange.reply])]
    exact h.sent
  · intro c
    rw [h.calls c]
    refine ⟨?_, ?_⟩
    · intro ⟨x, hx, hc⟩
      exact ⟨x, List.getElem?_append_left (List.getElem?_eq_some_iff.mp hx).1 ▸ hx, hc⟩
    · intro ⟨x, hx, hc⟩
      rcases Nat.lt_or_ge c.origin xs.length with hlt | hge
      · exact ⟨x, List.getElem?_append_left hlt ▸ hx, hc⟩
      · rw [List.getElem?_append_right hge, List.getElem?_singleton] at hx
        split at hx
        · injection hx with hx
          rw [← hx, (Work.of_untouched hw).2] at hc
          exact absurd hc List.not_mem_nil
        · cases hx

theorem mem_calls_set {o : Nat} {x : Exchange} (hx : xs[o]? = some x) {y : Exchange}
    (hy : y.incoming = x.incoming) (hcalls : x.work.calls x.incoming = [])
    (c : Tagged PlatformCall) :
    (∃ z, (xs.set o y)[c.origin]? = some z ∧ c.body ∈ z.work.calls z.incoming) ↔
      (∃ z, xs[c.origin]? = some z ∧ c.body ∈ z.work.calls z.incoming) ∨
        c ∈ (y.work.calls x.incoming).map (Tagged.mk o) := by
  obtain ⟨hlt, hget⟩ := List.getElem?_eq_some_iff.mp hx
  have hnew : c ∈ (y.work.calls x.incoming).map (Tagged.mk o) ↔
      c.origin = o ∧ c.body ∈ y.work.calls x.incoming := by
    cases c
    simp only [List.mem_map, Tagged.mk.injEq]
    refine ⟨?_, fun ⟨ho, hb⟩ => ⟨_, hb, ho.symm, rfl⟩⟩
    intro ⟨b, hb, ho, hbody⟩
    exact ⟨ho.symm, hbody ▸ hb⟩
  rw [hnew]
  by_cases ho : c.origin = o
  · simp only [ho, List.getElem?_set_self hlt, hx, Option.some.injEq,
      exists_eq_left', hcalls, hy, true_and, List.not_mem_nil, false_or]
  · simp only [List.getElem?_set_ne (Ne.symm ho), ho, false_and, or_false]

/-- Answers come in for an exchange that was waiting for them. -/
theorem finish (h : Refines a xs) {o : Nat} {x : Exchange}
    (hx : xs[o]? = some x) (huntouched : x.work.untouched = true) {w : Work}
    (hask : Asks x.incoming w) {measurements registers : List (Tagged JString)}
    (hm : Tracks measurements
      (view (xs.set o { x with work := w }) Exchange.queuedMeasurement))
    (hr : Tracks registers
      (view (xs.set o { x with work := w }) Exchange.queuedRegister)) :
    Refines ({ a with measurementQueue := measurements
                      registerQueue := registers }.publish o
        (.ok (({ x with work := w } : Exchange).message.getD [],
          w.calls x.incoming)))
      (xs.set o { x with work := w }) := by
  have hmem := List.mem_of_getElem? hx
  have hnone := (Work.of_untouched huntouched).1
  have hreplied := h.unanswered x hmem hnone
  have hsent : Tracks a.sent (view (xs.set o { x with work := w }) Exchange.reply) := by
    rw [Lib.view_set_same hx (by simp [Exchange.reply, hreplied])]
    exact h.sent
  have hcalls := fun c => (or_congr_left (h.calls c)).trans
    (mem_calls_set (y := { x with work := w }) hx rfl
      ((Work.of_untouched huntouched).2 _) c).symm
  have hanswers : view xs Exchange.queuedAnswer o = none := by
    rw [Lib.view_of_getElem? hx]
    simp [Exchange.queuedAnswer, Exchange.message, hnone]
  have hpublished : view xs Exchange.message o = none := by
    rw [Lib.view_of_getElem? hx]
    simp [Exchange.message, hnone]
  have hcore : ∀ {answers published : List (Tagged JString)},
      Tracks answers (view (xs.set o { x with work := w }) Exchange.queuedAnswer) →
      Tracks published (view (xs.set o { x with work := w }) Exchange.message) →
      Refines { a with measurementQueue := measurements, registerQueue := registers
                       credentialsQueue := answers, published := published
                       calls := a.calls ++ (w.calls x.incoming).map (Tagged.mk o) }
        (xs.set o { x with work := w }) := by
    intro answers published ha hp
    refine ⟨fun _ => h.ctx (List.ne_nil_of_mem hmem), ?_, ?_, ?_, hm, hr, ha, hp,
      hsent, ?_⟩
    · exact h.received.trans (Lib.map_set_same hx (by rfl)).symm
    · exact Lib.forall_mem_set h.asks hask o
    · exact Lib.forall_mem_set (y := { x with work := w }) h.unanswered (fun _ => hreplied) o
    · intro c
      rw [List.mem_append]
      exact hcalls c
  cases hans : w.answer with
  | none =>
      have hbody : ({ x with work := w } : Exchange).message = none := by
        simp [Exchange.message, hans]
      rw [hbody]
      refine hcore ?_ ?_
      · rw [Lib.view_set_same hx
          (by simp [Exchange.queuedAnswer, Exchange.message, hans, hnone])]
        exact h.answers
      · rw [Lib.view_set_same hx (by simp [Exchange.message, hans, hnone])]
        exact h.published
  | some ans =>
      have hbody : ({ x with work := w } : Exchange).message =
          some (ans.message x.incoming.sender) := by
        simp [Exchange.message, hans]
      have hqueued : ({ x with work := w } : Exchange).queuedAnswer =
          some (ans.message x.incoming.sender) := by
        rw [Exchange.queuedAnswer, hbody, hreplied]
        rfl
      rw [hbody, Agent.publish, Option.getD_some, if_pos (ans.message_ne_nil _)]
      refine hcore ?_ ?_
      · rw [Lib.view_set hx, hqueued]
        exact h.answers.add hanswers _
      · rw [Lib.view_set hx, hbody]
        exact h.published.add hpublished _

/-! ## The simulation, one route at a time -/

theorem publish_made (a : Agent) (o : Nat) (body : JString)
    (made : List PlatformCall) :
    (a.publish o (.ok (body, made))).calls.map (·.body) =
      a.calls.map (·.body) ++ made := by
  have hcalls : (a.publish o (.ok (body, made))).calls =
      a.calls ++ made.map (Tagged.mk o) := by
    simp only [Agent.publish]
    split <;> rfl
  have hbodies : ∀ ms : List PlatformCall,
      (ms.map (Tagged.mk o)).map (·.body) = ms := by
    intro ms
    rw [List.map_map]
    exact List.map_id ms
  rw [hcalls, List.map_append, hbodies]

theorem receive (h : Refines a xs) (d : Incoming) :
    ∃ ys, Moves xs (.receive d) [] ys ∧ Refines (a.receive d) ys := by
  have hlen : a.received.length = xs.length := by simp [h.received]
  have hfree : ∀ f : Exchange → Option JString, view xs f xs.length = none := by
    intro f
    rw [view, List.getElem?_eq_none (Nat.le_refl _)]
    rfl
  unfold Agent.receive
  rw [hlen]
  rcases d.route_cases with ⟨m, hask⟩ | ⟨id, hask⟩ | hask
  · refine ⟨_, .receive d (.measurement m none) hask rfl, ?_⟩
    rw [hask.2]
    refine h.append hask rfl ?_ ?_
    · rw [Lib.view_append]
      exact h.measurements.add (hfree _) _
    · rw [Lib.view_append_none (by rfl)]
      exact h.registers
  · refine ⟨_, .receive d (.register id none) hask rfl, ?_⟩
    rw [hask.2]
    refine h.append hask rfl ?_ ?_
    · rw [Lib.view_append_none (by rfl)]
      exact h.measurements
    · rw [Lib.view_append]
      exact h.registers.add (hfree _) _
  · refine ⟨_, .receive d .nothing hask rfl, ?_⟩
    have hsame := h.append hask rfl
      (by rw [Lib.view_append_none (by rfl)]; exact h.measurements)
      (by rw [Lib.view_append_none (by rfl)]; exact h.registers)
    split
    · rename_i m hroute
      exact absurd hroute (hask m).1
    · rename_i m hroute
      exact absurd hroute (hask m).2
    · exact hsame

theorem push (h : Refines a xs) {i : Nat} {stored : Bool}
    (hs : a.push i stored = some b) :
    ∃ made ys, Moves xs (.push i stored) made ys ∧ Refines b ys ∧
      b.calls.map (·.body) = a.calls.map (·.body) ++ made := by
  unfold Agent.push at hs
  obtain ⟨⟨msg, rest⟩, htake, hb⟩ := Option.bind_eq_some_iff.mp hs
  obtain ⟨hview, hrest⟩ := h.measurements.take htake
  obtain ⟨x, hx, hqueued⟩ := Lib.view_eq_some.mp hview
  obtain ⟨m, hw, htext⟩ := Exchange.queuedMeasurement_eq_some.mp hqueued
  injection hb with hb
  simp only [htext, m.pushMeasurement_text] at hb
  have hask : Asks x.incoming (.measurement m (some stored)) := by
    have hask := h.asks_getElem? hx
    rw [hw] at hask
    exact hask
  have hdone := h.finish hx (by rw [hw]; rfl) hask
    (by rw [Lib.view_set hx]; exact hrest)
    (by
      rw [Lib.view_set_same hx (by simp [Exchange.queuedRegister, hw])]
      exact h.registers)
  refine ⟨_, _, .push i stored hx hw, ?_, ?_⟩
  · rw [← hb]
    cases stored with
    | true => exact hdone
    | false => exact hdone
  · rw [← hb, publish_made]

theorem register (h : Refines a xs) {i : Nat} {poll create : Option Line}
    (hs : a.register i poll create = some b) :
    ∃ made ys, Moves xs (.register i poll create) made ys ∧ Refines b ys ∧
      b.calls.map (·.body) = a.calls.map (·.body) ++ made := by
  unfold Agent.register at hs
  obtain ⟨⟨msg, rest⟩, htake, hb⟩ := Option.bind_eq_some_iff.mp hs
  obtain ⟨hview, hrest⟩ := h.registers.take htake
  obtain ⟨x, hx, hqueued⟩ := Lib.view_eq_some.mp hview
  obtain ⟨id, hw, htext⟩ := Exchange.queuedRegister_eq_some.mp hqueued
  injection hb with hb
  simp only [htext, registerDevice_registerText x.incoming.sender.host_free
    id.sep_free id.ne_nil] at hb
  have hask : Asks x.incoming (.register id (some (poll, create))) := by
    have hask := h.asks_getElem? hx
    rw [hw] at hask
    exact hask
  have hdone := h.finish hx (by rw [hw]; rfl) hask
    (by
      rw [Lib.view_set_same hx (by simp [Exchange.queuedMeasurement, hw])]
      exact h.measurements)
    (by rw [Lib.view_set hx]; exact hrest)
  have hbody : registerBody x.incoming.sender.host x.incoming.sender.port.toNat
      poll create = ({ x with work := .register id (some (poll, create)) } :
        Exchange).message.getD [] := by
    cases poll with
    | none => rfl
    | some password =>
        cases create with
        | none => rfl
        | some cid => rfl
  rw [hbody] at hb
  refine ⟨_, _, .register i poll create hx hw, ?_, ?_⟩
  · rw [← hb]
    exact hdone
  · rw [← hb, publish_made]

theorem encode (h : Refines a xs) {i : Nat} (hs : a.encode i = some b) :
    ∃ ys, Moves xs (.encode i) [] ys ∧ Refines b ys ∧ b.calls = a.calls := by
  unfold Agent.encode at hs
  obtain ⟨⟨msg, rest⟩, htake, hb⟩ := Option.bind_eq_some_iff.mp hs
  obtain ⟨hview, hrest⟩ := h.answers.take htake
  obtain ⟨x, hx, hqueued⟩ := Lib.view_eq_some.mp hview
  obtain ⟨hreplied, ans, hans, htext⟩ := Exchange.queuedAnswer_eq_some.mp hqueued
  have hmem := List.mem_of_getElem? hx
  have hctx := h.ctx (List.ne_nil_of_mem hmem)
  simp only [hctx, if_true, htext, ans.route4_message] at hb
  injection hb with hb
  refine ⟨_, .encode i hx hans hreplied, ?_, by rw [← hb]⟩
  have hsent : view xs Exchange.reply msg.origin = none := by
    rw [Lib.view_of_getElem? hx]
    simp [Exchange.reply, hreplied]
  rw [← hb]
  refine ⟨fun _ => rfl, ?_, ?_, ?_, ?_, ?_, ?_, ?_, ?_, ?_⟩
  · exact h.received.trans (Lib.map_set_same hx (by rfl)).symm
  · exact Lib.forall_mem_set (y := { x with replied := true }) h.asks (h.asks x hmem) msg.origin
  · refine Lib.forall_mem_set h.unanswered (fun hnone => ?_) msg.origin
    rw [hans] at hnone
    cases hnone
  · rw [Lib.view_set_same hx (by rfl)]
    exact h.measurements
  · rw [Lib.view_set_same hx (by rfl)]
    exact h.registers
  · rw [Lib.view_set hx]
    exact hrest
  · rw [Lib.view_set_same hx (by rfl)]
    exact h.published
  · have hreply : ({ x with replied := true } : Exchange).reply =
        some ⟨x.incoming.sender.host, x.incoming.sender.port.toNat, ans.content⟩ := by
      simp [Exchange.reply, hans]
    rw [Lib.view_set hx, hreply]
    exact h.sent.add hsent _
  · intro c
    rw [h.calls c]
    obtain ⟨hlt, hget⟩ := List.getElem?_eq_some_iff.mp hx
    by_cases ho : c.origin = msg.origin
    · simp only [ho, hx, List.getElem?_set_self hlt, Option.some.injEq,
        exists_eq_left']
    · simp only [List.getElem?_set_ne (Ne.symm ho)]

/-- The message a push takes is the one of the exchange that gets an answer. -/
theorem pushed (h : Refines a xs) {ys : List Exchange} (hb : Refines b ys) {i : Nat}
    {stored : Bool} (hs : a.push i stored = some b) {o : Nat} {x y : Exchange}
    {m : Measurement} (hx : xs[o]? = some x) (hw : x.work = .measurement m none)
    (hy : ys[o]? = some y) (hdone : y.work.untouched = false) :
    ∃ msg, a.measurementQueue[i]? = some msg ∧ msg.origin = o := by
  obtain ⟨msg, hmsg, hrest⟩ := a.push_queue hs
  have hqueued : ⟨o, m.text x.incoming⟩ ∈ a.measurementQueue := by
    refine (h.measurements.mem_iff _).mpr (Lib.view_eq_some.mpr ⟨x, hx, ?_⟩)
    exact Exchange.queuedMeasurement_eq_some.mpr ⟨m, hw, rfl⟩
  rcases hrest _ hqueued with heq | hleft
  · exact ⟨msg, hmsg, by rw [← heq]⟩
  · obtain ⟨y', hy', hq⟩ := Lib.view_eq_some.mp ((hb.measurements.mem_iff _).mp hleft)
    obtain ⟨m', hw', _⟩ := Exchange.queuedMeasurement_eq_some.mp hq
    rw [hy] at hy'
    injection hy' with hy'
    rw [hy', hw'] at hdone
    cases hdone

/-- Every step of the agent is a move of one exchange. -/
theorem step (h : Refines a xs) {act : AgentAction} (hs : a.step act = some b) :
    ∃ made ys, Moves xs act made ys ∧ Refines b ys ∧
      b.calls.map (·.body) = a.calls.map (·.body) ++ made := by
  cases act with
  | receive d =>
      injection hs with hs
      obtain ⟨ys, hmove, href⟩ := h.receive d
      refine ⟨[], ys, hmove, hs ▸ href, ?_⟩
      rw [← hs, List.append_nil]
      unfold Agent.receive
      split <;> rfl
  | push i stored => exact h.push hs
  | register i poll create => exact h.register hs
  | encode i =>
      obtain ⟨ys, hmove, href, hcalls⟩ := h.encode hs
      exact ⟨[], ys, hmove, href, by rw [hcalls, List.append_nil]⟩

end Refines

theorem Agent.run_refines {acts : List AgentAction} {a : Agent}
    (h : Lib.run Agent.step {} acts = some a) : ∃ xs, Refines a xs := by
  have hstep : ∀ (s : Agent) act t, (∃ xs, Refines s xs) →
      s.step act = some t → ∃ ys, Refines t ys := by
    intro s act t ⟨xs, hxs⟩ hs
    obtain ⟨_, ys, _, hys, _⟩ := hxs.step hs
    exact ⟨ys, hys⟩
  exact Lib.run_invariant hstep ⟨[], Refines.init⟩ h

end NbIot
