import NbIot.Agent.Exchange

/-!
# Every reply answers the datagram it goes back to

A reply is the view of one exchange that has been answered, so who gets it and
what it says are read off that exchange: the sender of its datagram, and the
answer its own platform calls gave. Messages never fail to parse for the same
reason, each being the text of an exchange.
-/

namespace NbIot

open Lib (Tagged)

/-- The reply hands out what the platform issued for the device of the
datagram, which was queued for registration. -/
def IssuedReply (a : Agent) (origin : Nat) (d : Incoming) (content : Bytes) :
    Prop :=
  ∃ pkt message password id,
    d.packet = .ok pkt ∧ d.route = .ok (.register message) ∧
    ⟨origin, .pollCredentials pkt.deviceId (some password)⟩ ∈ a.calls ∧
    ⟨origin, .createObject (username pkt.deviceId) password.text
      (sodaqDevice pkt.deviceId) (some id)⟩ ∈ a.calls ∧
    content = getBytes (password.text ++ ['\n'] ++ id.text)

/-- The reply is a lone line feed, and the datagram is a measurement whose push
failed. -/
def ResetReply (a : Agent) (origin : Nat) (d : Incoming) (content : Bytes) :
    Prop :=
  ∃ pkt message measurement,
    d.packet = .ok pkt ∧ d.route = .ok (.measurement message) ∧
    ⟨origin, .createMeasurement (username pkt.deviceId) pkt.password measurement
      false⟩ ∈ a.calls ∧
    content = [10]

theorem Refines.reply_story {a : Agent} {xs : List Exchange} (h : Refines a xs)
    {m : Tagged Reply} (hm : m ∈ a.sent) :
    ∃ d, a.received[m.origin]? = some d ∧ m.body.host = d.sender.host ∧
      m.body.port = d.sender.port.toNat ∧
      (IssuedReply a m.origin d m.body.content ∨
        ResetReply a m.origin d m.body.content) := by
  obtain ⟨x, hx, hreply⟩ := Lib.view_eq_some.mp ((h.sent.mem_iff m).mp hm)
  obtain ⟨ans, hans, _, hbody⟩ := Exchange.reply_eq_some hreply
  have hreceived : a.received[m.origin]? = some x.incoming := by
    rw [h.received, List.getElem?_map, hx]
    rfl
  have hcall : ∀ c, c ∈ x.work.calls x.incoming → ⟨m.origin, c⟩ ∈ a.calls :=
    fun c hc => (h.calls ⟨m.origin, c⟩).mpr ⟨x, hx, hc⟩
  have hask := h.asks_getElem? hx
  refine ⟨x.incoming, hreceived, by rw [hbody], by rw [hbody], ?_⟩
  rw [hbody]
  rcases Work.answer_eq_some hans with ⟨w, hw, rfl⟩ | ⟨deviceId, password, id, hw, rfl⟩
  · rw [hw] at hask hcall
    have hfailed := hcall (w.call x.incoming false) (List.mem_singleton_self _)
    exact Or.inr ⟨_, _, _, hask.1, hask.2, hfailed, rfl⟩
  · rw [hw] at hask hcall
    obtain ⟨⟨pkt, hpkt, hid⟩, hroute⟩ := hask
    refine Or.inl ⟨pkt, _, password, id, hpkt, hroute, ?_, ?_, rfl⟩
    · rw [hid]
      exact hcall _ List.mem_cons_self
    · rw [hid]
      exact hcall _ (List.mem_cons_of_mem _ List.mem_cons_self)

/-- No consumer throws on a message an earlier route produced. -/
theorem consumers_return {a : Agent} {xs : List Exchange} (h : Refines a xs) :
    (∀ m ∈ a.measurementQueue, ∀ stored,
      ∃ r, pushMeasurement stored m.body = .ok r) ∧
    (∀ m ∈ a.registerQueue, ∀ poll create,
      ∃ r, registerDevice poll create m.body = .ok r) ∧
    ∀ m ∈ a.credentialsQueue, ∃ pkt reply,
      DataPacket.ofMessage m.body = .ok pkt ∧ encode pkt = .ok reply := by
  refine ⟨?_, ?_, ?_⟩
  · intro m hm stored
    obtain ⟨x, _, hq⟩ := Lib.view_eq_some.mp ((h.measurements.mem_iff m).mp hm)
    obtain ⟨w, _, htext⟩ := Exchange.queuedMeasurement_eq_some.mp hq
    rw [htext]
    exact ⟨_, w.pushMeasurement_text x.incoming stored⟩
  · intro m hm poll create
    obtain ⟨x, _, hq⟩ := Lib.view_eq_some.mp ((h.registers.mem_iff m).mp hm)
    obtain ⟨id, _, htext⟩ := Exchange.queuedRegister_eq_some.mp hq
    rw [htext]
    exact ⟨_, registerDevice_registerText x.incoming.sender.host_free id.sep_free
      id.ne_nil poll create⟩
  · intro m hm
    obtain ⟨x, _, hq⟩ := Lib.view_eq_some.mp ((h.answers.mem_iff m).mp hm)
    obtain ⟨_, ans, _, htext⟩ := Exchange.queuedAnswer_eq_some.mp hq
    have hroute := ans.route4_message x.incoming.sender
    rw [← htext] at hroute
    unfold route4 at hroute
    cases hpkt : DataPacket.ofMessage m.body with
    | error e =>
        rw [hpkt] at hroute
        cases hroute
    | ok pkt =>
        rw [hpkt] at hroute
        exact ⟨pkt, _, rfl, hroute⟩

/-- For every run of the agent, with any datagrams, any order of the consumers
and any answers of the platform: no consumer throws, no datagram is answered
twice, and every reply goes to the sender of its datagram with what the
platform said about it. -/
theorem replies_answer_requests (acts : List AgentAction) (a : Agent)
    (hrun : Lib.run Agent.step {} acts = some a) :
    ((∀ m ∈ a.measurementQueue, ∀ stored,
        ∃ r, pushMeasurement stored m.body = .ok r) ∧
      (∀ m ∈ a.registerQueue, ∀ poll create,
        ∃ r, registerDevice poll create m.body = .ok r) ∧
      ∀ m ∈ a.credentialsQueue, ∃ pkt reply,
        DataPacket.ofMessage m.body = .ok pkt ∧ encode pkt = .ok reply) ∧
    (a.sent.map (·.origin)).Nodup ∧
    ∀ m ∈ a.sent, ∃ d, a.received[m.origin]? = some d ∧
      m.body.host = d.sender.host ∧ m.body.port = d.sender.port.toNat ∧
      (IssuedReply a m.origin d m.body.content ∨
        ResetReply a m.origin d m.body.content) := by
  obtain ⟨xs, href⟩ := Agent.run_refines hrun
  exact ⟨consumers_return href, href.sent.nodup, fun m hm => href.reply_story hm⟩

theorem replies_answer_requests_register :
    ∃ a, Lib.run Agent.step {}
        [.receive Small.asks, .register 0 (some (Small.line 7)) (some (Small.line 1)),
          .encode 0] = some a ∧
      a.sent = [⟨0, ⟨['h'], 5, [55, 10, 49]⟩⟩] ∧
      ∀ m ∈ a.sent, ∃ d, a.received[m.origin]? = some d ∧
        m.body.host = d.sender.host := by
  have hsent : (Lib.run Agent.step {}
      [.receive Small.asks, .register 0 (some (Small.line 7)) (some (Small.line 1)),
        .encode 0]).map (·.sent) = some [⟨0, ⟨['h'], 5, [55, 10, 49]⟩⟩] := by
    decide +kernel
  obtain ⟨a, hrun, hsent⟩ := Option.map_eq_some_iff.mp hsent
  refine ⟨a, hrun, hsent, fun m hm => ?_⟩
  obtain ⟨d, hd, hhost, _⟩ := (replies_answer_requests _ a hrun).2.2 m hm
  exact ⟨d, hd, hhost⟩

end NbIot
