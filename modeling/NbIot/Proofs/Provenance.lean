import NbIot.Deployment
import NbIot.Lib.Matching
import NbIot.Proofs.Traffic

/-!
# Every measurement was a sample

What the platform is asked to store for a datagram of the node is what the sketch
packed in one pass of `loop`: the same readings, under the node's own id and with the
two halves of the token that it held then. That does not rest on the modem or on what
the token is. A frame with a damaged token is a registration, or it is dropped, since
the agent takes a payload for a measurement only if it has fourteen bytes, and then it
is the packet as it was. Nor is a sample stored twice.
-/

namespace NbIot

open Lib (Along Matched Tagged run takeAt)

/-! ## No call is made twice -/

theorem registerCalls_nodup (deviceId : JString) (poll create : Option Line) :
    (registerCalls deviceId poll create).Nodup := by
  cases poll <;> simp [registerCalls]

namespace Refines

variable {a b : Agent} {xs : List Exchange}

/-- The calls of an exchange that was waiting are new. -/
theorem publish_nodup (h : Refines a xs) (hnodup : a.calls.Nodup) {o : Nat} {x : Exchange}
    (hx : xs[o]? = some x) (huntouched : x.work.untouched = true) {a' : Agent}
    (hcalls : a'.calls = a.calls) {body : JString} {calls : List PlatformCall}
    (hdistinct : calls.Nodup) : (a'.publish o (.ok (body, calls))).calls.Nodup := by
  obtain ⟨made, hpublished, hmade⟩ := a'.publish_calls o (.ok (body, calls))
  rw [hpublished, hcalls, hmade body calls rfl, List.nodup_append]
  refine ⟨hnodup, hdistinct.map fun c c' heq => by injection heq, ?_⟩
  intro c hc c' hc' heq
  obtain ⟨z, hz, hmem⟩ := (h.calls c).mp hc
  obtain ⟨_, _, rfl⟩ := List.mem_map.mp hc'
  rw [heq, hx] at hz
  rw [← Option.some.inj hz, (Work.of_untouched huntouched).2] at hmem
  cases hmem

theorem step_calls_nodup (h : Refines a xs) (hnodup : a.calls.Nodup) {act : AgentAction}
    (hs : a.step act = some b) : b.calls.Nodup := by
  cases act with
  | receive d =>
      injection hs with hs
      rw [← hs]
      unfold Agent.receive
      split <;> exact hnodup
  | push i stored =>
      obtain ⟨⟨msg, rest⟩, htake, hb⟩ := Option.bind_eq_some_iff.mp hs
      obtain ⟨x, hx, hqueued⟩ := Lib.view_eq_some.mp (h.measurements.take htake).1
      obtain ⟨m, hw, htext⟩ := Exchange.queuedMeasurement_eq_some.mp hqueued
      injection hb with hb
      simp only [htext, m.pushMeasurement_text] at hb
      rw [← hb]
      refine h.publish_nodup hnodup hx (by rw [hw]; rfl) ?_ (List.nodup_singleton _)
      rfl
  | register i poll create =>
      obtain ⟨⟨msg, rest⟩, htake, hb⟩ := Option.bind_eq_some_iff.mp hs
      obtain ⟨x, hx, hqueued⟩ := Lib.view_eq_some.mp (h.registers.take htake).1
      obtain ⟨id, hw, htext⟩ := Exchange.queuedRegister_eq_some.mp hqueued
      injection hb with hb
      simp only [htext, registerDevice_registerText x.incoming.sender.host_free id.sep_free
        id.ne_nil] at hb
      rw [← hb]
      refine h.publish_nodup hnodup hx (by rw [hw]; rfl) ?_ (registerCalls_nodup _ _ _)
      rfl
  | encode i =>
      obtain ⟨_, _, _, hcalls⟩ := h.encode hs
      rw [hcalls]
      exact hnodup

end Refines

namespace Backend

theorem step_receive {b b' : Backend} {d : Incoming}
    (h : b.step (.agent (.receive d)) = some b') :
    b'.agent.received = b.agent.received ++ [d] := by
  obtain ⟨c, _, hb⟩ := Option.bind_eq_some_iff.mp h
  rw [← Option.some.inj hb]
  unfold Agent.receive
  simp only []
  split <;> rfl

theorem step_calls_nodup {b b' : Backend} {xs : List Exchange} (href : Refines b.agent xs)
    (hnodup : b.agent.calls.Nodup) {act : BackendAction} (h : b.step act = some b') :
    b'.agent.calls.Nodup := by
  cases act with
  | agent act =>
      obtain ⟨a, ha, hrest⟩ := Option.bind_eq_some_iff.mp h
      obtain ⟨c, _, hb⟩ := Option.bind_eq_some_iff.mp hrest
      rw [← Option.some.inj hb]
      exact href.step_calls_nodup hnodup ha
  | accept deviceId =>
      obtain ⟨c, _, hb⟩ := Option.bind_eq_some_iff.mp h
      rw [← Option.some.inj hb]
      exact hnodup
  | revoke deviceId =>
      rw [← Option.some.inj h]
      exact hnodup

end Backend

/-! ## Measurements and datagrams -/

namespace Site

/-- The datagram came from the node's address. -/
def owns (site : Site) (d : Incoming) : Bool :=
  decide (site.Owns d.sender.host d.sender.port.toNat)

/-- What the agent asked the platform to store for the datagrams of the node. -/
def measurements (site : Site) (a : Agent) : List (Tagged PlatformCall) :=
  a.calls.filter fun c => c.body.isMeasurement && (a.received[c.origin]?).any site.owns

/-- The call is for the measurement in a datagram. -/
def Reports (site : Site) (c : Tagged PlatformCall) (d : Incoming) : Prop :=
  site.owns d = true ∧
    ∃ (m : Measurement) (stored : Bool), c.body = m.call d stored ∧ d.packet = .ok (m.packet d)

/-- The call is for a sample, with the token that it was sent with. -/
def Measures (site : Site) (c : Tagged PlatformCall) (sent : CString × Sample) : Prop :=
  ∃ (password cumulocityId : LfFree) (readings : Readings) (now : Timestamp) (stored : Bool),
    sent.1.bytes = password.bytes ++ 10 :: cumulocityId.bytes ∧
      unpack (pack sent.2) = .ok readings ∧
      c.body = .createMeasurement (username site.imei) (newString password.bytes)
        (readings.representation (newString cumulocityId.bytes) now.text) stored

end Site

namespace Site

variable {site : Site}

/-- The calls for the node are matched with the datagrams of the node. -/
theorem measurements_reported (site : Site) {a : Agent} {xs : List Exchange}
    (href : Refines a xs) (hnodup : a.calls.Nodup) :
    Matched site.Reports (site.measurements a) (a.received.filter site.owns) := by
  have hexchange : ∀ c ∈ site.measurements a, ∃ x m stored, xs[c.origin]? = some x ∧
      x.work = .measurement m (some stored) ∧ c.body = m.call x.incoming stored ∧
        site.owns x.incoming = true := by
    intro c hc
    obtain ⟨hmem, hkind⟩ := List.mem_filter.mp hc
    obtain ⟨hmeasurement, howns⟩ := (Bool.and_eq_true _ _).mp hkind
    obtain ⟨x, hx, hcall⟩ := (href.calls c).mp hmem
    obtain ⟨m, stored, hwork, hbody⟩ := Work.measurement_of_mem hcall hmeasurement
    rw [href.received, List.getElem?_map, hx] at howns
    exact ⟨x, m, stored, hx, hwork, hbody, howns⟩
  refine Matched.filter_right (Matched.of_keys Tagged.origin ?_ ?_)
    fun _ _ hreports => hreports.1
  · refine List.Nodup.map_on (fun c hc c' hc' horigin => ?_) (hnodup.filter _)
    obtain ⟨x, m, stored, hx, hwork, hbody, _⟩ := hexchange c hc
    obtain ⟨x', m', stored', hx', hwork', hbody', _⟩ := hexchange c' hc'
    rw [horigin, hx'] at hx
    cases Option.some.inj hx
    rw [hwork] at hwork'
    cases hwork'
    cases c
    cases c'
    simp only at horigin hbody hbody'
    rw [horigin, hbody, hbody']
  · intro c hc
    obtain ⟨x, m, stored, hx, hwork, hbody, howns⟩ := hexchange c hc
    have hasks := href.asks_getElem? hx
    rw [hwork] at hasks
    refine ⟨x.incoming, ?_, howns, m, stored, hbody, hasks.1⟩
    rw [href.received, List.getElem?_map, hx]
    rfl

/-- Fourteen bytes behind three line feeds are the packet, whatever the token is. -/
theorem packet_fields {d : Incoming} {token : CString} {s : Sample} {m : Measurement}
    (hdata : d.data = frame site.deviceId token (pack s)) (hpacket : d.packet = .ok (m.packet d)) :
    ∃ p c : LfFree, token.bytes = p.bytes ++ 10 :: c.bytes ∧ m.payload = pack s ∧
      m.deviceId.text = site.imei ∧ m.password.text = newString p.bytes ∧
      m.cumulocityId.text = newString c.bytes := by
  obtain ⟨f, hf⟩ := Frame.exists_bytes d.data
  have hfill := Incoming.packet_frame hf.symm
  rw [hpacket] at hfill
  split at hfill
  · cases hfill
  injection hfill with hfill
  have hpayload : some m.payload = (f.fill (.fresh d.sender.host d.sender.port.toNat
      d.now.text)).payload := congrArg DataPacket.payload hfill
  cases f with
  | blank r | one i r | two i p r => cases hpayload
  | three i p c x =>
      have hx : m.payload = x := Option.some.inj hpayload
      have hid : m.deviceId.text = newString i.bytes := congrArg DataPacket.deviceId hfill
      rw [← hf] at hdata
      obtain ⟨hdevice, hrest⟩ := (Lib.first_field_inj i.free site.lf_free).mp hdata
      have hsplit : (p.bytes ++ 10 :: c.bytes ++ [10]) ++ x =
          (token.bytes ++ [10]) ++ pack s := by
        simpa using hrest
      obtain ⟨htoken, hpack⟩ := List.append_inj' hsplit (by rw [← hx, m.length, pack_length])
      refine ⟨p, c, (List.append_cancel_right htoken).symm, hx.trans hpack, ?_,
        congrArg DataPacket.password hfill, congrArg DataPacket.cumulocityId hfill⟩
      rw [hid, hdevice]
      rfl

theorem measures_of_reports {c : Tagged PlatformCall} {d : Incoming} {sent : CString × Sample}
    (hreports : site.Reports c d)
    (hdata : d.data = frame site.deviceId sent.1 (pack sent.2)) : site.Measures c sent := by
  obtain ⟨_, m, stored, hbody, hpacket⟩ := hreports
  obtain ⟨p, cid, htoken, hpayload, hid, hpassword, hcid⟩ := packet_fields hdata hpacket
  refine ⟨p, cid, m.readings, d.now, stored, htoken, ?_, ?_⟩
  · rw [← hpayload]
    exact m.unpack_payload
  · rw [hbody, Measurement.call, hid, hpassword, hcid]

end Site

/-! ## Every datagram is of a pass -/

namespace Deployment

variable {site : Site} {d d' : Deployment}

def Carries (site : Site) (data : Bytes) (sent : CString × Sample) : Prop :=
  data = frame site.deviceId sent.1 (pack sent.2)

/-- The datagrams of the node, on their way or received, are of passes that sent them. -/
structure Tallied (site : Site) (d : Deployment) : Prop where
  connected : d.Connected site
  refines : ∃ xs, Refines d.backend.agent xs
  calls : d.backend.agent.calls.Nodup
  flow : Matched (Carries site)
    (d.up ++ (d.backend.agent.received.filter site.owns).map (·.data)) d.sent

/-- What a pass sends is its sample, with the token that the pass leaves. -/
theorem loop_sends (hd : d.Connected site) {p : Pass} {l : Looped}
    (hlines : ∀ r ∈ p.replyReads, cgsnToken r.text = none) (hl : d.sketch.loop p = some l) :
    l.sent = none ∨ ∃ command, l.sent = some command ∧ Lib.Digits.unhex command.data =
      some (frame site.deviceId l.sketch.node.deviceToken (pack p.sample)) := by
  rw [Sketch.loop] at hl
  split at hl
  · obtain ⟨replied, hreplied, hrest⟩ := Option.bind_eq_some_iff.mp hl
    have hid : replied.device.deviceId = some site.deviceId :=
      (Sketch.handleReply_deviceId hlines hreplied).trans hd
    rw [← Option.some.inj hrest]
    simp only [hid, Option.map_some]
    exact Or.inr ⟨_, rfl, sendPayload_data server.toList port.toList site.deviceId
      replied.node.deviceToken (show (14 : UInt8).toNat = (pack p.sample).length from rfl)⟩
  · rw [← Option.some.inj hl]
    exact Or.inl rfl

/-- A pass adds to what is on its way what it adds to what was sent. -/
theorem flow_pass (hd : Tallied site d) {p : Pass} {l : Looped}
    (hlines : ∀ r ∈ p.replyReads, cgsnToken r.text = none) (hl : d.sketch.loop p = some l) :
    Matched (Carries site)
      (d.up ++ l.datagram ++ (d.backend.agent.received.filter site.owns).map (·.data))
      (d.sent ++ (l.sent.map fun _ => (l.sketch.node.deviceToken, p.sample)).toList) := by
  rcases loop_sends hd.connected hlines hl with hnone | ⟨command, hsent, hdata⟩
  · simp only [Looped.datagram, hnone, Option.map_none, Option.toList_none, List.append_nil]
    exact hd.flow
  · simp only [Looped.datagram, hsent, Option.map_some, Option.toList_some, hdata,
      Option.getD_some]
    refine (hd.flow.concat (R := Carries site) rfl).perm_left ?_
    rw [List.append_assoc, List.append_assoc]
    exact List.Perm.append_left _ List.perm_append_comm

theorem flow_arrive (hd : Tallied site d) {i : Nat} {now : Timestamp} {data : Bytes}
    {rest : List Bytes} (htake : takeAt d.up i = some (data, rest)) {received : List Incoming}
    (hreceived : received = d.backend.agent.received ++ [⟨site.address, data, now⟩]) :
    Matched (Carries site) (rest ++ (received.filter site.owns).map (·.data)) d.sent := by
  have howns : site.owns ⟨site.address, data, now⟩ = true := decide_eq_true ⟨rfl, rfl⟩
  refine hd.flow.perm_left ?_
  simp only [hreceived, List.filter_append, List.filter_cons_of_pos howns, List.filter_nil,
    List.map_append, List.map_cons, List.map_nil]
  rw [← List.append_assoc]
  refine List.perm_append_comm.trans ?_
  exact List.Perm.append_right _ (Lib.perm_of_takeAt htake).symm

/-- What strangers send does not count. -/
theorem flow_backend (hd : Tallied site d) {act : BackendAction} {b : Backend}
    (hstranger : site.spoofs act = false) (hb : d.backend.step act = some b) :
    Matched (Carries site) (d.up ++ (b.agent.received.filter site.owns).map (·.data))
      d.sent := by
  rcases (Site.step_backend hb).2 with hsame | ⟨m, rfl, hreceived⟩
  · rw [hsame]
    exact hd.flow
  · have hother : ¬ site.owns m = true := Bool.eq_false_iff.mp hstranger
    rw [hreceived, List.filter_append, List.filter_cons_of_neg hother, List.filter_nil,
      List.append_nil]
    exact hd.flow

theorem step_tallied (hd : Tallied site d) {act : DeploymentAction} (h : SameModem site act)
    (hstep : d.step site act = some d') : Tallied site d' := by
  have hconnected := step_connected hd.connected h hstep
  obtain ⟨xs, href⟩ := hd.refines
  cases step_steps hstep with
  | pass p reply hl hrest =>
      exact ⟨hconnected, ⟨xs, href⟩, hd.calls,
        flow_pass hd (fun r hr => h r (List.mem_append_left _ hr)) hl⟩
  | arrive i now htake hb =>
      exact ⟨hconnected, (Backend.step_change href hb).imp fun _ h => h.1,
        Backend.step_calls_nodup href hd.calls hb,
        flow_arrive hd htake (Backend.step_receive hb)⟩
  | reset device => exact ⟨hconnected, ⟨xs, href⟩, hd.calls, hd.flow⟩
  | backend act hstranger hb =>
      exact ⟨hconnected, (Backend.step_change href hb).imp fun _ h => h.1,
        Backend.step_calls_nodup href hd.calls hb, flow_backend hd hstranger hb⟩

/-- In every run of the deployment, each measurement that the agent asks the platform
to store for the node is of a sample of its own that the sketch took, with the readings
of the sample and the token that it was sent with. -/
theorem measurements_sampled (eeprom : Eeprom) {device : Device}
    (hdevice : device.deviceId = some site.deviceId) {acts : List DeploymentAction}
    (h : ∀ act ∈ acts, SameModem site act)
    (hrun : run (step site) (start eeprom device) acts = some d) :
    Matched site.Measures (site.measurements d.backend.agent) d.sent := by
  have hstart : Tallied site (start eeprom device) :=
    ⟨hdevice, ⟨[], Refines.init⟩, List.nodup_nil, Matched.nil⟩
  have hd : Tallied site d := Lib.run_invariant_along
    (fun _ _ _ hd hact hstep => step_tallied hd hact hstep) hstart
    (Lib.along_of_forall_mem h _) hrun
  obtain ⟨xs, href⟩ := hd.refines
  have hreceived : Matched (fun m sent => Carries site m.data sent)
      (d.backend.agent.received.filter site.owns) d.sent :=
    Matched.map_left.mp (hd.flow.sublist_left (List.sublist_append_right _ _))
  refine ((site.measurements_reported href hd.calls).trans hreceived).mono ?_
  intro c sent ⟨m, hreports, hcarries⟩
  exact site.measures_of_reports hreports hcarries

end Deployment

namespace Small

/-- The node is enrolled, and its next sample is stored. -/
def measuring : List DeploymentAction :=
  enrolling ++ [.pass (answered 55 [10, 49]) (some 0), .arrive 0 noon,
    .backend (.agent (.push 0 true))]

theorem measuring_sameModem : ∀ act ∈ measuring, Deployment.SameModem site act := by
  have hannounced : ∀ r ∈ (announced [3]).replyReads ++ (announced [3]).sendReads,
      cgsnToken r.text = none := by decide +kernel
  have hanswered : ∀ r ∈ (answered 55 [10, 49]).replyReads ++ (answered 55 [10, 49]).sendReads,
      cgsnToken r.text = none := by decide +kernel
  simpa [measuring, enrolling, Deployment.SameModem, -List.mem_append] using
    And.intro hannounced hanswered

end Small

theorem measuring_sampled :
    ∃ d, run (Deployment.step Small.site) (Deployment.start Eeprom.erased Small.device)
        Small.measuring = some d ∧
      Matched Small.site.Measures (Small.site.measurements d.backend.agent) d.sent := by
  obtain ⟨d, hd⟩ := Option.isSome_iff_exists.mp
    (show (run (Deployment.step Small.site) (Deployment.start Eeprom.erased Small.device)
      Small.measuring).isSome by decide +kernel)
  exact ⟨d, hd, Deployment.measurements_sampled Eeprom.erased rfl Small.measuring_sameModem hd⟩

end NbIot
