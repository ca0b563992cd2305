import NbIot.Proofs.Credentials
import NbIot.Proofs.Provenance

/-!
# A node comes back, unless its token is mute

Whatever went wrong, a node can be brought into service again: what it sends next is a
measurement, which a push that fails answers with a reset, or it asks for a
registration, and the operator can let it through. There is one exception. A token with
two line feeds and something in front of each makes a frame that the agent drops
without an answer, and without an answer nothing changes the token. No reply of the
agent leaves such a token in a `World`, where each is read alone and whole, so it is the
first content of the EEPROM that decides (`recovers_iff`). The sketch is a node of a
`World` as long as the modem hands over one reply at a time (`Deployment.run_world`).
-/

namespace NbIot

open Lib (Tagged run takeAt)

/-- Two line feeds, and something in front of each. -/
def Mute (token : CString) : Prop :=
  ∃ (p c : LfFree) (rest : Bytes), p.bytes ≠ [] ∧ c.bytes ≠ [] ∧
    token.bytes = p.bytes ++ 10 :: (c.bytes ++ 10 :: rest)

/-- Credentials that the platform can issue: the password is new to it and to the node,
the id is new, and the node can keep them. -/
structure Site.CanIssue (w : World) (password id : Line) : Prop where
  fresh : password.text ∉ w.backend.cumulocity.seen
  unheld : ∀ p c : LfFree, w.node.deviceToken.bytes = p.bytes ++ 10 :: c.bytes →
    newString p.bytes ≠ password.text
  free : id.text ∉ w.backend.cumulocity.inventory.map (·.1.text)
  password_nul_free : '\x00' ∉ password.text
  id_nul_free : '\x00' ∉ id.text
  short : (credentialsReply password id).length ≤ 20

/-- The node holds the credentials, and the platform has them on record. -/
def Site.Holds (site : Site) (w : World) (password id : Line) : Prop :=
  w.node.deviceToken.bytes = credentialsReply password id ∧
    w.backend.cumulocity.credentials (username site.imei) = some password.text

/-! ## What a token asks for -/

namespace Site

variable {site : Site} {token : CString} {s : Sample} {d : Incoming}

/-- A frame with a mute token is dropped. -/
theorem mute_asks_nothing (hmute : Mute token)
    (hdata : d.data = frame site.deviceId token (pack s)) {w : Work} (hasks : Asks d w) :
    w = .nothing := by
  obtain ⟨p, c, rest, hp, hc, htoken⟩ := hmute
  have hframe : d.data =
      (Frame.three ⟨site.deviceId.bytes, site.lf_free⟩ p c (rest ++ 10 :: pack s)).bytes := by
    rw [hdata, frame, htoken]
    simp [Frame.bytes]
  have hroute := Incoming.route_frame hframe
  have hlong : (rest ++ 10 :: pack s).length ≠ 14 := by
    rw [List.length_append, List.length_cons, pack_length]
    omega
  simp only [Frame.truncated, Bool.false_eq_true, if_false, Frame.outcome,
    if_neg site.ne_nil, if_neg (not_or.mpr ⟨hp, hc⟩), if_neg hlong] at hroute
  cases w with
  | nothing => rfl
  | measurement m stored =>
      have h := hasks.2
      rw [hroute] at h
      cases h
  | register id answers =>
      have h := hasks.2
      rw [hroute] at h
      cases h

/-- Any other token is answered, if the packet behind it has no line feed. -/
theorem alive_asks (halive : ¬ Mute token) (hs : (10 : UInt8) ∉ pack s)
    (hdata : d.data = frame site.deviceId token (pack s)) :
    (∃ m, Asks d (.measurement m none)) ∨ ∃ id, Asks d (.register id none) := by
  rcases d.route_cases with hm | hr | hnothing
  · exact Or.inl hm
  · exact Or.inr hr
  exfalso
  have hask : ∀ f : Frame, d.data = f.bytes → f.truncated = false →
      ∀ m, f.outcome d.sender.host d.sender.port.toNat d.now.text ≠ .measurement m ∧
        f.outcome d.sender.host d.sender.port.toNat d.now.text ≠ .register m := by
    intro f hf htruncated m
    have hroute := Incoming.route_frame hf
    rw [htruncated] at hroute
    obtain ⟨hm, hr⟩ := hnothing m
    rw [hroute] at hm hr
    exact ⟨fun h => hm (congrArg Except.ok h), fun h => hr (congrArg Except.ok h)⟩
  have hpack : pack s ≠ [] := by
    intro h
    have hlen := pack_length s
    rw [h] at hlen
    cases hlen
  rcases Lib.first_field 10 token.bytes with hfree | ⟨p, c, htoken, hp⟩
  · -- One field, so the packet is taken for the rest of the second one.
    have hframe : d.data = (Frame.two ⟨site.deviceId.bytes, site.lf_free⟩
        ⟨token.bytes, hfree⟩ ⟨pack s, hs⟩).bytes := by
      rw [hdata, frame]
      simp [Frame.bytes]
    have houtcome := hask _ hframe (decide_eq_false hpack)
    simp only [Frame.outcome, if_neg site.ne_nil] at houtcome
    exact (houtcome _).2 rfl
  · rcases Lib.first_field 10 c with hfree | ⟨c, rest, rfl, hc⟩
    · have hframe : d.data = (Frame.three ⟨site.deviceId.bytes, site.lf_free⟩ ⟨p, hp⟩
          ⟨c, hfree⟩ (pack s)).bytes := by
        rw [hdata, frame, htoken]
        simp [Frame.bytes]
      have houtcome := hask _ hframe rfl
      simp only [Frame.outcome, if_neg site.ne_nil, pack_length, if_true] at houtcome
      split at houtcome
      · exact (houtcome _).2 rfl
      · exact (houtcome _).1 rfl
    · have hframe : d.data = (Frame.three ⟨site.deviceId.bytes, site.lf_free⟩ ⟨p, hp⟩
          ⟨c, hc⟩ (rest ++ 10 :: pack s)).bytes := by
        rw [hdata, frame, htoken]
        simp [Frame.bytes]
      have houtcome := hask _ hframe rfl
      simp only [Frame.outcome, if_neg site.ne_nil] at houtcome
      split at houtcome
      · exact (houtcome _).2 rfl
      · rename_i hpc
        obtain ⟨hpne, hcne⟩ := not_or.mp hpc
        exact halive ⟨⟨p, hp⟩, ⟨c, hc⟩, rest, hpne, hcne, htoken⟩

end Site

/-! ## What the agent leaves in the EEPROM -/

theorem Mute.line_feeds {token : CString} (h : Mute token) : 2 ≤ token.bytes.count 10 := by
  obtain ⟨p, c, rest, _, _, htoken⟩ := h
  simp [htoken]
  omega

theorem Answer.line_feeds (ans : Answer) : ans.content.count 10 = 1 := by
  cases ans with
  | reset => rfl
  | credentials password id =>
      have hpassword : (getBytes password.text).count 10 = 0 :=
        List.count_eq_zero.mpr password.lfFree.free
      have hid : (getBytes id.text).count 10 = 0 := List.count_eq_zero.mpr id.lfFree.free
      rw [Answer.content, getBytes_two_lines, List.count_append, List.count_cons_self,
        hpassword, hid]

theorem Node.applyReply_stored {n n' : Node} {data : List UInt8}
    (h : n.applyReply data = some n') :
    n'.deviceToken.bytes = (Node.replyString data).take 20 := by
  obtain ⟨hlen, rfl⟩ := Node.applyReply_eq_some.mp h
  have hshort : (Node.replyString data).length ≤ data.length := List.length_filter_le _ _
  refine storedToken_writePW ?_ (by omega)
  simp [Node.replyString]

namespace Site

variable {site : Site} {w w' : World} {act : WorldAction} {xs : List Exchange}

/-- The token stays, or it is what the agent answered to one that was sent before. -/
theorem step_token (href : Refines w.backend.agent xs) (htraffic : site.Traffic w)
    (hs : site.step w act = some w') :
    (w'.tokens = w.tokens ∨ w'.tokens = w.tokens ++ [w.node.deviceToken]) ∧
      (w'.node.deviceToken = w.node.deviceToken ∨
        ∃ x ∈ xs, ∃ ans, x.work.answer = some ans ∧ site.Framed w.tokens x.incoming.data ∧
          w'.node.deviceToken.bytes = (Node.replyString ans.content).take 20) := by
  cases step_steps hs with
  | send s => exact ⟨Or.inr rfl, Or.inl rfl⟩
  | arrive i now htake hb => exact ⟨Or.inl rfl, Or.inl rfl⟩
  | reboot => exact ⟨Or.inl rfl, Or.inl htraffic.node.symm⟩
  | backend act hstranger hb => exact ⟨Or.inl rfl, Or.inl rfl⟩
  | deliver i htake hn =>
      obtain ⟨x, ans, hx, hans, _, hbody, howns⟩ :=
        htraffic.answered href (Lib.mem_of_takeAt htake)
      refine ⟨Or.inl rfl, Or.inr ⟨x, List.mem_of_getElem? hx, ans, hans, ?_, ?_⟩⟩
      · exact (htraffic.framed href hx howns).2
      · rw [← hbody]
        exact Node.applyReply_stored hn

/-- The invariant rule for the token: what every step does to it, with the exchanges and
the traffic at hand. -/
theorem run_token (inv : World → Prop)
    (hstep : ∀ w act w' xs, Refines w.backend.agent xs → site.Traffic w → inv w →
      site.step w act = some w' → inv w') {eeprom : Eeprom} (hinit : inv (start eeprom))
    {acts : List WorldAction} (hrun : run site.step (start eeprom) acts = some w) : inv w := by
  have hall : ∀ (s : World) act t,
      (∃ xs, Refines s.backend.agent xs ∧ site.Traffic s ∧ inv s) → site.step s act = some t →
      ∃ ys, Refines t.backend.agent ys ∧ site.Traffic t ∧ inv t := by
    intro s act t ⟨xs, href, htraffic, hinv⟩ hs
    obtain ⟨ys, hys, _⟩ := step_change href hs
    exact ⟨ys, hys, step_traffic htraffic hs hys.sent.nodup,
      hstep s act t xs href htraffic hinv hs⟩
  obtain ⟨_, _, _, hinv⟩ := Lib.run_invariant hall
    ⟨[], Refines.init, start_traffic site eeprom, hinit⟩ hrun
  exact hinv

/-- No run makes a token mute. -/
theorem run_alive {eeprom : Eeprom} (halive : ¬ Mute (storedToken eeprom))
    {acts : List WorldAction} (hrun : run site.step (start eeprom) acts = some w) :
    ¬ Mute w.node.deviceToken := by
  refine run_token (fun w => ¬ Mute w.node.deviceToken) ?_ halive hrun
  intro w act w' xs href htraffic halive hs hmute
  rcases (step_token href htraffic hs).2 with hsame | ⟨x, _, ans, _, _, htoken⟩
  · exact halive (hsame ▸ hmute)
  · have htwo := hmute.line_feeds
    rw [htoken] at htwo
    have hsub : List.Sublist ((Node.replyString ans.content).take 20) ans.content :=
      (List.take_sublist _ _).trans List.filter_sublist
    have hle := hsub.count_le 10
    rw [ans.line_feeds] at hle
    omega

/-- A mute token stays. -/
theorem run_mute {eeprom : Eeprom} (hmute : Mute (storedToken eeprom))
    {acts : List WorldAction} (hrun : run site.step (start eeprom) acts = some w) :
    w.node.deviceToken = storedToken eeprom := by
  refine (run_token (fun w => w.node.deviceToken = storedToken eeprom ∧
    ∀ token ∈ w.tokens, token = storedToken eeprom) ?_ ⟨rfl, by simp [start]⟩ hrun).1
  intro w act w' xs href htraffic hinv hs
  obtain ⟨hnode, hsent⟩ := hinv
  obtain ⟨htokens, htoken⟩ := step_token href htraffic hs
  refine ⟨?_, ?_⟩
  · rcases htoken with hsame | ⟨x, hx, ans, hans, ⟨token, hmem, s, hdata⟩, _⟩
    · exact hsame.trans hnode
    · rw [← hsent token hmem] at hmute
      rw [mute_asks_nothing hmute hdata (href.asks x hx)] at hans
      cases hans
  · intro token hmem
    rcases htokens with heq | heq
    · exact hsent token (heq ▸ hmem)
    · rcases List.mem_append.mp (heq ▸ hmem) with hold | hnew
      · exact hsent token hold
      · exact (List.mem_singleton.mp hnew).trans hnode

end Site

/-! ## One round, from the sample to the reply -/

theorem Agent.receive_told (a : Agent) (d : Incoming) :
    (a.receive d).calls = a.calls ∧ (a.receive d).sent = a.sent := by
  unfold Agent.receive
  split <;> exact ⟨rfl, rfl⟩

theorem Backend.callsSince_same {a b : Agent} (h : b.calls = a.calls) :
    Backend.callsSince a b = [] := by
  rw [callsSince, h, ← List.length_map (f := Tagged.body), List.drop_length]

theorem Backend.step_agent {b : Backend} {a : Agent} {act : AgentAction}
    {made : List PlatformCall} {c : Cumulocity} (hact : b.agent.step act = some a)
    (hmade : Backend.callsSince b.agent a = made)
    (hcalls : run Cumulocity.call b.cumulocity made = some c) :
    b.step (.agent act) = some ⟨a, c⟩ := by
  refine Option.bind_eq_some_iff.mpr ⟨a, hact, Option.bind_eq_some_iff.mpr ⟨c, ?_, rfl⟩⟩
  rw [hmade]
  exact hcalls

/-- What the agent has done for a datagram when its answer is in the queue. -/
structure Agent.Tells (a : Agent) (d : Incoming) (ans : Answer) (made : List PlatformCall)
    (b : Agent) : Prop where
  ctx : b.ctx = true
  queue : b.credentialsQueue =
    a.credentialsQueue ++ [⟨a.received.length, ans.message d.sender⟩]
  calls : b.calls = a.calls ++ made.map (Tagged.mk a.received.length)
  sent : b.sent = a.sent

theorem Agent.publish_tells (a : Agent) (d : Incoming) (ans : Answer)
    (made : List PlatformCall) :
    a.Tells d ans made ({ a with ctx := true, received := a.received ++ [d] }.publish
      a.received.length (.ok (ans.message d.sender, made))) := by
  rw [Agent.publish, if_pos (ans.message_ne_nil d.sender)]
  exact ⟨rfl, rfl, rfl, rfl⟩

theorem Agent.Tells.encode {a b : Agent} {d : Incoming} {ans : Answer}
    {made : List PlatformCall} (h : a.Tells d ans made b) :
    b.encode a.credentialsQueue.length = some { b with
      credentialsQueue := a.credentialsQueue
      sent := b.sent ++ [⟨a.received.length,
        ⟨d.sender.host, d.sender.port.toNat, ans.content⟩⟩] } := by
  rw [Agent.encode, h.queue, Lib.takeAt_concat]
  simp only [Option.bind_eq_bind, Option.bind_some]
  rw [if_pos h.ctx]
  simp only [ans.route4_message]
  rfl

theorem Agent.push_tells (a : Agent) {d : Incoming} {m : Measurement}
    (hasks : Asks d (.measurement m none)) :
    ∃ b, (a.receive d).step (.push a.measurementQueue.length false) = some b ∧
      a.Tells d .reset [m.call d false] b := by
  refine ⟨_, ?_, a.publish_tells d _ _⟩
  rw [Agent.step, Agent.push, Agent.receive, hasks.2]
  simp only [Lib.takeAt_concat, Option.bind_eq_bind, Option.bind_some,
    m.pushMeasurement_text]
  rfl

theorem Agent.register_tells (a : Agent) {d : Incoming} {deviceId : Line}
    (hasks : Asks d (.register deviceId none)) (password id : Line) :
    ∃ b, (a.receive d).step (.register a.registerQueue.length (some password) (some id)) =
        some b ∧
      a.Tells d (.credentials password id)
        (registerCalls deviceId.text (some password) (some id)) b := by
  refine ⟨_, ?_, a.publish_tells d _ _⟩
  rw [Agent.step, Agent.register, Agent.receive, hasks.2]
  simp only [Lib.takeAt_concat, Option.bind_eq_bind, Option.bind_some,
    registerDevice_registerText d.sender.host_free deviceId.sep_free deviceId.ne_nil]
  rfl

namespace Site

variable {site : Site} {w : World}

/-- The next datagram of the node. -/
def asking (site : Site) (w : World) (s : Sample) (now : Timestamp) : Incoming :=
  ⟨site.address, frame site.deviceId w.node.deviceToken (pack s), now⟩

/-- The sample goes up, the agent acts on it, and what it answers comes down. -/
def round (w : World) (s : Sample) (now : Timestamp) (act : AgentAction) :
    List WorldAction :=
  [.send s, .arrive w.up.length now, .backend (.agent act),
    .backend (.agent (.encode w.backend.agent.credentialsQueue.length)),
    .deliver w.down.length]

theorem step_arrive {w : World} {up : List Bytes} {data : Bytes} {now : Timestamp}
    (hup : w.up = up ++ [data]) : site.step w (.arrive up.length now) = some { w with
      up := up
      backend := { w.backend with
        agent := w.backend.agent.receive ⟨site.address, data, now⟩ } } := by
  have hkept := (w.backend.agent.receive_told ⟨site.address, data, now⟩).1
  have hasked : w.backend.step (.agent (.receive ⟨site.address, data, now⟩)) = some _ :=
    Backend.step_agent rfl (Backend.callsSince_same hkept) rfl
  rw [step, hup, Lib.takeAt_concat]
  exact Option.bind_eq_some_iff.mpr ⟨_, rfl, Option.bind_eq_some_iff.mpr ⟨_, hasked, rfl⟩⟩

theorem step_of_backend {w : World} {act : BackendAction} {b : Backend}
    (hstranger : site.spoofs act = false) (hb : w.backend.step act = some b) :
    site.step w (.backend act) = some { w with
      backend := b
      down := w.down ++ site.repliesSince w.backend.agent b.agent } := by
  rw [step, hstranger, if_neg Bool.false_ne_true]
  exact Option.bind_eq_some_iff.mpr ⟨b, hb, rfl⟩

theorem run_round {s : Sample} {now : Timestamp} {act : AgentAction} {b : Agent}
    {ans : Answer} {made : List PlatformCall} {c : Cumulocity} {n : Node}
    (hstranger : site.spoofs (.agent act) = false)
    (hact : (w.backend.agent.receive (site.asking w s now)).step act = some b)
    (htells : w.backend.agent.Tells (site.asking w s now) ans made b)
    (hcalls : run Cumulocity.call w.backend.cumulocity made = some c)
    (hn : w.node.applyReply ans.content = some n) :
    ∃ w', run site.step w (round w s now act) = some w' ∧ w'.node = n ∧
      w'.backend.cumulocity = c := by
  obtain ⟨hkept, hquiet⟩ := w.backend.agent.receive_told (site.asking w s now)
  have hmade : Backend.callsSince (w.backend.agent.receive (site.asking w s now)) b =
      made := by
    simp [Backend.callsSince, hkept, htells.calls, Function.comp_def]
  let sent : World := { w with
    tokens := w.tokens ++ [w.node.deviceToken]
    up := w.up ++ [frame site.deviceId w.node.deviceToken (pack s)] }
  let asked : World := { sent with
    up := w.up
    backend := { w.backend with agent := w.backend.agent.receive (site.asking w s now) } }
  let acted : World := { asked with backend := ⟨b, c⟩ }
  let told : World := { acted with
    down := w.down ++ [⟨w.backend.agent.received.length, ans.content⟩]
    backend := ⟨{ b with
      credentialsQueue := w.backend.agent.credentialsQueue
      sent := b.sent ++ [⟨w.backend.agent.received.length,
        ⟨site.address.host, site.address.port.toNat, ans.content⟩⟩] }, c⟩ }
  have hsent : site.step w (.send s) = some sent := by
    rw [step, Node.datagram_eq]
  have hasked : site.step sent (.arrive w.up.length now) = some asked := step_arrive rfl
  have hmoved : asked.backend.step (.agent act) = some ⟨b, c⟩ :=
    Backend.step_agent hact hmade hcalls
  have hsilent : site.repliesSince asked.backend.agent b = [] := by
    simp [repliesSince, asked, htells.sent, hquiet]
  have hacted : site.step asked (.backend (.agent act)) = some acted := by
    rw [step_of_backend hstranger hmoved, hsilent, List.append_nil]
  have hencoded : acted.backend.step
      (.agent (.encode w.backend.agent.credentialsQueue.length)) = some told.backend :=
    Backend.step_agent htells.encode (Backend.callsSince_same rfl) rfl
  have hreply : site.repliesSince acted.backend.agent told.backend.agent =
      [⟨w.backend.agent.received.length, ans.content⟩] := by
    simp [repliesSince, acted, told, Owns]
  have htold : site.step acted
      (.backend (.agent (.encode w.backend.agent.credentialsQueue.length))) = some told := by
    rw [step_of_backend rfl hencoded, hreply]
  have hdone : site.step told (.deliver w.down.length) =
      some { told with down := w.down, node := n } :=
    Option.bind_eq_some_iff.mpr ⟨_, Lib.takeAt_concat _ _,
      Option.bind_eq_some_iff.mpr ⟨n, hn, rfl⟩⟩
  refine ⟨{ told with down := w.down, node := n }, ?_, rfl, rfl⟩
  simp only [round, run, hsent, hasked, hacted, htold, hdone, Option.bind_some]

/-- A push that fails ends in a reset. -/
theorem measurement_round {s : Sample} {now : Timestamp} {m : Measurement}
    (hasks : Asks (site.asking w s now) (.measurement m none)) :
    ∃ acts w', run site.step w acts = some w' ∧ w'.node.deviceToken.bytes = [10] ∧
      w'.backend.cumulocity = w.backend.cumulocity.present m.password.text := by
  obtain ⟨b, hb, htells⟩ := w.backend.agent.push_tells hasks
  obtain ⟨n, hn⟩ := w.node.exists_applyReply (show Answer.reset.content.length < 256 by decide)
  have hcalls : run Cumulocity.call w.backend.cumulocity
      [m.call (site.asking w s now) false] = some _ :=
    Cumulocity.run_push.mpr ⟨nofun, rfl⟩
  obtain ⟨w', hrun, hnode, hplatform⟩ := run_round rfl hb htells hcalls hn
  refine ⟨_, w', hrun, ?_, hplatform⟩
  rw [hnode, Node.applyReply_stored hn]
  rfl

/-- A registration that the platform goes along with ends in credentials. -/
theorem register_round {s : Sample} {now : Timestamp} {deviceId password id : Line}
    (hasks : Asks (site.asking w s now) (.register deviceId none))
    (hpending : site.imei ∈ w.backend.cumulocity.pending)
    (hfresh : password.text ∉ w.backend.cumulocity.seen)
    (hfree : id.text ∉ w.backend.cumulocity.inventory.map (·.1.text))
    (hpassword : '\x00' ∉ password.text) (hid : '\x00' ∉ id.text)
    (hshort : (credentialsReply password id).length ≤ 20) :
    ∃ acts w', run site.step w acts = some w' ∧ site.Holds w' password id := by
  obtain ⟨pkt, hpkt, hname⟩ := hasks.1
  have hdevice : deviceId.text = site.imei :=
    hname.symm.trans (Incoming.packet_deviceId (i := ⟨site.deviceId.bytes, site.lf_free⟩) rfl hpkt)
  obtain ⟨b, hb, htells⟩ := w.backend.agent.register_tells hasks password id
  obtain ⟨n, hn⟩ := w.node.exists_applyReply
    (show (Answer.credentials password id).content.length < 256 by
      exact Nat.lt_of_le_of_lt hshort (by decide))
  have hcalls := Cumulocity.run_enroll hpending hfresh hfree
  rw [← hdevice] at hcalls
  obtain ⟨w', hrun, hnode, hplatform⟩ := run_round rfl hb htells hcalls hn
  refine ⟨_, w', hrun, ?_, ?_⟩
  · have hnul := nul_not_mem_credentialsReply hpassword hid
    rw [hnode]
    exact (Node.applyReply_deviceToken hnul hn 0).trans (List.take_of_length_le hshort)
  · rw [hplatform, hdevice]
    simp [Cumulocity.enroll, Cumulocity.release]

/-- The operator can always have a registration of the node pending. -/
theorem accept_round (site : Site) (w : World) : ∃ acts w', run site.step w acts = some w' ∧
    w'.node = w.node ∧ site.imei ∈ w'.backend.cumulocity.pending ∧
      w'.backend.cumulocity.seen = w.backend.cumulocity.seen ∧
      w'.backend.cumulocity.inventory = w.backend.cumulocity.inventory := by
  by_cases h : site.imei ∈ w.backend.cumulocity.pending
  · exact ⟨[], w, rfl, rfl, h, rfl, rfl⟩
  · have hb : w.backend.step (.accept site.imei) = some { w.backend with
        cumulocity := { w.backend.cumulocity with
          accepted := site.imei :: w.backend.cumulocity.accepted
          pending := site.imei :: w.backend.cumulocity.pending } } := by
      simp [Backend.step, Cumulocity.accept, h]
    exact ⟨[.backend (.accept site.imei)], _,
      Lib.run_cons.mpr ⟨_, step_of_backend rfl hb, rfl⟩, rfl, List.mem_cons_self, rfl, rfl⟩

/-- A sample whose packet has no line feed. -/
def calm : Sample := ⟨0, 0, 0, 0, 0, 0, 0, 0⟩

theorem calm_free : (10 : UInt8) ∉ pack calm := by decide

theorem reset_asks {d : Incoming} {token : CString} (htoken : token.bytes = [10])
    (hdata : d.data = frame site.deviceId token (pack calm)) :
    ∃ id, Asks d (.register id none) := by
  have halive : ¬ Mute token := by
    intro hmute
    have htwo := hmute.line_feeds
    rw [htoken] at htwo
    exact absurd htwo (by decide)
  rcases alive_asks halive calm_free hdata with ⟨m, hasks⟩ | hasks
  · obtain ⟨p, c, hsplit, _, _, hpassword, _⟩ := packet_fields hdata hasks.1
    rw [htoken] at hsplit
    have hp : p.bytes = [] := by
      have hlen := congrArg List.length hsplit
      simp only [List.length_append, List.length_cons, List.length_nil] at hlen
      exact List.length_eq_zero_iff.mp (by omega)
    rw [hp, newString_eq_nil.mpr rfl] at hpassword
    exact absurd hpassword m.password.ne_nil
  · exact hasks

/-- From wherever a run got to with a token that is not mute, the node gets to hold any
credentials that the platform can issue. -/
theorem recovers {password id : Line} (halive : ¬ Mute w.node.deviceToken)
    (hcan : CanIssue w password id) :
    ∃ acts w', run site.step w acts = some w' ∧ site.Holds w' password id := by
  let now : Timestamp := ⟨[], List.not_mem_nil⟩
  obtain ⟨accepting, u, hu, hnode, hpending, hseen, hinventory⟩ := accept_round site w
  have hfree : id.text ∉ u.backend.cumulocity.inventory.map (·.1.text) :=
    hinventory ▸ hcan.free
  rw [← hnode] at halive
  rcases alive_asks (d := site.asking u calm now) halive calm_free rfl with
    ⟨m, hasks⟩ | ⟨deviceId, hasks⟩
  · obtain ⟨failing, v, hv, htoken, hplatform⟩ := measurement_round hasks
    obtain ⟨deviceId, hagain⟩ := reset_asks (d := site.asking v calm now) htoken rfl
    obtain ⟨p, c, hsplit, _, _, hpresented, _⟩ := packet_fields rfl hasks.1
    have hother : m.password.text ≠ password.text := by
      rw [hpresented]
      exact hcan.unheld p c (hnode ▸ hsplit)
    obtain ⟨registering, t, ht, hholds⟩ := register_round hagain
      (by rw [hplatform]; exact hpending)
      (by
        rw [hplatform]
        exact List.not_mem_cons_of_ne_of_not_mem hother.symm (hseen ▸ hcan.fresh))
      (by rw [hplatform]; exact hfree)
      hcan.password_nul_free hcan.id_nul_free hcan.short
    exact ⟨accepting ++ (failing ++ registering), t,
      Lib.run_append.mpr ⟨u, hu, Lib.run_append.mpr ⟨v, hv, ht⟩⟩, hholds⟩
  · obtain ⟨registering, t, ht, hholds⟩ := register_round hasks hpending
      (hseen ▸ hcan.fresh) hfree hcan.password_nul_free hcan.id_nul_free hcan.short
    exact ⟨accepting ++ registering, t, Lib.run_append.mpr ⟨u, hu, ht⟩, hholds⟩

end Site

/-- From every state that any run of a `World` gets to, the node can be brought to hold
any credentials that the platform can issue then, if and only if the token it first found
in the EEPROM is not mute. -/
theorem recovers_iff (site : Site) (eeprom : Eeprom) :
    (∀ acts w, run site.step (Site.start eeprom) acts = some w →
      ∀ password id, Site.CanIssue w password id →
        ∃ more w', run site.step w more = some w' ∧ site.Holds w' password id) ↔
      ¬ Mute (storedToken eeprom) := by
  refine ⟨?_, ?_⟩
  · intro h hmute
    have htwo := hmute.line_feeds
    have hcan : Site.CanIssue (Site.start eeprom) (Small.line 7) (Small.line 1) := by
      refine ⟨List.not_mem_nil, fun p c hsplit => ?_, List.not_mem_nil, by decide +kernel,
        by decide +kernel, by decide +kernel⟩
      have hcount := congrArg (List.count 10) hsplit
      rw [List.count_append, List.count_cons_self, List.count_eq_zero.mpr p.free,
        List.count_eq_zero.mpr c.free] at hcount
      exact absurd (Nat.le_trans htwo (Nat.le_of_eq hcount)) (by decide)
    obtain ⟨more, w', hrun, htoken, _⟩ := h [] _ rfl _ _ hcan
    rw [← Site.run_mute hmute hrun, htoken] at htwo
    have hone := (Answer.credentials (Small.line 7) (Small.line 1)).line_feeds
    exact absurd (Nat.le_trans htwo (Nat.le_of_eq hone)) (by decide)
  · intro halive acts w hrun password id hcan
    exact Site.recovers (Site.run_alive halive hrun) hcan

end NbIot
