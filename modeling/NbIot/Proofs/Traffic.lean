import NbIot.World

/-!
# What travels between the node and the agent

A frame that reaches the agent from the node's address carries a token the
node once held. A reply on its way to the node was sent by the agent, and only
once. Both hold in every run, and the proofs further on look at the exchanges
behind what travels.
-/

namespace NbIot

open Lib (Tagged)

namespace Site

def Framed (site : Site) (tokens : List CString) (data : Bytes) : Prop :=
  ∃ token ∈ tokens, ∃ s, data = frame site.deviceId token (pack s)

theorem Framed.mono {site : Site} {tokens : List CString} {data : Bytes}
    (h : site.Framed tokens data) (more : List CString) :
    site.Framed (tokens ++ more) data := by
  obtain ⟨token, htoken, s, hdata⟩ := h
  exact ⟨token, List.mem_append_left _ htoken, s, hdata⟩

/-- The reply is one the agent sent to the node. -/
def Answered (site : Site) (a : Agent) (m : Tagged Bytes) : Prop :=
  ∃ r ∈ a.sent, r.origin = m.origin ∧ site.Owns r.body.host r.body.port ∧
    r.body.content = m.body

structure Traffic (site : Site) (w : World) : Prop where
  node : w.node.deviceToken = storedToken w.node.eeprom
  up : ∀ data ∈ w.up, site.Framed w.tokens data
  received : ∀ d ∈ w.backend.agent.received,
    site.Owns d.sender.host d.sender.port.toNat → site.Framed w.tokens d.data
  down : ∀ m ∈ w.down, site.Answered w.backend.agent m
  down_nodup : (w.down.map (·.origin)).Nodup

theorem mem_repliesSince {site : Site} {before after : Agent} {m : Tagged Bytes}
    (h : m ∈ site.repliesSince before after) :
    ∃ r ∈ after.sent.drop before.sent.length, r.origin = m.origin ∧
      site.Owns r.body.host r.body.port ∧ r.body.content = m.body := by
  obtain ⟨r, hr, hm⟩ := List.mem_map.mp h
  obtain ⟨hmem, howns⟩ := List.mem_filter.mp hr
  exact ⟨r, hmem, by rw [← hm], of_decide_eq_true howns, by rw [← hm]⟩

theorem repliesSince_origins (site : Site) (before after : Agent) :
    ((site.repliesSince before after).map (·.origin)).Sublist
      ((after.sent.drop before.sent.length).map (·.origin)) := by
  rw [repliesSince, List.map_map]
  exact List.Sublist.map Tagged.origin List.filter_sublist

theorem step_backend {b b' : Backend} {act : BackendAction}
    (h : b.step act = some b') :
    (∃ new, b'.agent.sent = b.agent.sent ++ new) ∧
      (b'.agent.received = b.agent.received ∨
        ∃ d, act = .agent (.receive d) ∧
          b'.agent.received = b.agent.received ++ [d]) := by
  cases act with
  | agent act =>
      obtain ⟨a, ha, hrest⟩ := Option.bind_eq_some_iff.mp h
      obtain ⟨c, hc, hb⟩ := Option.bind_eq_some_iff.mp hrest
      injection hb with hb
      obtain ⟨hsent, hreceived⟩ := Agent.step_histories ha
      rw [← hb]
      refine ⟨hsent, hreceived.imp_right ?_⟩
      intro ⟨d, hact, hd⟩
      exact ⟨d, by rw [hact], hd⟩
  | accept deviceId =>
      obtain ⟨c, _, hb⟩ := Option.bind_eq_some_iff.mp h
      injection hb with hb
      rw [← hb]
      exact ⟨⟨[], by simp⟩, Or.inl rfl⟩
  | revoke deviceId =>
      injection h with h
      rw [← h]
      exact ⟨⟨[], by simp⟩, Or.inl rfl⟩

theorem Answered.mono {site : Site} {a b : Agent} {m : Tagged Bytes}
    (h : site.Answered a m) {new : List (Tagged Reply)}
    (hsent : b.sent = a.sent ++ new) : site.Answered b m := by
  obtain ⟨r, hr, hrest⟩ := h
  exact ⟨r, hsent ▸ List.mem_append_left _ hr, hrest⟩

theorem start_traffic (site : Site) (eeprom : Eeprom) :
    site.Traffic (start eeprom) where
  node := rfl
  up := by simp [start]
  received := by simp [start]
  down := by simp [start]
  down_nodup := List.nodup_nil

theorem step_traffic {site : Site} {w w' : World} {act : WorldAction}
    (h : site.Traffic w) (hs : site.step w act = some w')
    (hnodup : (w'.backend.agent.sent.map (·.origin)).Nodup) : site.Traffic w' := by
  cases step_steps hs with
  | send s =>
      refine ⟨h.node, ?_, fun d hd howns => (h.received d hd howns).mono _, h.down,
        h.down_nodup⟩
      intro data hdata
      rcases List.mem_append.mp hdata with hold | hnew
      · exact (h.up data hold).mono _
      · rw [List.mem_singleton.mp hnew]
        exact ⟨_, List.mem_append_right _ (List.mem_singleton_self _), s, rfl⟩
  | @arrive data rest b i now htake hb =>
      obtain ⟨⟨new, hsent⟩, hreceived⟩ := step_backend hb
      refine ⟨h.node, fun _ hm => h.up _ (Lib.mem_of_mem_rest htake hm), ?_,
        fun m hm => (h.down m hm).mono hsent, h.down_nodup⟩
      intro d hd howns
      rcases hreceived with heq | ⟨d', hact, heq⟩
      · exact h.received d (heq ▸ hd) howns
      · injection hact with hact
        injection hact with hact
        rw [heq, List.mem_append, List.mem_singleton] at hd
        rcases hd with hd | rfl
        · exact h.received d hd howns
        · rw [← hact]
          exact h.up data (Lib.mem_of_takeAt htake)
  | deliver i htake hn =>
      obtain ⟨_, rfl⟩ := Node.applyReply_eq_some.mp hn
      refine ⟨rfl, h.up, h.received,
        fun n hn => h.down n (Lib.mem_of_mem_rest htake hn), ?_⟩
      have hperm := (Lib.perm_of_takeAt htake).map Tagged.origin
      exact (List.nodup_cons.mp (hperm.nodup_iff.mp h.down_nodup)).2
  | reboot => exact ⟨rfl, h.up, h.received, h.down, h.down_nodup⟩
  | @backend b act hstranger hb =>
      obtain ⟨⟨new, hsent⟩, hreceived⟩ := step_backend hb
      have hdrop : b.agent.sent.drop w.backend.agent.sent.length = new := by
        rw [hsent, List.drop_left]
      refine ⟨h.node, h.up, ?_, ?_, ?_⟩
      · intro d hd howns
        rcases hreceived with heq | ⟨d', hact, heq⟩
        · exact h.received d (heq ▸ hd) howns
        · rw [heq, List.mem_append, List.mem_singleton] at hd
          rcases hd with hd | rfl
          · exact h.received d hd howns
          · rw [hact, spoofs, decide_eq_false_iff_not] at hstranger
            exact absurd howns hstranger
      · intro m hm
        rcases List.mem_append.mp hm with hold | hnew
        · exact (h.down m hold).mono hsent
        · obtain ⟨r, hr, hrest⟩ := mem_repliesSince hnew
          exact ⟨r, List.mem_of_mem_drop hr, hrest⟩
      · simp only [hsent, List.map_append] at hnodup
        obtain ⟨_, hnew, hapart⟩ := List.nodup_append.mp hnodup
        have hsub := repliesSince_origins site w.backend.agent b.agent
        rw [hdrop] at hsub
        rw [List.map_append, List.nodup_append]
        refine ⟨h.down_nodup, hsub.nodup hnew, ?_⟩
        intro o ho o' ho'
        obtain ⟨m, hm, rfl⟩ := List.mem_map.mp ho
        obtain ⟨r, hr, horigin, _⟩ := h.down m hm
        exact hapart m.origin (horigin ▸ List.mem_map_of_mem hr) o' (hsub.subset ho')

/-! ## The backend's part of a step -/

/-- A step leaves the backend alone or is one of its steps. -/
theorem step_change {site : Site} {w w' : World} {act : WorldAction}
    {xs : List Exchange} (href : Refines w.backend.agent xs)
    (hs : site.step w act = some w') :
    ∃ ys, Refines w'.backend.agent ys ∧
      (ys = xs ∧ w'.backend = w.backend ∨
        ∃ bact, (act = .backend bact ∨ ∃ d, bact = .agent (.receive d)) ∧
          Change xs w.backend.cumulocity bact
            (Backend.callsSince w.backend.agent w'.backend.agent) ys
            w'.backend.cumulocity) := by
  cases step_steps hs with
  | send s => exact ⟨xs, href, Or.inl ⟨rfl, rfl⟩⟩
  | reboot => exact ⟨xs, href, Or.inl ⟨rfl, rfl⟩⟩
  | deliver i htake hn => exact ⟨xs, href, Or.inl ⟨rfl, rfl⟩⟩
  | arrive i now htake hb =>
      obtain ⟨ys, hys, hchange⟩ := Backend.step_change href hb
      exact ⟨ys, hys, Or.inr ⟨_, Or.inr ⟨_, rfl⟩, hchange⟩⟩
  | backend act hstranger hb =>
      obtain ⟨ys, hys, hchange⟩ := Backend.step_change href hb
      exact ⟨ys, hys, Or.inr ⟨act, Or.inl rfl, hchange⟩⟩

/-- The invariant rule for a world. What every change of the backend keeps
under a condition on the step, holds in every state of a run whose steps meet
the condition, and the traffic is in order there. -/
theorem run_invariant {site : Site} {ok : World → WorldAction → Prop}
    {inv : List Exchange → Cumulocity → Prop}
    (hchange : ∀ w act w' xs bact ys, inv xs w.backend.cumulocity → ok w act →
      site.step w act = some w' →
      (act = .backend bact ∨ ∃ d, bact = .agent (.receive d)) →
      Change xs w.backend.cumulocity bact
        (Backend.callsSince w.backend.agent w'.backend.agent) ys
        w'.backend.cumulocity → inv ys w'.backend.cumulocity)
    (hinit : inv [] {}) {eeprom : Eeprom} {acts : List WorldAction} {w : World}
    (hok : Lib.Along ok site.step (start eeprom) acts)
    (hrun : Lib.run site.step (start eeprom) acts = some w) :
    ∃ xs, Refines w.backend.agent xs ∧ site.Traffic w ∧
      inv xs w.backend.cumulocity := by
  have hstep : ∀ (s : World) act t,
      (∃ xs, Refines s.backend.agent xs ∧ site.Traffic s ∧ inv xs s.backend.cumulocity) →
      ok s act → site.step s act = some t →
      ∃ ys, Refines t.backend.agent ys ∧ site.Traffic t ∧ inv ys t.backend.cumulocity := by
    intro s act t ⟨xs, href, htraffic, hinv⟩ hok hs
    obtain ⟨ys, hys, hcases⟩ := step_change href hs
    refine ⟨ys, hys, step_traffic htraffic hs hys.sent.nodup, ?_⟩
    rcases hcases with ⟨rfl, hsame⟩ | ⟨bact, hact, hc⟩
    · rw [hsame]
      exact hinv
    · exact hchange s act t xs bact ys hinv hok hs hact hc
  exact Lib.run_invariant_along hstep ⟨[], Refines.init, start_traffic site eeprom, hinit⟩
    hok hrun

/-! ## The exchanges behind the traffic -/

theorem Framed.packet_deviceId {site : Site} {tokens : List CString} {d : Incoming}
    (h : site.Framed tokens d.data) {pkt : DataPacket} (hpkt : d.packet = .ok pkt) :
    pkt.deviceId = site.imei := by
  obtain ⟨token, _, s, hdata⟩ := h
  exact Incoming.packet_deviceId (i := ⟨site.deviceId.bytes, site.lf_free⟩) hdata hpkt

namespace Traffic

variable {site : Site} {w : World} {xs : List Exchange}

/-- A reply on its way is the answer of an exchange with the node. -/
theorem answered (h : site.Traffic w) (href : Refines w.backend.agent xs)
    {m : Tagged Bytes} (hm : m ∈ w.down) :
    ∃ x ans, xs[m.origin]? = some x ∧ x.work.answer = some ans ∧
      x.replied = true ∧ m.body = ans.content ∧
      site.Owns x.incoming.sender.host x.incoming.sender.port.toNat := by
  obtain ⟨r, hr, horigin, howns, hbody⟩ := h.down m hm
  have hview := (href.sent.mem_iff r).mp hr
  rw [horigin] at hview
  obtain ⟨x, hx, hreply⟩ := Lib.view_eq_some.mp hview
  obtain ⟨ans, hans, hreplied, hcontent⟩ := Exchange.reply_eq_some hreply
  rw [hcontent] at hbody howns
  exact ⟨x, ans, hx, hans, hreplied, hbody.symm, howns⟩

theorem framed (h : site.Traffic w) (href : Refines w.backend.agent xs) {o : Nat}
    {x : Exchange} (hx : xs[o]? = some x)
    (howns : site.Owns x.incoming.sender.host x.incoming.sender.port.toNat) :
    w.backend.agent.received[o]? = some x.incoming ∧
      site.Framed w.tokens x.incoming.data := by
  have hreceived : w.backend.agent.received[o]? = some x.incoming := by
    rw [href.received, List.getElem?_map, hx]
    rfl
  exact ⟨hreceived, h.received _ (List.mem_of_getElem? hreceived) howns⟩

/-- A registration of the node is for its own device id. -/
theorem register_id (h : site.Traffic w) (href : Refines w.backend.agent xs) {o : Nat}
    {x : Exchange} (hx : xs[o]? = some x)
    (howns : site.Owns x.incoming.sender.host x.incoming.sender.port.toNat)
    {id : Line} {answers : Option (Option Line × Option Line)}
    (hw : x.work = .register id answers) : id.text = site.imei := by
  have hask := href.asks_getElem? hx
  rw [hw] at hask
  obtain ⟨⟨pkt, hpkt, hid⟩, _⟩ := hask
  rw [← hid]
  exact (h.framed href hx howns).2.packet_deviceId hpkt

end Traffic

end Site

end NbIot
