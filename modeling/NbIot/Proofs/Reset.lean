import NbIot.Proofs.Credentials
import NbIot.Proofs.Traffic

/-!
# A reset answers a dead token, and overwrites whatever is there

A push that fails says that the credentials in its message were not current
when it was made. They never become current again, because a password the
platform has seen is not given out a second time. So a reset is right about the
frame it answers. But the message that carries it holds an address and nothing
else, and the node stores it over the token it has by then.
-/

namespace NbIot

open Lib (Tagged)

/-- The platform's answer is the only one its state allows. -/
def ExactCall (c : Cumulocity) : PlatformCall → Prop
  | .pollCredentials deviceId password =>
      password.isSome = true ↔ deviceId ∈ c.pending
  | .createObject .. => True
  | .createMeasurement user password _ stored =>
      stored = true ↔ c.credentials user = some password

instance (c : Cumulocity) : ∀ call, Decidable (ExactCall c call)
  | .pollCredentials .. => inferInstanceAs (Decidable (_ ↔ _))
  | .createObject .. => isTrue trivial
  | .createMeasurement .. => inferInstanceAs (Decidable (_ ↔ _))

/-- The password has been used up: it is not current and cannot be given out. -/
def Dead (c : Cumulocity) (user password : JString) : Prop :=
  password ∈ c.seen ∧ c.credentials user ≠ some password

def FailuresDead (xs : List Exchange) (c : Cumulocity) : Prop :=
  ∀ (o : Nat) x m, xs[o]? = some x → x.work = .measurement m (some false) →
    Dead c (username m.deviceId.text) m.password.text

theorem Dead.change {xs ys : List Exchange} {c c' : Cumulocity}
    {act : BackendAction} {made : List PlatformCall} {user password : JString}
    (h : Dead c user password) (hchange : Change xs c act made ys c') :
    Dead c' user password := by
  obtain ⟨hseen, hcred⟩ := h
  rcases hchange.platform with ⟨seen, hmono, rfl⟩ | ⟨deviceId, _, rfl⟩ |
    ⟨deviceId, _, rfl⟩ | ⟨deviceId, fresh, create, _, _, hfresh, rfl⟩
  · exact ⟨hmono hseen, hcred⟩
  · exact ⟨hseen, hcred⟩
  · refine ⟨hseen, ?_⟩
    simp only [Cumulocity.revoke, Function.update_apply]
    split
    · exact (Option.some_ne_none password).symm
    · exact hcred
  · refine ⟨List.mem_cons_of_mem _ hseen, ?_⟩
    simp only [Cumulocity.enroll, Cumulocity.release, Function.update_apply]
    split
    · intro heq
      injection heq with heq
      exact hfresh (heq ▸ hseen)
    · exact hcred

theorem failuresDead_change {xs ys : List Exchange} {c c' : Cumulocity}
    {act : BackendAction} {made : List PlatformCall} (h : FailuresDead xs c)
    (hchange : Change xs c act made ys c')
    (hexact : ∀ call ∈ made, ExactCall c call) : FailuresDead ys c' := by
  intro o y m hy hw
  have hsame := hchange
  cases hchange with
  | accept deviceId hpending => exact (h o y m hy hw).change hsame
  | revoke deviceId => exact (h o y m hy hw).change hsame
  | agent hmove hcalls =>
      obtain ⟨x, hx, _, _, hwork⟩ := hmove.finished hy (by rw [hw]; rfl)
      rcases hwork with hold | ⟨m', i, stored, _, hpush, _, hmade⟩ |
        ⟨id, i, poll, create, _, hreg, _⟩
      · exact (h o x m hx (hold ▸ hw)).change hsame
      · rw [hw] at hpush
        injection hpush with hm hstored
        injection hstored with hstored
        rw [← hm, ← hstored] at hmade
        have hfailed := hexact (m.call x.incoming false)
          (by rw [hmade]; exact List.mem_singleton_self _)
        rw [hmade] at hcalls
        rw [(Cumulocity.run_push.mp hcalls).2]
        exact ⟨List.mem_cons_self, fun hcred => absurd (hfailed.mpr hcred) (by simp)⟩
      · rw [hw] at hreg
        cases hreg

/-- The token of a frame that was read as a measurement holds the password the
agent found in it. -/
theorem Site.not_accepts {site : Site} {c : Cumulocity} {d : Incoming}
    {token : CString} {p : Bytes} {m : Measurement}
    (hdata : d.data = frame site.deviceId token p)
    (hpacket : d.packet = .ok (m.packet d))
    (hcred : c.credentials (username m.deviceId.text) ≠ some m.password.text) :
    ¬ site.Accepts c token := by
  intro ⟨pw, cid, htoken, hpw⟩
  have hread := ofDatagram_three_lines d.sender.host d.sender.port.toNat d.now.text
    ⟨site.deviceId.bytes, site.lf_free⟩ pw cid p
  rw [← frame_two_lines rfl htoken, ← hdata] at hread
  injection hread.symm.trans hpacket with hpkt
  have hid : m.deviceId.text = site.imei := (congrArg DataPacket.deviceId hpkt).symm
  have hpassword : m.password.text = pw.text := (congrArg DataPacket.password hpkt).symm
  rw [hid, hpassword] at hcred
  exact hcred hpw

/-- For every run in which the platform answers exactly, and every reset on its
way to the node: the reset answers a frame of the node whose push failed, and
the token the node sent in that frame is not accepted. So the token it is about
to overwrite is accepted only if the node has stored it since. -/
theorem reset_answers_dead_token (site : Site) (eeprom : Eeprom)
    (acts : List WorldAction) (w : World)
    (hrun : Lib.run site.step (Site.start eeprom) acts = some w)
    (hexact : Lib.Along (site.Calls ExactCall) site.step (Site.start eeprom) acts)
    (m : Tagged Bytes) (hm : m ∈ w.down) (hreset : m.body = [10]) :
    ∃ d token s user password measurement,
      w.backend.agent.received[m.origin]? = some d ∧ token ∈ w.tokens ∧
      d.data = frame site.deviceId token (pack s) ∧
      ⟨m.origin, .createMeasurement user password measurement false⟩ ∈
        w.backend.agent.calls ∧
      ¬ site.Accepts w.backend.cumulocity token ∧
      (site.Accepts w.backend.cumulocity w.node.deviceToken →
        w.node.deviceToken ≠ token) := by
  have hinit : FailuresDead [] {} := fun o x _ hx => by simp at hx
  obtain ⟨xs, href, htraffic, hdead⟩ := Site.run_invariant
    (fun w act w' xs bact ys hinv hok hs _ hchange =>
      failuresDead_change hinv hchange (hok w' hs)) hinit hexact hrun
  obtain ⟨x, ans, hx, hans, _, hbody, howns⟩ := htraffic.answered href hm
  obtain ⟨hreceived, token, htoken, s, hdata⟩ := htraffic.framed href hx howns
  rcases Work.answer_eq_some hans with ⟨meas, hw, _⟩ | ⟨id, pw, cid, _, rfl⟩
  · have hask := href.asks_getElem? hx
    rw [hw] at hask
    have hcall : ⟨m.origin, meas.call x.incoming false⟩ ∈ w.backend.agent.calls := by
      refine (href.calls _).mpr ⟨x, hx, ?_⟩
      rw [hw]
      exact List.mem_singleton_self _
    have hno := Site.not_accepts hdata hask.1 (hdead m.origin x meas hx hw).2
    exact ⟨x.incoming, token, s, _, _, _, hreceived, htoken, hdata, hcall, hno,
      fun hyes heq => hno (heq ▸ hyes)⟩
  · rw [hreset] at hbody
    exact absurd hbody.symm (credentialsReply_ne_reset pw cid)

/-- Two frames carry the first credentials. Both pushes fail once these are
revoked, the second one after the node has been enrolled again. -/
def lateReset : List WorldAction :=
  Small.enrolled (Small.line 7) (Small.line 1)
    ++ [.deliver 0] ++ Small.sent ++ Small.sent ++ [.backend (.revoke ['d'])]
    ++ Small.failed ++ [.deliver 0]
    ++ Small.enrolled (Small.line 8) (Small.line 2)
    ++ [.deliver 0] ++ Small.failed

theorem lateReset_view :
    Lib.Along (Small.site.Calls ExactCall) Small.site.step (Site.start Eeprom.erased)
        lateReset ∧
      ∃ w, Lib.run Small.site.step (Site.start Eeprom.erased) lateReset = some w ∧
        w.down = [⟨2, [10]⟩] ∧
        Small.site.Accepts w.backend.cumulocity w.node.deviceToken := by
  refine ⟨by decide +kernel, ?_⟩
  have hview : (Lib.run Small.site.step (Site.start Eeprom.erased) lateReset).map
      (fun w => decide (w.down = [⟨2, [10]⟩] ∧
        Small.site.Accepts w.backend.cumulocity w.node.deviceToken)) = some true := by
    decide +kernel
  obtain ⟨w, hrun, hw⟩ := Option.map_eq_some_iff.mp hview
  exact ⟨w, hrun, of_decide_eq_true hw⟩

theorem reset_answers_dead_token_late :
    ∃ w, Lib.run Small.site.step (Site.start Eeprom.erased) lateReset = some w ∧
      ∃ token ∈ w.tokens, ¬ Small.site.Accepts w.backend.cumulocity token := by
  obtain ⟨hexact, w, hrun, hdown, _⟩ := lateReset_view
  obtain ⟨d, token, s, _, _, _, _, htoken, _, _, hno, _⟩ :=
    reset_answers_dead_token Small.site Eeprom.erased lateReset w hrun hexact
      ⟨2, [10]⟩ (by rw [hdown]; exact List.mem_singleton_self _) rfl
  exact ⟨w, hrun, token, htoken, hno⟩

/-- The reset for the old token is about to overwrite the new one, which the
platform accepts. -/
theorem reset_of_accepted_token :
    ∃ w, Lib.run Small.site.step (Site.start Eeprom.erased) lateReset = some w ∧
      Lib.Along (Small.site.Calls ExactCall) Small.site.step (Site.start Eeprom.erased)
        lateReset ∧
      (∃ m ∈ w.down, m.body = [10]) ∧
      Small.site.Accepts w.backend.cumulocity w.node.deviceToken := by
  obtain ⟨hexact, w, hrun, hdown, haccepts⟩ := lateReset_view
  refine ⟨w, hrun, hexact, ⟨⟨2, [10]⟩, ?_, rfl⟩, haccepts⟩
  rw [hdown]
  exact List.mem_singleton_self _

end NbIot
