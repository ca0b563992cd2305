import NbIot.Proofs.Credentials
import NbIot.Proofs.Traffic

/-!
# Credentials that stay valid are kept, while no push fails

Where a device is given one password and keeps it, one exchange hands it out.
A reply that could overwrite it is a reset. `pushMeasurement` makes one on any
failure, so what keeps the token is that no push of the node fails while the
token is good, and that no reset was on its way when the token came.
-/

namespace NbIot

open Lib (Tagged)

/-- The device has no password yet when it is given one. -/
def FirstIssue (c : Cumulocity) : PlatformCall → Prop
  | .pollCredentials deviceId (some _) => c.credentials (username deviceId) = none
  | _ => True

instance (c : Cumulocity) : ∀ call, Decidable (FirstIssue c call)
  | .pollCredentials deviceId (some _) =>
      inferInstanceAs (Decidable (c.credentials (username deviceId) = none))
  | .pollCredentials _ none => isTrue trivial
  | .createObject .. => isTrue trivial
  | .createMeasurement .. => isTrue trivial

def WorldAction.isRevoke : WorldAction → Bool
  | .backend (.revoke _) => true
  | _ => false

namespace Site

/-- No credentials are revoked, and no device is issued any a second time. -/
def IssuedOnce (site : Site) (w : World) (act : WorldAction) : Prop :=
  act.isRevoke = false ∧ site.Calls FirstIssue w act

instance (site : Site) (w : World) (act : WorldAction) :
    Decidable (site.IssuedOnce w act) :=
  inferInstanceAs (Decidable (_ ∧ _))

def ResetUnderWay (site : Site) (w : World) : Prop :=
  (∃ m ∈ w.down, m.body = [10]) ∨ ∃ m ∈ w.backend.agent.credentialsQueue,
    m.body = resetMessage site.address.host site.address.port.toNat

instance (site : Site) (w : World) : Decidable (site.ResetUnderWay w) :=
  inferInstanceAs (Decidable (_ ∨ _))

/-- No push of the node fails while its token is good, and credentials do not
meet a reset on their way. -/
def Keeps (site : Site) (w : World) : WorldAction → Prop
  | .backend (.agent (.push i false)) =>
      ∀ msg ∈ w.backend.agent.measurementQueue[i]?,
        ∀ d ∈ w.backend.agent.received[msg.origin]?,
          site.Owns d.sender.host d.sender.port.toNat →
            ¬ site.Accepts w.backend.cumulocity w.node.deviceToken
  | .deliver i => ∀ m ∈ w.down[i]?, m.body ≠ [10] → ¬ site.ResetUnderWay w
  | _ => True

end Site

instance (site : Site) (w : World) : ∀ act, Decidable (site.Keeps w act)
  | .backend (.agent (.push i false)) => inferInstanceAs (Decidable
      (∀ msg ∈ w.backend.agent.measurementQueue[i]?,
        ∀ d ∈ w.backend.agent.received[msg.origin]?, _ → ¬ _))
  | .deliver i =>
      inferInstanceAs (Decidable (∀ m ∈ w.down[i]?, _ → ¬ site.ResetUnderWay w))
  | .send _ | .arrive .. | .reboot | .backend (.accept _) | .backend (.revoke _)
  | .backend (.agent (.receive _)) | .backend (.agent (.push _ true))
  | .backend (.agent (.register ..)) | .backend (.agent (.encode _)) => isTrue trivial

theorem Site.IssuedOnce.not_revoke {site : Site} {w : World} {act : WorldAction}
    {bact : BackendAction} (h : site.IssuedOnce w act)
    (hact : act = .backend bact ∨ ∃ d, bact = .agent (.receive d))
    (deviceId : JString) : bact ≠ .revoke deviceId := by
  intro hrevoke
  rcases hact with rfl | ⟨d, hd⟩
  · rw [hrevoke] at h
    exact absurd h.1 (by simp [WorldAction.isRevoke])
  · rw [hrevoke] at hd
    cases hd

/-! ## One exchange hands the password out -/

def Released (xs : List Exchange) (o : Nat) (deviceId password : JString) : Prop :=
  ∃ (x : Exchange) (id pw : Line) (create : Option Line), xs[o]? = some x ∧
    x.work = .register id (some (some pw, create)) ∧
    id.text = deviceId ∧ pw.text = password

/-- A released password is current, and no other exchange has one. -/
structure Issued (xs : List Exchange) (c : Cumulocity) : Prop where
  current : ∀ o deviceId password, Released xs o deviceId password →
    c.credentials (username deviceId) = some password
  once : ∀ o o' deviceId password password', Released xs o deviceId password →
    Released xs o' deviceId password' → o = o'

theorem first_issue {c : Cumulocity} {deviceId : JString} {password : Line}
    {create : Option Line}
    (h : ∀ call ∈ registerCalls deviceId (some password) create, FirstIssue c call) :
    c.credentials (username deviceId) = none :=
  h (.pollCredentials deviceId (some password)) List.mem_cons_self

/-- A password that was not released before is in the calls of the move, and in
the exchange the move is about. -/
theorem Moves.released {xs ys : List Exchange} {act : AgentAction}
    {made : List PlatformCall} (h : Moves xs act made ys) :
    ∃ p, ∀ o deviceId password, Released ys o deviceId password →
      Released xs o deviceId password ∨ o = p ∧ ∃ (pw : Line) (create : Option Line),
        pw.text = password ∧ made = registerCalls deviceId (some pw) create := by
  obtain ⟨p, helse⟩ := h.elsewhere
  refine ⟨p, ?_⟩
  intro o deviceId password ⟨y, id, pw, create, hy, hwork, hid, hpw⟩
  by_cases ho : o = p
  · obtain ⟨x, hx, _, _, hcases⟩ := h.finished hy (by rw [hwork]; rfl)
    rcases hcases with hsame | ⟨m, i, stored, _, hpush, _⟩ |
      ⟨device, i, poll, create', _, hreg, _, hmade⟩
    · exact Or.inl ⟨x, id, pw, create, hx, hsame ▸ hwork, hid, hpw⟩
    · rw [hwork] at hpush
      cases hpush
    · simp only [hwork, Work.register.injEq, Option.some.injEq, Prod.mk.injEq] at hreg
      obtain ⟨rfl, rfl, rfl⟩ := hreg
      exact Or.inr ⟨ho, pw, create, hpw, hid ▸ hmade⟩
  · exact Or.inl ⟨y, id, pw, create, helse o ho ▸ hy, hwork, hid, hpw⟩

/-- Without revoking and issuing again, a user keeps its password. -/
theorem Change.credentials {xs ys : List Exchange} {c c' : Cumulocity}
    {act : BackendAction} {made : List PlatformCall} (h : Change xs c act made ys c')
    (hrevoke : ∀ deviceId, act ≠ .revoke deviceId)
    (hfirst : ∀ call ∈ made, FirstIssue c call) {user password : JString}
    (hcred : c.credentials user = some password) :
    c'.credentials user = some password := by
  rcases h.platform with ⟨seen, _, rfl⟩ | ⟨deviceId, _, rfl⟩ |
    ⟨deviceId, hact, rfl⟩ | ⟨deviceId, pw, create, hmade, _, _, rfl⟩
  · exact hcred
  · exact hcred
  · exact absurd hact (hrevoke deviceId)
  · have hnone := first_issue (hmade ▸ hfirst)
    have hother : user ≠ username deviceId := by
      intro heq
      rw [heq, hnone] at hcred
      cases hcred
    simp only [Cumulocity.enroll, Cumulocity.release]
    rw [Function.update_of_ne hother]
    exact hcred

theorem issued_change {xs ys : List Exchange} {c c' : Cumulocity}
    {act : BackendAction} {made : List PlatformCall} (h : Issued xs c)
    (hchange : Change xs c act made ys c')
    (hrevoke : ∀ deviceId, act ≠ .revoke deviceId)
    (hfirst : ∀ call ∈ made, FirstIssue c call) : Issued ys c' := by
  have hkeep := fun o deviceId password hold =>
    hchange.credentials hrevoke hfirst (h.current o deviceId password hold)
  cases hchange with
  | accept deviceId hpending => exact ⟨hkeep, h.once⟩
  | revoke deviceId => exact absurd rfl (hrevoke deviceId)
  | agent hmove hcalls =>
      obtain ⟨p, hnew⟩ := hmove.released
      have hfresh : ∀ {o deviceId password} {pw : Line} {create : Option Line},
          made = registerCalls deviceId (some pw) create →
          ¬ Released xs o deviceId password := by
        intro o deviceId password pw create hmade hold
        have hsome := h.current o _ _ hold
        rw [first_issue (hmade ▸ hfirst)] at hsome
        cases hsome
      refine ⟨?_, ?_⟩
      · intro o deviceId password hy
        rcases hnew o _ _ hy with hold | ⟨_, pw, create, rfl, hmade⟩
        · exact hkeep o _ _ hold
        · rw [hmade] at hcalls
          rw [(Cumulocity.run_register_some hcalls).2.2]
          exact Function.update_self _ _ _
      · intro o o' deviceId password password' hy hy'
        rcases hnew o _ _ hy with hold | ⟨ho, pw, create, _, hmade⟩
        · rcases hnew o' _ _ hy' with hold' | ⟨_, pw, create, _, hmade⟩
          · exact h.once o o' _ _ _ hold hold'
          · exact absurd hold (hfresh hmade)
        · rcases hnew o' _ _ hy' with hold' | ⟨ho', _⟩
          · exact absurd hold' (hfresh hmade)
          · rw [ho, ho']

/-! ## Nothing is left that could change the token -/

namespace Site

/-- The token is good, and every answer to the node has been delivered. -/
structure Settled (site : Site) (xs : List Exchange) (w : World) : Prop where
  accepts : site.Accepts w.backend.cumulocity w.node.deviceToken
  down : w.down = []
  replied : ∀ (o : Nat) x, xs[o]? = some x →
    site.Owns x.incoming.sender.host x.incoming.sender.port.toNat →
      x.work.answer ≠ none → x.replied = true

variable {site : Site} {w w' : World} {xs ys : List Exchange}

/-- Once the node has been handed its credentials, every other answer to it is a
reset. -/
theorem other_answers (htraffic : site.Traffic w) (href : Refines w.backend.agent xs)
    (hissued : Issued xs w.backend.cumulocity) {o : Nat} {password : JString}
    (hrel : Released xs o site.imei password) {o' : Nat} {x : Exchange} {ans : Answer}
    (hx : xs[o']? = some x)
    (howns : site.Owns x.incoming.sender.host x.incoming.sender.port.toNat)
    (hans : x.work.answer = some ans) : ans = .reset ∨ o' = o := by
  rcases Work.answer_eq_some hans with ⟨m, _, rfl⟩ | ⟨id, pw, cid, hw, _⟩
  · exact Or.inl rfl
  · have hid := htraffic.register_id href hx howns hw
    exact Or.inr (hissued.once _ _ _ _ _ ⟨x, id, pw, some cid, hx, hw, hid, rfl⟩ hrel)

/-- With no reset on its way, the credentials are the last message to the node. -/
theorem nothing_else_down (htraffic : site.Traffic w)
    (href : Refines w.backend.agent xs) (hissued : Issued xs w.backend.cumulocity)
    (hquiet : ¬ site.ResetUnderWay w) {i : Nat} {m : Tagged Bytes}
    {rest : List (Tagged Bytes)} {password : JString}
    (htake : Lib.takeAt w.down i = some (m, rest))
    (hrel : Released xs m.origin site.imei password) : rest = [] := by
  refine List.eq_nil_iff_forall_not_mem.mpr ?_
  intro n hn
  obtain ⟨x, ans, hx, hans, _, hbody, howns⟩ :=
    htraffic.answered href (Lib.mem_of_mem_rest htake hn)
  rcases other_answers htraffic href hissued hrel hx howns hans with rfl | horigin
  · exact hquiet (Or.inl ⟨n, Lib.mem_of_mem_rest htake hn, hbody⟩)
  · have hperm := (Lib.perm_of_takeAt htake).map Tagged.origin
    have hnodup := (List.nodup_cons.mp (hperm.nodup_iff.mp htraffic.down_nodup)).1
    exact hnodup (horigin ▸ List.mem_map_of_mem hn)

/-- With no reset on its way, every answer to the node has been sent. -/
theorem nothing_else_queued (htraffic : site.Traffic w)
    (href : Refines w.backend.agent xs) (hissued : Issued xs w.backend.cumulocity)
    (hquiet : ¬ site.ResetUnderWay w) {o : Nat} {x : Exchange} {password : JString}
    (hx : xs[o]? = some x) (hreplied : x.replied = true)
    (hrel : Released xs o site.imei password) (o' : Nat) (x' : Exchange)
    (hx' : xs[o']? = some x')
    (howns : site.Owns x'.incoming.sender.host x'.incoming.sender.port.toNat)
    (hanswered : x'.work.answer ≠ none) : x'.replied = true := by
  obtain ⟨ans, hans⟩ := Option.ne_none_iff_exists'.mp hanswered
  rcases other_answers htraffic href hissued hrel hx' howns hans with rfl | rfl
  · by_contra hpending
    have hqueued : ⟨o', Answer.reset.message x'.incoming.sender⟩ ∈
        w.backend.agent.credentialsQueue := by
      refine (href.answers.mem_iff _).mpr (Lib.view_eq_some.mpr ⟨x', hx', ?_⟩)
      exact Exchange.queuedAnswer_eq_some.mpr
        ⟨Bool.eq_false_iff.mpr hpending, _, hans, rfl⟩
    refine hquiet (Or.inr ⟨_, hqueued, ?_⟩)
    rw [← howns.1, ← howns.2]
    rfl
  · rw [hx] at hx'
    injection hx' with hx'
    rw [← hx']
    exact hreplied

/-- The delivery that stores the credentials settles everything. -/
theorem settled_deliver (htraffic : site.Traffic w) (href : Refines w.backend.agent xs)
    (hissued : Issued xs w.backend.cumulocity) {i : Nat} {m : Tagged Bytes}
    (hm : w.down[i]? = some m) (hbody : m.body ≠ [10])
    (hquiet : ¬ site.ResetUnderWay w) (hs : site.step w (.deliver i) = some w')
    (hstored : w'.node.deviceToken.bytes = m.body) :
    w'.backend = w.backend ∧ site.Settled xs w' := by
  cases step_steps hs with | @deliver m' rest n i htake hn
  have hsame := (Lib.takeAt_eq_some.mp htake).1
  rw [hm] at hsame
  injection hsame with hsame
  rw [← hsame] at htake
  obtain ⟨x, ans, hx, hans, hreplied, hcontent, howns⟩ :=
    htraffic.answered href (Lib.mem_of_takeAt htake)
  rcases Work.answer_eq_some hans with ⟨_, _, rfl⟩ | ⟨id, pw, cid, hwork, rfl⟩
  · exact absurd hcontent hbody
  have hid := htraffic.register_id href hx howns hwork
  have hrel : Released xs m.origin site.imei pw.text :=
    ⟨x, id, pw, some cid, hx, hwork, hid, rfl⟩
  exact ⟨rfl, ⟨pw, cid, hstored.trans hcontent, hissued.current _ _ _ hrel⟩,
    nothing_else_down htraffic href hissued hquiet htake hrel,
    nothing_else_queued htraffic href hissued hquiet hx hreplied hrel⟩

theorem Settled.token (h : site.Settled xs w) (htraffic : site.Traffic w)
    {act : WorldAction} (hs : site.step w act = some w') :
    w'.node.deviceToken = w.node.deviceToken := by
  cases step_steps hs with
  | send s => rfl
  | arrive i now htake hb => rfl
  | deliver i htake hn =>
      have hmem := Lib.mem_of_takeAt htake
      rw [h.down] at hmem
      exact absurd hmem List.not_mem_nil
  | reboot => exact htraffic.node.symm
  | backend act hstranger hb => rfl

theorem step_agent {act : AgentAction}
    (hs : site.step w (.backend (.agent act)) = some w') :
    w.backend.agent.step act = some w'.backend.agent := by
  cases step_steps hs with | backend _ _ hb
  obtain ⟨a, ha, hrest⟩ := Option.bind_eq_some_iff.mp hb
  obtain ⟨c, _, hb⟩ := Option.bind_eq_some_iff.mp hrest
  injection hb with hb
  rw [ha, ← hb]

theorem Settled.replied_change (h : site.Settled xs w) (htraffic : site.Traffic w)
    (href : Refines w.backend.agent xs) (hys : Refines w'.backend.agent ys)
    {act : WorldAction} (hkeeps : site.Keeps w act) (hs : site.step w act = some w')
    {bact : BackendAction} {made : List PlatformCall} {c' : Cumulocity}
    (hact : act = .backend bact ∨ ∃ d, bact = .agent (.receive d))
    (hfirst : ∀ call ∈ made, FirstIssue w.backend.cumulocity call)
    (hchange : Change xs w.backend.cumulocity bact made ys c') (o : Nat) (y : Exchange)
    (hy : ys[o]? = some y)
    (howns : site.Owns y.incoming.sender.host y.incoming.sender.port.toNat)
    (hanswered : y.work.answer ≠ none) : y.replied = true := by
  cases hchange with
  | accept deviceId hpending => exact h.replied o y hy howns hanswered
  | revoke deviceId => exact h.replied o y hy howns hanswered
  | agent hmove hcalls =>
      have hdone : y.work.untouched = false := by
        by_contra hun
        exact hanswered (Work.of_untouched (Bool.of_not_eq_false hun)).1
      obtain ⟨x, hx, hincoming, hmono, hwork⟩ := hmove.finished hy hdone
      rw [hincoming] at howns
      rcases hwork with hsame | ⟨m, i, stored, hxw, hyw, rfl, _⟩ |
        ⟨id, i, poll, create, hxw, hyw, _, hmade⟩
      · exact hmono (h.replied o x hx howns (hsame ▸ hanswered))
      · cases stored with
        | true =>
            rw [hyw] at hanswered
            exact absurd rfl hanswered
        | false =>
            rcases hact with rfl | ⟨d, hd⟩
            · obtain ⟨msg, hmsg, rfl⟩ :=
                href.pushed hys (step_agent hs) hx hxw hy hdone
              exact absurd h.accepts
                (hkeeps msg hmsg _ (htraffic.framed href hx howns).1 howns)
            · cases hd
      · -- The node has a password already, so it is not issued another one.
        cases poll with
        | none =>
            rw [hyw] at hanswered
            exact absurd rfl hanswered
        | some pw =>
            have hnone := first_issue (hmade ▸ hfirst)
            obtain ⟨_, _, _, hcred⟩ := h.accepts
            rw [htraffic.register_id href hx howns hxw, hcred] at hnone
            cases hnone

theorem Settled.no_replies (h : site.Settled xs w) (href : Refines w.backend.agent xs)
    {b : Backend} (hys : Refines b.agent ys) {act : BackendAction}
    (hb : w.backend.step act = some b) {made : List PlatformCall} {c' : Cumulocity}
    (hchange : Change xs w.backend.cumulocity act made ys c') :
    site.repliesSince w.backend.agent b.agent = [] := by
  refine List.eq_nil_iff_forall_not_mem.mpr ?_
  intro m hm
  obtain ⟨r, hr, _, howns, _⟩ := mem_repliesSince hm
  obtain ⟨⟨new, hsent⟩, _⟩ := step_backend hb
  have hnodup := hys.sent.nodup
  rw [hsent, List.drop_left] at hr
  rw [hsent, List.map_append, List.nodup_append] at hnodup
  have hview : Lib.view ys Exchange.reply r.origin = some r.body := by
    refine (hys.sent.mem_iff r).mp ?_
    rw [hsent]
    exact List.mem_append_right _ hr
  have hnew : Lib.view xs Exchange.reply r.origin ≠ some r.body := by
    intro hold
    have hmem := List.mem_map_of_mem (f := Tagged.origin) ((href.sent.mem_iff r).mpr hold)
    exact hnodup.2.2 _ hmem _ (List.mem_map_of_mem hr) rfl
  cases hchange with
  | accept deviceId hpending => exact hnew hview
  | revoke deviceId => exact hnew hview
  | agent hmove hcalls =>
      obtain ⟨x, hx, hanswered, hreplied, hhost, hport⟩ :=
        hmove.new_reply href.unanswered hview hnew
      rw [hhost, hport] at howns
      rw [h.replied _ x hx howns hanswered] at hreplied
      cases hreplied

theorem Settled.down_step (h : site.Settled xs w) (href : Refines w.backend.agent xs)
    {act : WorldAction} (hs : site.step w act = some w') : w'.down = [] := by
  cases step_steps hs with
  | send s => exact h.down
  | arrive i now htake hb => exact h.down
  | deliver i htake hn =>
      have hmem := Lib.mem_of_takeAt htake
      rw [h.down] at hmem
      exact absurd hmem List.not_mem_nil
  | reboot => exact h.down
  | backend act hstranger hb =>
      obtain ⟨ys, hys, hchange⟩ := Backend.step_change href hb
      simp only [h.down, h.no_replies href hys hb hchange, List.append_nil]

theorem Settled.step (h : site.Settled xs w) (htraffic : site.Traffic w)
    (href : Refines w.backend.agent xs) {act : WorldAction}
    (honce : site.IssuedOnce w act) (hkeeps : site.Keeps w act)
    (hs : site.step w act = some w') :
    ∃ ys, Refines w'.backend.agent ys ∧ site.Traffic w' ∧ site.Settled ys w' := by
  have htoken := h.token htraffic hs
  have hdown := h.down_step href hs
  obtain ⟨ys, hys, hcases⟩ := step_change href hs
  refine ⟨ys, hys, step_traffic htraffic hs hys.sent.nodup, ?_⟩
  rcases hcases with ⟨rfl, hsame⟩ | ⟨bact, hact, hchange⟩
  · exact ⟨by rw [hsame, htoken]; exact h.accepts, hdown, h.replied⟩
  · have hrevoke := honce.not_revoke hact
    obtain ⟨pw, cid, hbytes, hcred⟩ := h.accepts
    refine ⟨⟨pw, cid, by rw [htoken]; exact hbytes, ?_⟩, hdown, ?_⟩
    · exact hchange.credentials hrevoke (honce.2 w' hs) hcred
    · exact h.replied_change htraffic href hys hkeeps hs hact (honce.2 w' hs) hchange

/-- What a run leaves of a settled node: the token it had. -/
theorem Settled.run {acts : List WorldAction} (h : site.Settled xs w)
    (htraffic : site.Traffic w) (href : Refines w.backend.agent xs)
    (honce : Lib.Along site.IssuedOnce site.step w acts)
    (hkeeps : Lib.Along site.Keeps site.step w acts)
    (hrun : Lib.run site.step w acts = some w') :
    w'.node.deviceToken = w.node.deviceToken := by
  induction acts generalizing w xs with
  | nil =>
      injection hrun with hrun
      rw [hrun]
  | cons act acts ih =>
      obtain ⟨t, ht, htail⟩ := Lib.run_cons.mp hrun
      obtain ⟨ys, hys, htraffic', hsettled⟩ :=
        h.step htraffic href honce.1 hkeeps.1 ht
      have hlast := ih hsettled htraffic' hys (honce.2 t ht) (hkeeps.2 t ht) htail
      exact hlast.trans (h.token htraffic ht)

end Site

/-- For every run without revoking or issuing again, and every delivery in it
that stores the credentials issued for the node: if no push of the node fails
while its token is good and no reset was on its way when the credentials came,
the token stays what it is for the rest of the run. -/
theorem token_kept (site : Site) (eeprom : Eeprom) (acts acts' : List WorldAction)
    (i : Nat) (m : Tagged Bytes) (pw cid : Line) (w w₁ w₂ : World)
    (hrun : Lib.run site.step (Site.start eeprom) acts = some w)
    (hm : w.down[i]? = some m) (hbody : m.body = credentialsReply pw cid)
    (hdeliver : site.step w (.deliver i) = some w₁)
    (hstored : w₁.node.deviceToken.bytes = credentialsReply pw cid)
    (hrest : Lib.run site.step w₁ acts' = some w₂)
    (honce : Lib.Along site.IssuedOnce site.step (Site.start eeprom)
      (acts ++ .deliver i :: acts'))
    (hkeeps : Lib.Along site.Keeps site.step (Site.start eeprom)
      (acts ++ .deliver i :: acts')) :
    w₂.node.deviceToken = w₁.node.deviceToken := by
  obtain ⟨honce, _, honce'⟩ := Lib.along_append honce hrun
  obtain ⟨_, hquiet, hkeeps'⟩ := Lib.along_append hkeeps hrun
  have hinit : Issued [] {} :=
    ⟨fun o _ _ h => by simp [Released] at h, fun o _ _ _ _ h => by simp [Released] at h⟩
  obtain ⟨xs, href, htraffic, hissued⟩ := Site.run_invariant
    (fun w act w' xs bact ys hinv hok hs hact hchange =>
      issued_change hinv hchange (hok.not_revoke hact) (hok.2 w' hs)) hinit honce hrun
  have hne : m.body ≠ [10] := hbody ▸ credentialsReply_ne_reset pw cid
  obtain ⟨hbackend, hsettled⟩ := Site.settled_deliver htraffic href hissued hm hne
    (hquiet m hm hne) hdeliver (hstored.trans hbody.symm)
  rw [← hbackend] at href
  exact hsettled.run (Site.step_traffic htraffic hdeliver href.sent.nodup) href
    (honce' w₁ hdeliver) (hkeeps' w₁ hdeliver) hrest

/-- A node with an erased EEPROM is enrolled. -/
def enrolledOnce : List WorldAction :=
  Small.enrolled (Small.line 7) (Small.line 1)

def onceReply : Bytes :=
  credentialsReply (Small.line 7) (Small.line 1)

theorem enrolled_rest (eeprom : Eeprom) (acts rest : List WorldAction) (o : Nat) (token : Bytes)
    (hview : ((Lib.run Small.site.step (Site.start eeprom) acts).bind
      fun w => (Small.site.step w (.deliver 0)).map fun w₁ =>
        decide (w.down = [⟨o, onceReply⟩] ∧ w₁.node.deviceToken.bytes = onceReply)) =
      some true)
    (h : (Lib.run Small.site.step (Site.start eeprom)
      (acts ++ .deliver 0 :: rest)).map (·.node.deviceToken.bytes) = some token) :
    ∃ w w₁ w₂, Lib.run Small.site.step (Site.start eeprom) acts = some w ∧
      Small.site.step w (.deliver 0) = some w₁ ∧
      Lib.run Small.site.step w₁ rest = some w₂ ∧
      w.down = [⟨o, onceReply⟩] ∧ w₁.node.deviceToken.bytes = onceReply ∧
      w₂.node.deviceToken.bytes = token := by
  obtain ⟨w₂, hrun, htoken⟩ := Option.map_eq_some_iff.mp h
  obtain ⟨w, hw, htail⟩ := Lib.run_append.mp hrun
  obtain ⟨w₁, hw₁, hrest⟩ := Lib.run_cons.mp htail
  rw [hw, Option.bind_some, hw₁, Option.map_some] at hview
  injection hview with hview
  obtain ⟨hdown, hstored⟩ := of_decide_eq_true hview
  exact ⟨w, w₁, w₂, hw, hw₁, hrest, hdown, hstored, htoken⟩

/-- A node with credentials of another platform. -/
def foreign : Eeprom := writePW Eeprom.erased [56, 10, 49]

/-- Its first push fails, for its credentials. It is reset, and then enrolled. -/
def enrolledAnew : List WorldAction :=
  Small.sent ++ Small.failed ++ .deliver 0 :: enrolledOnce

def quietDay : List WorldAction :=
  Small.sent ++ [.backend (.agent (.push 0 true)), .reboot]

theorem token_kept_quietDay :
    ∃ w w₁ w₂, Lib.run Small.site.step (Site.start foreign) enrolledAnew = some w ∧
      Small.site.step w (.deliver 0) = some w₁ ∧
      Lib.run Small.site.step w₁ quietDay = some w₂ ∧
      w₁.node.deviceToken.bytes = onceReply ∧
      w₂.node.deviceToken = w₁.node.deviceToken := by
  obtain ⟨w, w₁, w₂, hrun, hdeliver, hrest, hdown, hstored, _⟩ :=
    enrolled_rest foreign enrolledAnew quietDay 1 onceReply (by decide +kernel)
      (by decide +kernel)
  exact ⟨w, w₁, w₂, hrun, hdeliver, hrest, hstored, token_kept Small.site foreign enrolledAnew
    quietDay 0 ⟨1, onceReply⟩ _ _ w w₁ w₂ hrun (by rw [hdown]; rfl) rfl hdeliver
    hstored hrest (by decide +kernel) (by decide +kernel)⟩

/-- The platform is out of reach while the node's first measurement is pushed. -/
def outage : List WorldAction := Small.sent ++ Small.failed ++ [.deliver 0]

/-- The credentials are valid, and the node forgets them. -/
theorem outage_erases_credentials :
    ∃ w w₁ w₂, Lib.run Small.site.step (Site.start Eeprom.erased) enrolledOnce =
        some w ∧
      Small.site.step w (.deliver 0) = some w₁ ∧
      Lib.run Small.site.step w₁ outage = some w₂ ∧
      Lib.Along Small.site.IssuedOnce Small.site.step (Site.start Eeprom.erased)
        (enrolledOnce ++ .deliver 0 :: outage) ∧
      w.down = [⟨0, onceReply⟩] ∧ w₁.node.deviceToken.bytes = onceReply ∧
      w₂.node.deviceToken ≠ w₁.node.deviceToken := by
  obtain ⟨w, w₁, w₂, hrun, hdeliver, hrest, hdown, hstored, hlost⟩ :=
    enrolled_rest Eeprom.erased enrolledOnce outage 0 [10] (by decide +kernel)
      (by decide +kernel)
  refine ⟨w, w₁, w₂, hrun, hdeliver, hrest, by decide +kernel, hdown, hstored, ?_⟩
  intro heq
  rw [heq, hstored] at hlost
  exact absurd hlost (by decide +kernel)

end NbIot
