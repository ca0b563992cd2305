import NbIot.Cloud.Backend

/-!
# A released password is handed out, unless the next call fails

`registerDevice` makes two calls in one `try`. Between them the password is in
a local variable only, and if the second call fails the body is blank and
nothing is published. An exchange that ended there stays there, so whether
every released password was handed out can be read off the run's actions.
-/

namespace NbIot

/-- Every password a poll released is in a message on the credentials queue,
for the address the registration came from. -/
def HandedOut (a : Agent) : Prop :=
  ∀ o deviceId password,
    ⟨o, .pollCredentials deviceId (some password)⟩ ∈ a.calls →
    ∃ d cumulocityId, a.received[o]? = some d ∧
      ⟨o, credentialsMessage d.sender.host d.sender.port.toNat password.text
        cumulocityId⟩ ∈ a.published

/-- A registration whose poll succeeds and whose inventory call fails. -/
def CreateFails : BackendAction → Prop
  | .agent (.register _ (some _) none) => True
  | _ => False

/-- An exchange that ended between the two calls. -/
def Lost (xs : List Exchange) : Prop :=
  ∃ (o : Nat) (x : Exchange) (deviceId password : Line), xs[o]? = some x ∧
    x.work = .register deviceId (some (some password, none))

theorem mem_calls_poll {w : Work} {d : Incoming} {deviceId : JString}
    {password : Line} (h : .pollCredentials deviceId (some password) ∈ w.calls d) :
    ∃ id create, w = .register id (some (some password, create)) ∧
      deviceId = id.text := by
  unfold Work.calls at h
  split at h
  · simp [Measurement.call] at h
  · rename_i id poll create
    cases poll with
    | none => simp [registerCalls] at h
    | some pw =>
        simp only [registerCalls, List.mem_cons, PlatformCall.pollCredentials.injEq,
          Option.some.injEq, List.not_mem_nil, or_false, reduceCtorEq] at h
        exact ⟨id, create, by rw [h.2], h.1⟩
  · exact absurd h List.not_mem_nil

theorem handedOut_iff {a : Agent} {xs : List Exchange} (href : Refines a xs) :
    HandedOut a ↔ ¬ Lost xs := by
  refine ⟨?_, ?_⟩
  · intro h ⟨o, x, deviceId, password, hx, hw⟩
    have hcall : ⟨o, .pollCredentials deviceId.text (some password)⟩ ∈ a.calls := by
      refine (href.calls ⟨o, _⟩).mpr ⟨x, hx, ?_⟩
      rw [hw]
      exact List.mem_cons_self
    obtain ⟨d, cid, _, hmsg⟩ := h o deviceId.text password hcall
    have hview := (href.published.mem_iff _).mp hmsg
    rw [Lib.view_of_getElem? hx] at hview
    simp [Exchange.message, hw, Work.answer] at hview
  · intro hlost o deviceId password hcall
    obtain ⟨x, hx, hmem⟩ := (href.calls _).mp hcall
    obtain ⟨id, create, hw, _⟩ := mem_calls_poll hmem
    cases create with
    | none => exact absurd ⟨o, x, id, password, hx, hw⟩ hlost
    | some cid =>
        refine ⟨x.incoming, cid.text, ?_, (href.published.mem_iff _).mpr ?_⟩
        · rw [href.received, List.getElem?_map, hx]
          rfl
        · rw [Lib.view_of_getElem? hx]
          simp [Exchange.message, hw, Work.answer, Answer.message]

/-- A change loses a password exactly when it is a registration that fails
between its calls; what was lost stays lost. -/
theorem lost_change {xs ys : List Exchange} {c c' : Cumulocity}
    {act : BackendAction} {made : List PlatformCall}
    (h : Change xs c act made ys c') :
    Lost ys ↔ Lost xs ∨ CreateFails act := by
  cases h with
  | accept deviceId hpending => simp [CreateFails]
  | revoke deviceId => simp [CreateFails]
  | agent hmove hcalls =>
      refine ⟨?_, ?_⟩
      · intro ⟨o, y, id, pw, hy, hw⟩
        obtain ⟨x, hx, _, _, hwork⟩ := hmove.finished hy (by rw [hw]; rfl)
        rcases hwork with hsame | ⟨m, i, stored, _, hpush, _⟩ |
          ⟨device, i, poll, create, _, hreg, hact, _⟩
        · exact Or.inl ⟨o, x, id, pw, hx, hsame ▸ hw⟩
        · rw [hw] at hpush
          cases hpush
        · simp only [hw, Work.register.injEq, Option.some.injEq, Prod.mk.injEq] at hreg
          rw [hact, ← hreg.2.1, ← hreg.2.2]
          exact Or.inr trivial
      · intro h
        rcases h with ⟨o, x, id, pw, hx, hw⟩ | hfails
        · obtain ⟨y, hy, _, hwork⟩ := hmove.finished_mono hx (by rw [hw]; rfl)
          exact ⟨o, y, id, pw, hy, hwork.trans hw⟩
        · unfold CreateFails at hfails
          split at hfails
          · rename_i i pw heq
            injection heq with heq
            rw [heq] at hmove
            obtain ⟨o, y, id, hy, hw⟩ := hmove.register_finishes
            exact ⟨o, y, id, pw, hy, hw⟩
          · exact hfails.elim

theorem lost_run {acts : List BackendAction} {b b' : Backend} {xs : List Exchange}
    (href : Refines b.agent xs) (hrun : Lib.run Backend.step b acts = some b') :
    ∃ ys, Refines b'.agent ys ∧
      (Lost ys ↔ Lost xs ∨ ∃ act ∈ acts, CreateFails act) := by
  induction acts generalizing b xs with
  | nil =>
      injection hrun with hrun
      exact ⟨xs, hrun ▸ href, by simp⟩
  | cons act acts ih =>
      obtain ⟨t, ht, htail⟩ := Lib.run_cons.mp hrun
      obtain ⟨zs, hzs, hchange⟩ := Backend.step_change href ht
      obtain ⟨ys, hys, hlost⟩ := ih hzs htail
      refine ⟨ys, hys, ?_⟩
      rw [hlost, lost_change hchange]
      simp [or_assoc]

/-- Every password released in a run is handed out if and only if no inventory
call of the run fails after its poll released one. -/
theorem passwords_handed_out_iff (acts : List BackendAction) (b : Backend)
    (hrun : Lib.run Backend.step {} acts = some b) :
    HandedOut b.agent ↔ ∀ act ∈ acts, ¬ CreateFails act := by
  obtain ⟨ys, href, hlost⟩ := lost_run Refines.init hrun
  have hstart : ¬ Lost [] := by
    intro ⟨o, x, _, _, hx, _⟩
    simp at hx
  rw [handedOut_iff href, hlost]
  simp [hstart]

def oneRegistration (create : Option Line) : List BackendAction :=
  [.accept ['d'],
    .agent (.receive Small.asks), .agent (.register 0 (some (Small.line 7)) create)]

theorem passwords_handed_out_created :
    ∃ b, Lib.run Backend.step {}
        (oneRegistration (some (Small.line 1))) = some b ∧
      HandedOut b.agent := by
  have hsome : (Lib.run Backend.step {}
      (oneRegistration (some (Small.line 1)))).isSome = true := by
    decide +kernel
  obtain ⟨b, hrun⟩ := Option.isSome_iff_exists.mp hsome
  refine ⟨b, hrun, (passwords_handed_out_iff _ b hrun).mpr ?_⟩
  simp [oneRegistration, CreateFails]

theorem password_lost :
    ∃ b, Lib.run Backend.step {} (oneRegistration none) = some b ∧
      ¬ HandedOut b.agent := by
  have hsome : (Lib.run Backend.step {} (oneRegistration none)).isSome = true := by
    decide +kernel
  obtain ⟨b, hrun⟩ := Option.isSome_iff_exists.mp hsome
  obtain ⟨ys, href, hlost⟩ := lost_run Refines.init hrun
  refine ⟨b, hrun, fun h => (handedOut_iff href).mp h (hlost.mpr (Or.inr ?_))⟩
  exact ⟨_, List.mem_cons_of_mem _ (List.mem_cons_of_mem _ List.mem_cons_self), trivial⟩

end NbIot
