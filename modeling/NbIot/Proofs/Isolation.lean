import NbIot.Proofs.Inventory

/-!
# Devices do not notice each other

All devices share the agent's queues, its consumers and the platform. Leave out of a run
every step that is about another device: the rest is a run as well, and what it leaves
of the agent and the platform is the device's part of what the whole run leaves
(`isolated`). The agent's part of this is a function, `Agent.only`, as the agent keeps
nothing but messages. The platform's is a relation: what the others present or create
only narrows down which answers it may still give.
-/

namespace NbIot

open Lib (Tagged project place takeAt)

/-- The datagram names the device. -/
def Incoming.isFor (deviceId : JString) (d : Incoming) : Bool :=
  match d.packet with
  | .ok pkt => pkt.deviceId = deviceId
  | .error _ => false

namespace Agent

variable {mine : Incoming → Bool} {a b : Agent}

/-- The number that a datagram has among those that are kept. -/
def keep (mine : Incoming → Bool) (received : List Incoming) (o : Nat) : Option Nat :=
  if (received[o]?).any mine then some ((received.take o).countP mine) else none

/-- The part of the agent that goes back to some of the datagrams. -/
def only (mine : Incoming → Bool) (a : Agent) : Agent where
  ctx := a.received.any mine
  measurementQueue := project (keep mine a.received) a.measurementQueue
  registerQueue := project (keep mine a.received) a.registerQueue
  credentialsQueue := project (keep mine a.received) a.credentialsQueue
  received := a.received.filter mine
  calls := project (keep mine a.received) a.calls
  published := project (keep mine a.received) a.published
  sent := project (keep mine a.received) a.sent

/-- What that part does in a step. -/
def own (mine : Incoming → Bool) (a : Agent) : AgentAction → List AgentAction
  | .receive d => if mine d then [.receive d] else []
  | .push i stored =>
      ((place (keep mine a.received) a.measurementQueue i).map (.push · stored)).toList
  | .register i poll create =>
      ((place (keep mine a.received) a.registerQueue i).map (.register · poll create)).toList
  | .encode i => ((place (keep mine a.received) a.credentialsQueue i).map .encode).toList

/-! ## A datagram comes in -/

theorem keep_old {received : List Incoming} {o : Nat} (ho : o < received.length)
    (d : Incoming) : keep mine (received ++ [d]) o = keep mine received o := by
  rw [keep, keep, List.getElem?_append_left ho, List.take_append_of_le_length (Nat.le_of_lt ho)]

theorem keep_new (received : List Incoming) (d : Incoming) :
    keep mine (received ++ [d]) received.length =
      if mine d then some (received.filter mine).length else none := by
  rw [keep, List.getElem?_concat_length, List.take_left, List.countP_eq_length_filter]
  rfl

/-- Every message goes back to a datagram. -/
structure Rooted (a : Agent) : Prop where
  measurements : ∀ m ∈ a.measurementQueue, m.origin < a.received.length
  registers : ∀ m ∈ a.registerQueue, m.origin < a.received.length
  answers : ∀ m ∈ a.credentialsQueue, m.origin < a.received.length
  calls : ∀ m ∈ a.calls, m.origin < a.received.length
  published : ∀ m ∈ a.published, m.origin < a.received.length
  sent : ∀ m ∈ a.sent, m.origin < a.received.length

end Agent

theorem Refines.rooted {a : Agent} {xs : List Exchange} (h : Refines a xs) : a.Rooted := by
  have hlen : a.received.length = xs.length := by simp [h.received]
  refine ⟨?_, ?_, ?_, ?_, ?_, ?_⟩ <;> rw [hlen]
  · exact fun m => h.measurements.origin_lt
  · exact fun m => h.registers.origin_lt
  · exact fun m => h.answers.origin_lt
  · intro m hm
    obtain ⟨x, hx, _⟩ := (h.calls m).mp hm
    exact (List.getElem?_eq_some_iff.mp hx).1
  · exact fun m => h.published.origin_lt
  · exact fun m => h.sent.origin_lt

namespace Agent

variable {mine : Incoming → Bool} {a b : Agent}

theorem project_old (mine : Incoming → Bool) {β : Type} {q : List (Tagged β)} {received : List Incoming}
    (h : ∀ m ∈ q, m.origin < received.length) (d : Incoming) :
    project (keep mine (received ++ [d])) q = project (keep mine received) q :=
  Lib.project_congr fun m hm => keep_old (h m hm) d

theorem receive_only (h : a.Rooted) (d : Incoming) :
    Lib.run step (a.only mine) (a.own mine (.receive d)) = some ((a.receive d).only mine) := by
  have hnew : ∀ b : JString, project (keep mine (a.received ++ [d])) [⟨a.received.length, b⟩] =
      if mine d then [⟨(a.received.filter mine).length, b⟩] else [] := by
    intro b
    cases hmine : mine d with
    | true => exact Lib.project_singleton_some (by rw [keep_new, hmine]; rfl) b
    | false => exact Lib.project_singleton_none (by rw [keep_new, hmine]; rfl) b
  have hmeasurements := project_old mine h.measurements d
  have hregisters := project_old mine h.registers d
  have hanswers := project_old mine h.answers d
  have hcalls := project_old mine h.calls d
  have hpublished := project_old mine h.published d
  have hsent := project_old mine h.sent d
  cases hmine : mine d with
  | true =>
      rw [own, hmine, if_pos rfl]
      refine congrArg some ?_
      simp only [hmine, if_true] at hnew
      show (a.only mine).receive d = _
      unfold receive
      split <;> simp [only, Lib.project_append, hmeasurements, hregisters, hanswers, hcalls,
        hpublished, hsent, hnew, hmine]
  | false =>
      rw [own, hmine, if_neg Bool.false_ne_true]
      refine congrArg some ?_
      simp only [hmine, Bool.false_eq_true, if_false] at hnew
      unfold receive
      split <;> simp [only, Lib.project_append, hmeasurements, hregisters, hanswers, hcalls,
        hpublished, hsent, hnew, hmine]

/-! ## A message is processed -/

theorem publish_only (a : Agent) {o p : Nat} (h : keep mine a.received o = some p)
    (r : Java (JString × List PlatformCall)) :
    (a.publish o r).only mine = (a.only mine).publish p r := by
  cases r with
  | error e => rfl
  | ok result =>
      obtain ⟨body, calls⟩ := result
      have hcalls : project (keep mine a.received) (calls.map (Tagged.mk o)) =
          calls.map (Tagged.mk p) := by
        simp [project, List.filterMap_map, h]
      simp only [publish, only]
      split <;>
        simp [Lib.project_append, hcalls, Lib.project_singleton_some h]

theorem publish_others (a : Agent) {o : Nat} (h : keep mine a.received o = none)
    (r : Java (JString × List PlatformCall)) : (a.publish o r).only mine = a.only mine := by
  cases r with
  | error e => rfl
  | ok result =>
      obtain ⟨body, calls⟩ := result
      have hcalls : project (keep mine a.received) (calls.map (Tagged.mk o)) = [] := by
        simp [project, List.filterMap_map, h]
      simp only [publish, only]
      split <;> simp [Lib.project_append, hcalls, Lib.project_singleton_none h]

/-- A message that is taken from a queue is one of the part's, and taken there, or the
part does not notice. -/
theorem take_only {q rest : List (Tagged JString)} {i : Nat} {m : Tagged JString}
    (act : Nat → AgentAction) (htake : takeAt q i = some (m, rest))
    (hothers : keep mine a.received m.origin = none →
      project (keep mine a.received) rest = project (keep mine a.received) q →
        b.only mine = a.only mine)
    (hown : ∀ p j, keep mine a.received m.origin = some p →
      takeAt (project (keep mine a.received) q) j =
          some (⟨p, m.body⟩, project (keep mine a.received) rest) →
        (a.only mine).step (act j) = some (b.only mine)) :
    Lib.run step (a.only mine) ((place (keep mine a.received) q i).map act).toList =
      some (b.only mine) := by
  cases hkeep : keep mine a.received m.origin with
  | none =>
      obtain ⟨hplace, hrest⟩ := Lib.project_take_none htake hkeep
      rw [hplace, hothers hkeep hrest]
      rfl
  | some p =>
      obtain ⟨j, hplace, htake'⟩ := Lib.project_take_some htake hkeep
      rw [hplace]
      exact Lib.run_cons.mpr ⟨_, hown p j hkeep htake', rfl⟩

theorem push_only {i : Nat} {stored : Bool} (hs : a.push i stored = some b) :
    Lib.run step (a.only mine) (a.own mine (.push i stored)) = some (b.only mine) := by
  obtain ⟨⟨m, rest⟩, htake, hb⟩ := Option.bind_eq_some_iff.mp hs
  rw [← Option.some.inj hb]
  refine take_only (.push · stored) htake ?_ ?_
  · intro hkeep hrest
    refine (publish_others { a with measurementQueue := rest } hkeep _).trans ?_
    simp [only, hrest]
  · intro p j hkeep htake'
    rw [publish_only { a with measurementQueue := rest } hkeep]
    exact Option.bind_eq_some_iff.mpr ⟨_, htake', rfl⟩

theorem register_only {i : Nat} {poll create : Option Line}
    (hs : a.register i poll create = some b) :
    Lib.run step (a.only mine) (a.own mine (.register i poll create)) =
      some (b.only mine) := by
  obtain ⟨⟨m, rest⟩, htake, hb⟩ := Option.bind_eq_some_iff.mp hs
  rw [← Option.some.inj hb]
  refine take_only (.register · poll create) htake ?_ ?_
  · intro hkeep hrest
    refine (publish_others { a with registerQueue := rest } hkeep _).trans ?_
    simp [only, hrest]
  · intro p j hkeep htake'
    rw [publish_only { a with registerQueue := rest } hkeep]
    exact Option.bind_eq_some_iff.mpr ⟨_, htake', rfl⟩

theorem ctx_only {o p : Nat} (h : keep mine a.received o = some p) :
    (a.only mine).ctx = true := by
  unfold keep at h
  split at h
  · rename_i hany
    cases hd : a.received[o]? with
    | none =>
        rw [hd] at hany
        cases hany
    | some d =>
        rw [hd] at hany
        exact List.any_eq_true.mpr ⟨d, List.mem_of_getElem? hd, hany⟩
  · cases h

theorem encode_only {i : Nat} (hs : a.encode i = some b) :
    Lib.run step (a.only mine) (a.own mine (.encode i)) = some (b.only mine) := by
  obtain ⟨⟨m, rest⟩, htake, hb⟩ := Option.bind_eq_some_iff.mp hs
  simp only at hb
  split at hb
  swap
  · cases hb
  refine take_only .encode htake ?_ ?_
  · intro hkeep hrest
    split at hb <;> rw [← Option.some.inj hb] <;>
      simp [only, hrest, Lib.project_append, Lib.project_singleton_none hkeep]
  · intro p j hkeep htake'
    refine Option.bind_eq_some_iff.mpr ⟨_, htake', ?_⟩
    simp only [if_pos (ctx_only hkeep)]
    cases hroute : route4 m.body with
    | error e =>
        simp only [hroute] at hb ⊢
        rw [← Option.some.inj hb]
        rfl
    | ok reply =>
        simp only [hroute] at hb ⊢
        rw [← Option.some.inj hb]
        simp [only, Lib.project_append, Lib.project_singleton_some hkeep]

/-- A step of the agent is a step of the part that it is about, and nothing to others. -/
theorem step_only (mine : Incoming → Bool) (h : a.Rooted) {act : AgentAction}
    (hs : a.step act = some b) :
    Lib.run step (a.only mine) (a.own mine act) = some (b.only mine) := by
  cases act with
  | receive d =>
      rw [← Option.some.inj hs]
      exact receive_only h d
  | push i stored => exact push_only hs
  | register i poll create => exact register_only hs
  | encode i => exact encode_only hs

/-- The calls of the step that are about the part are the calls of the part. -/
theorem calls_only (mine : Incoming → Bool) (h : a.Rooted) {act : AgentAction}
    (hs : a.step act = some b) {new : List (Tagged PlatformCall)}
    (hcalls : b.calls = a.calls ++ new) :
    (b.only mine).calls = (a.only mine).calls ++ project (keep mine b.received) new := by
  show project (keep mine b.received) b.calls = _
  rw [hcalls, Lib.project_append]
  congr 1
  rcases (step_histories hs).2 with hsame | ⟨d, _, hmore⟩
  · rw [hsame]
    rfl
  · rw [hmore]
    exact project_old mine h.calls d

theorem own_cases (mine : Incoming → Bool) (a : Agent) (act : AgentAction) :
    a.own mine act = [] ∨ ∃ act', a.own mine act = [act'] := by
  have htoList : ∀ o : Option AgentAction, o.toList = [] ∨ ∃ act', o.toList = [act'] := by
    intro o
    cases o with
    | none => exact Or.inl rfl
    | some act' => exact Or.inr ⟨act', rfl⟩
  cases act with
  | receive d =>
      rw [own]
      split
      · exact Or.inr ⟨_, rfl⟩
      · exact Or.inl rfl
  | push i stored => exact htoList _
  | register i poll create => exact htoList _
  | encode i => exact htoList _

end Agent

/-! ## What the platform has of a device -/

/-- The call is about the device. -/
def PlatformCall.Concerns (deviceId : JString) : PlatformCall → Prop
  | .pollCredentials id _ => id = deviceId
  | .createObject user _ mo _ => user = username deviceId ∧ mo.name = username deviceId
  | .createMeasurement user _ _ _ => user = username deviceId

/-- The platform without the other devices. Fewer passwords may have been seen. -/
structure Apart (deviceId : JString) (c c' : Cumulocity) : Prop where
  accepted : c'.accepted.count deviceId = c.accepted.count deviceId
  pending : c'.pending.count deviceId = c.pending.count deviceId
  credentials : c'.credentials (username deviceId) = c.credentials (username deviceId)
  seen : c'.seen ⊆ c.seen
  inventory : c'.inventory = objects c deviceId

namespace Apart

variable {deviceId other : JString} {c c' t : Cumulocity} {call : PlatformCall}

theorem pending_iff (h : Apart deviceId c c') : deviceId ∈ c'.pending ↔ deviceId ∈ c.pending := by
  rw [← List.count_pos_iff, ← List.count_pos_iff, h.pending]

theorem mem_inventory (h : Apart deviceId c c') {text : JString}
    (hfree : text ∉ c.inventory.map (·.1.text)) : text ∉ c'.inventory.map (·.1.text) := by
  intro hmem
  obtain ⟨e, he, htext⟩ := List.mem_map.mp hmem
  rw [h.inventory] at he
  exact hfree (List.mem_map.mpr ⟨e, (List.mem_filter.mp he).1, htext⟩)

/-- A call about the device is answered without the others as it is with them. -/
theorem call_own (h : Apart deviceId c c') (hcall : call.Concerns deviceId)
    (hs : c.call call = some t) : ∃ t', c'.call call = some t' ∧ Apart deviceId t t' := by
  cases call with
  | pollCredentials id poll =>
      cases hcall
      cases poll with
      | none => exact ⟨c', rfl, Option.some.inj hs ▸ h⟩
      | some password =>
          rw [Cumulocity.call] at hs
          split at hs
          swap
          · cases hs
          rename_i hok
          rw [← Option.some.inj hs]
          refine ⟨c'.release deviceId password.text,
            if_pos ⟨h.pending_iff.mpr hok.1, fun hmem => hok.2 (h.seen hmem)⟩, ?_⟩
          refine ⟨h.accepted, ?_, ?_, List.cons_subset_cons _ h.seen, h.inventory⟩
          · show (c'.pending.erase deviceId).count deviceId =
              (c.pending.erase deviceId).count deviceId
            rw [List.count_erase_self, List.count_erase_self, h.pending]
          · simp only [Cumulocity.release, Function.update_self]
  | createObject user password mo id =>
      obtain ⟨rfl, hname⟩ := hcall
      cases id with
      | none => exact ⟨c', rfl, Option.some.inj hs ▸ h⟩
      | some id =>
          rw [Cumulocity.call] at hs
          split at hs
          swap
          · cases hs
          rename_i hok
          rw [← Option.some.inj hs]
          refine ⟨{ c' with inventory := c'.inventory ++ [(id, mo)] },
            if_pos ⟨h.credentials.trans hok.1, h.mem_inventory hok.2⟩, ?_⟩
          refine ⟨h.accepted, h.pending, h.credentials, h.seen, ?_⟩
          show c'.inventory ++ [(id, mo)] = (c.inventory ++ [(id, mo)]).filter _
          rw [List.filter_append, h.inventory, List.filter_singleton,
            decide_eq_true (show (id, mo).2.name = _ from hname)]
          rfl
  | createMeasurement user password m stored =>
      cases hcall
      obtain ⟨hok, hrun⟩ := Option.ite_none_right_eq_some.mp hs
      rw [← Option.some.inj hrun]
      refine ⟨c'.present password, if_pos fun hstored => h.credentials.trans (hok hstored), ?_⟩
      exact ⟨h.accepted, h.pending, h.credentials, List.cons_subset_cons _ h.seen, h.inventory⟩

/-- A call about another device is nothing to it. -/
theorem call_other (h : Apart deviceId c c') (hcall : call.Concerns other)
    (hne : other ≠ deviceId) (hs : c.call call = some t) : Apart deviceId t c' := by
  have huser : username deviceId ≠ username other := fun heq => hne (username_inj.mp heq).symm
  cases call with
  | pollCredentials id poll =>
      cases hcall
      cases poll with
      | none => exact Option.some.inj hs ▸ h
      | some password =>
          obtain ⟨_, hrun⟩ := Option.ite_none_right_eq_some.mp hs
          rw [← Option.some.inj hrun]
          refine ⟨h.accepted, ?_, ?_, fun _ hmem => List.mem_cons_of_mem _ (h.seen hmem),
            h.inventory⟩
          · exact h.pending.trans (List.count_erase_of_ne (Ne.symm hne)).symm
          · exact h.credentials.trans (Function.update_of_ne huser _ _).symm
  | createObject user password mo id =>
      obtain ⟨rfl, hname⟩ := hcall
      cases id with
      | none => exact Option.some.inj hs ▸ h
      | some id =>
          obtain ⟨_, hrun⟩ := Option.ite_none_right_eq_some.mp hs
          rw [← Option.some.inj hrun]
          refine ⟨h.accepted, h.pending, h.credentials, h.seen, ?_⟩
          show c'.inventory = (c.inventory ++ [(id, mo)]).filter _
          rw [List.filter_append, h.inventory, List.filter_singleton,
            decide_eq_false (show ¬ (id, mo).2.name = _ from
              fun heq => huser (heq.symm.trans hname))]
          exact (List.append_nil _).symm
  | createMeasurement user password m stored =>
      obtain ⟨_, hrun⟩ := Option.ite_none_right_eq_some.mp hs
      rw [← Option.some.inj hrun]
      exact ⟨h.accepted, h.pending, h.credentials,
        fun _ hmem => List.mem_cons_of_mem _ (h.seen hmem), h.inventory⟩

theorem accept_own (h : Apart deviceId c c') (hs : c.accept deviceId = some t) :
    ∃ t', c'.accept deviceId = some t' ∧ Apart deviceId t t' := by
  obtain ⟨hpending, ht⟩ := Option.ite_none_left_eq_some.mp hs
  rw [← Option.some.inj ht]
  refine ⟨_, if_neg (mt h.pending_iff.mp hpending), ?_, ?_, h.credentials, h.seen, h.inventory⟩
  · simp only [List.count_cons_self, h.accepted]
  · simp only [List.count_cons_self, h.pending]

theorem accept_other (h : Apart deviceId c c') (hne : other ≠ deviceId)
    (hs : c.accept other = some t) : Apart deviceId t c' := by
  obtain ⟨_, ht⟩ := Option.ite_none_left_eq_some.mp hs
  rw [← Option.some.inj ht]
  refine ⟨?_, ?_, h.credentials, h.seen, h.inventory⟩
  · exact h.accepted.trans (List.count_cons_of_ne hne).symm
  · exact h.pending.trans (List.count_cons_of_ne hne).symm

theorem revoke_own (h : Apart deviceId c c') :
    Apart deviceId (c.revoke deviceId) (c'.revoke deviceId) := by
  refine ⟨h.accepted, h.pending, ?_, h.seen, h.inventory⟩
  simp only [Cumulocity.revoke, Function.update_self]

theorem revoke_other (h : Apart deviceId c c') (hne : other ≠ deviceId) :
    Apart deviceId (c.revoke other) c' := by
  have huser : username deviceId ≠ username other := fun heq => hne (username_inj.mp heq).symm
  refine ⟨h.accepted, h.pending, ?_, h.seen, h.inventory⟩
  exact h.credentials.trans (Function.update_of_ne huser _ _).symm

/-- The calls of which some are about the device. -/
theorem run_calls {keep : Nat → Option Nat} {new : List (Tagged PlatformCall)}
    (h : Apart deviceId c c')
    (hnew : ∀ m ∈ new, ∃ id, m.body.Concerns id ∧ ((keep m.origin).isSome ↔ id = deviceId))
    (hrun : Lib.run Cumulocity.call c (new.map (·.body)) = some t) :
    ∃ t', Lib.run Cumulocity.call c' ((project keep new).map (·.body)) = some t' ∧
      Apart deviceId t t' := by
  induction new generalizing c c' with
  | nil => exact ⟨c', rfl, Option.some.inj hrun ▸ h⟩
  | cons m new ih =>
      obtain ⟨u, hu, htail⟩ := Lib.run_cons.mp hrun
      obtain ⟨id, hcall, hkeep⟩ := hnew m List.mem_cons_self
      have hrest := fun n hn => hnew n (List.mem_cons_of_mem m hn)
      cases hm : keep m.origin with
      | none =>
          have hother : id ≠ deviceId := fun heq => by
            rw [hm] at hkeep
            cases hkeep.mpr heq
          have hproject : project keep (m :: new) = project keep new := by simp [project, hm]
          rw [hproject]
          exact ih (h.call_other hcall hother hu) hrest htail
      | some o =>
          have hself := hkeep.mp (by rw [hm]; rfl)
          obtain ⟨u', hu', hapart⟩ := h.call_own (hself ▸ hcall) hu
          obtain ⟨t', ht', hlast⟩ := ih hapart hrest htail
          have hproject : project keep (m :: new) = ⟨o, m.body⟩ :: project keep new := by
            simp [project, hm]
          rw [hproject]
          exact ⟨t', Lib.run_cons.mpr ⟨u', hu', ht'⟩, hlast⟩

end Apart

/-! ## The device's part of a run -/

/-- A call is about the device that the datagram names. -/
theorem Refines.calls_concern {a : Agent} {xs : List Exchange} (h : Refines a xs)
    {c : Tagged PlatformCall} (hc : c ∈ a.calls) :
    ∃ d pkt, a.received[c.origin]? = some d ∧ d.packet = .ok pkt ∧
      c.body.Concerns pkt.deviceId := by
  obtain ⟨x, hx, hcall⟩ := (h.calls c).mp hc
  have hreceived : a.received[c.origin]? = some x.incoming := by
    rw [h.received, List.getElem?_map, hx]
    rfl
  have hasks := h.asks_getElem? hx
  unfold Work.calls at hcall
  split at hcall
  · rename_i m stored hwork
    rw [hwork] at hasks
    refine ⟨x.incoming, m.packet x.incoming, hreceived, hasks.1, ?_⟩
    rw [List.mem_singleton.mp hcall]
    rfl
  · rename_i deviceId poll create hwork
    rw [hwork] at hasks
    obtain ⟨⟨pkt, hpacket, hid⟩, _⟩ := hasks
    refine ⟨x.incoming, pkt, hreceived, hpacket, ?_⟩
    rw [hid]
    cases poll with
    | none =>
        rw [List.mem_singleton.mp hcall]
        rfl
    | some password =>
        rcases List.mem_cons.mp hcall with hcall | hcall
        · rw [hcall]
          rfl
        · rw [List.mem_singleton.mp hcall]
          exact ⟨rfl, rfl⟩
  · cases hcall

namespace Backend

/-- The steps of the device that a step is. -/
def own (deviceId : JString) (b : Backend) : BackendAction → List BackendAction
  | .agent act => (b.agent.own (Incoming.isFor deviceId) act).map .agent
  | .accept id => if id = deviceId then [.accept id] else []
  | .revoke id => if id = deviceId then [.revoke id] else []

theorem callsSince_append {a b : Agent} {new : List (Tagged PlatformCall)}
    (h : b.calls = a.calls ++ new) : callsSince a b = new.map (·.body) := by
  rw [callsSince, h, List.map_append, ← List.length_map (f := Tagged.body), List.drop_left]

/-- The two machines without the other devices. -/
structure Alone (deviceId : JString) (b b' : Backend) : Prop where
  refines : ∃ xs, Refines b.agent xs
  agent : b'.agent = b.agent.only (Incoming.isFor deviceId)
  cumulocity : Apart deviceId b.cumulocity b'.cumulocity

variable {deviceId : JString} {b b' t : Backend}

theorem agent_alone (h : Alone deviceId b b') {act : AgentAction}
    (hs : b.step (.agent act) = some t) :
    ∃ t', Lib.run step b' (b.own deviceId (.agent act)) = some t' ∧ Alone deviceId t t' := by
  obtain ⟨xs, href⟩ := h.refines
  obtain ⟨ys, hys, _⟩ := step_change href hs
  obtain ⟨a, ha, hrest⟩ := Option.bind_eq_some_iff.mp hs
  obtain ⟨c, hc, ht⟩ := Option.bind_eq_some_iff.mp hrest
  cases Option.some.inj ht
  obtain ⟨new, hcalls⟩ := Agent.step_calls ha
  let mine := Incoming.isFor deviceId
  let keep := Agent.keep mine a.received
  have hnew : ∀ m ∈ new, ∃ id, m.body.Concerns id ∧
      ((keep m.origin).isSome ↔ id = deviceId) := by
    intro m hm
    obtain ⟨d, pkt, hd, hpacket, hconcerns⟩ :=
      hys.calls_concern (show m ∈ a.calls by rw [hcalls]; exact List.mem_append_right _ hm)
    refine ⟨pkt.deviceId, hconcerns, ?_⟩
    show (Agent.keep mine a.received m.origin).isSome ↔ _
    rw [Agent.keep, hd, Option.any_some, show mine d = decide (pkt.deviceId = deviceId) by
      simp only [mine, Incoming.isFor, hpacket]]
    simp
  rw [callsSince_append hcalls] at hc
  obtain ⟨c', hc', hapart⟩ := h.cumulocity.run_calls hnew hc
  have honly := Agent.step_only mine href.rooted ha
  have hmade := Agent.calls_only mine href.rooted ha hcalls
  refine ⟨⟨a.only mine, c'⟩, ?_, ⟨ys, hys⟩, rfl, hapart⟩
  rw [own]
  rcases b.agent.own_cases mine act with hnone | ⟨act', hone⟩
  · -- The part does nothing, so it makes no calls either.
    rw [hnone] at honly
    have hsame := Option.some.inj honly
    rw [hsame, List.self_eq_append_right] at hmade
    rw [show project keep new = [] from hmade] at hc'
    rw [hnone, ← hsame, ← h.agent, ← Option.some.inj hc']
    rfl
  · rw [hone] at honly ⊢
    obtain ⟨_, hact, hend⟩ := Lib.run_cons.mp honly
    cases Option.some.inj hend
    rw [← callsSince_append hmade] at hc'
    rw [← h.agent] at hact hc'
    refine Lib.run_cons.mpr ⟨_, Option.bind_eq_some_iff.mpr ⟨_, hact, ?_⟩, rfl⟩
    exact Option.bind_eq_some_iff.mpr ⟨c', hc', rfl⟩

theorem step_alone (h : Alone deviceId b b') {act : BackendAction} (hs : b.step act = some t) :
    ∃ t', Lib.run step b' (b.own deviceId act) = some t' ∧ Alone deviceId t t' := by
  cases act with
  | agent act => exact agent_alone h hs
  | accept id =>
      obtain ⟨c, hc, ht⟩ := Option.bind_eq_some_iff.mp hs
      cases Option.some.inj ht
      rw [own]
      split
      · rename_i heq
        subst heq
        obtain ⟨c', hc', hapart⟩ := h.cumulocity.accept_own hc
        exact ⟨{ b' with cumulocity := c' },
          Lib.run_cons.mpr ⟨_, Option.bind_eq_some_iff.mpr ⟨c', hc', rfl⟩, rfl⟩,
          h.refines, h.agent, hapart⟩
      · rename_i hne
        exact ⟨b', rfl, h.refines, h.agent, h.cumulocity.accept_other hne hc⟩
  | revoke id =>
      cases Option.some.inj hs
      rw [own]
      split
      · rename_i heq
        subst heq
        exact ⟨_, rfl, h.refines, h.agent, h.cumulocity.revoke_own⟩
      · rename_i hne
        exact ⟨b', rfl, h.refines, h.agent, h.cumulocity.revoke_other hne⟩

end Backend

/-- Leave out of a run all steps that are about other devices. The rest is a run, which
leaves the device's part of the agent, and as much of the device on the platform: its
acceptances, its credentials and its objects. -/
theorem isolated (deviceId : JString) (acts : List BackendAction) (b : Backend)
    (hrun : Lib.run Backend.step {} acts = some b) :
    ∃ b', Lib.run Backend.step {}
        (Lib.played Backend.step (Backend.own deviceId) {} acts) = some b' ∧
      b'.agent = b.agent.only (Incoming.isFor deviceId) ∧
      b'.cumulocity.accepted.count deviceId = b.cumulocity.accepted.count deviceId ∧
      b'.cumulocity.pending.count deviceId = b.cumulocity.pending.count deviceId ∧
      b'.cumulocity.credentials (username deviceId) =
        b.cumulocity.credentials (username deviceId) ∧
      b'.cumulocity.inventory = objects b.cumulocity deviceId := by
  have hstart : Backend.Alone deviceId {} {} :=
    ⟨⟨[], Refines.init⟩, rfl, rfl, rfl, rfl, fun _ h => h, rfl⟩
  have hstep : ∀ s act t s', Backend.Alone deviceId s s' → s.step act = some t →
      ∃ t', Lib.run Backend.step s' (s.own deviceId act) = some t' ∧
        Backend.Alone deviceId t t' := by
    intro s act t s' halone hs
    exact Backend.step_alone halone hs
  obtain ⟨b', hplayed, halone⟩ := Lib.run_matched hstep hstart hrun
  have hapart := halone.cumulocity
  exact ⟨b', hplayed, halone.agent, hapart.accepted, hapart.pending, hapart.credentials,
    hapart.inventory⟩

namespace Small

/-- Device `e` asks for a registration, from another address. -/
def otherAsks : Incoming := ⟨⟨['i'], 6, by decide⟩, [101, 10, 10, 1], noon⟩

/-- Two devices register, each in the middle of what the other does. -/
def twoRegister : List BackendAction :=
  [.accept ['d'], .agent (.receive otherAsks), .accept ['e'], .agent (.receive asks),
    .agent (.register 1 (some (line 7)) (some (line 1))),
    .agent (.register 0 (some (line 8)) (some (line 2))),
    .agent (.encode 1), .agent (.encode 0)]

end Small

theorem isolated_two :
    ∃ b b', Lib.run Backend.step {} Small.twoRegister = some b ∧
      Lib.run Backend.step {} (Lib.played Backend.step (Backend.own ['d']) {}
        Small.twoRegister) = some b' ∧
      b.agent.sent.length = 2 ∧ b'.agent = b.agent.only (Incoming.isFor ['d']) ∧
      b'.cumulocity.inventory = objects b.cumulocity ['d'] := by
  have hlen : (Lib.run Backend.step {} Small.twoRegister).map (·.agent.sent.length) = some 2 := by
    decide +kernel
  obtain ⟨b, hrun, hlen⟩ := Option.map_eq_some_iff.mp hlen
  obtain ⟨b', hplayed, hagent, _, _, _, hobjects⟩ := isolated ['d'] _ b hrun
  exact ⟨b, b', hrun, hplayed, hlen, hagent, hobjects⟩

end NbIot
