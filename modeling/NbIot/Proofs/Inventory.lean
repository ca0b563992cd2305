import NbIot.Cloud.Backend

/-!
# One object for each acceptance

Every registration that is given a password creates an object, without asking
whether the device has one. What bounds the objects of a device is the number
of passwords released for it, and the operator's acceptances bound that. A
device accepted once has at most one object, and no two ids. The source id of a
measurement is not the object's, though, but what its frame says, so that it is
the same for all measurements only where the frames carry an id that was
handed out.
-/

namespace NbIot

open Lib (Tagged)

def objects (c : Cumulocity) (deviceId : JString) : List (Line × ManagedObject) :=
  c.inventory.filter fun e => e.2.name = username deviceId

theorem username_inj {a b : JString} : username a = username b ↔ a = b :=
  List.append_right_inj _

/-- Each acceptance is still pending, or has released a password, or its
password has made an object. -/
structure Stocked (xs : List Exchange) (c : Cumulocity) : Prop where
  bound : ∀ deviceId, (objects c deviceId).length + c.pending.count deviceId ≤
    c.accepted.count deviceId
  ids : ∀ (o : Nat) x deviceId password id, xs[o]? = some x →
    x.work = .register deviceId (some (some password, some id)) →
      (id, sodaqDevice deviceId.text) ∈ objects c deviceId.text

theorem objects_enroll (c : Cumulocity) (deviceId password : JString)
    (create : Option Line) (other : JString) :
    objects (c.enroll deviceId password create) other = objects c other ++
      if other = deviceId then
        (create.map fun id => (id, sodaqDevice deviceId)).toList
      else [] := by
  have hnew : ∀ id : Line, decide ((sodaqDevice deviceId).name = username other) =
      decide (other = deviceId) := by
    intro id
    rw [show (sodaqDevice deviceId).name = username deviceId from rfl,
      decide_eq_decide, username_inj, eq_comm]
  unfold objects Cumulocity.enroll
  rw [List.filter_append]
  congr 1
  cases create with
  | none => simp
  | some id =>
      rw [Option.map_some, Option.toList_some, List.filter_singleton, hnew id]
      by_cases h : other = deviceId
      · simp [h]
      · simp [h]

/-- What was in stock before the calls of a move is in stock after them. -/
theorem objects_mono {xs ys : List Exchange} {c c' : Cumulocity}
    {act : BackendAction} {made : List PlatformCall}
    (h : Change xs c act made ys c') {deviceId : JString} {e : Line × ManagedObject}
    (he : e ∈ objects c deviceId) : e ∈ objects c' deviceId := by
  rcases h.platform with ⟨seen, _, rfl⟩ | ⟨id, _, rfl⟩ | ⟨id, _, rfl⟩ |
    ⟨id, password, create, _, _, _, rfl⟩
  · exact he
  · exact he
  · exact he
  · rw [objects_enroll]
    exact List.mem_append_left _ he

/-- Only a registration that is given a password changes what is counted. -/
theorem bound_change {xs ys : List Exchange} {c c' : Cumulocity}
    {act : BackendAction} {made : List PlatformCall}
    (h : Change xs c act made ys c') {deviceId : JString}
    (hbound : (objects c deviceId).length + c.pending.count deviceId ≤
      c.accepted.count deviceId) :
    (objects c' deviceId).length + c'.pending.count deviceId ≤
      c'.accepted.count deviceId := by
  rcases h.platform with ⟨seen, _, rfl⟩ | ⟨id, _, rfl⟩ | ⟨id, _, rfl⟩ |
    ⟨id, password, create, _, hpending, _, rfl⟩
  · exact hbound
  · simp only [List.count_cons]
    show (objects c deviceId).length + _ ≤ _
    omega
  · exact hbound
  · rw [objects_enroll, List.length_append]
    show _ + (c.pending.erase id).count deviceId ≤ c.accepted.count deviceId
    by_cases hid : deviceId = id
    · -- The released acceptance makes room for the new object.
      have hone : (create.map fun cid => (cid, sodaqDevice id)).toList.length ≤ 1 := by
        cases create <;> simp
      have hpos := List.count_pos_iff.mpr hpending
      rw [if_pos hid, hid, List.count_erase_self]
      rw [hid] at hbound
      omega
    · rw [if_neg hid, List.count_erase_of_ne hid]
      exact hbound

theorem ids_change {xs ys : List Exchange} {c c' : Cumulocity}
    {act : BackendAction} {made : List PlatformCall} (h : Change xs c act made ys c')
    (hids : ∀ (o : Nat) x deviceId password id, xs[o]? = some x →
      x.work = .register deviceId (some (some password, some id)) →
        (id, sodaqDevice deviceId.text) ∈ objects c deviceId.text)
    (o : Nat) (y : Exchange) (deviceId password id : Line) (hy : ys[o]? = some y)
    (hw : y.work = .register deviceId (some (some password, some id))) :
    (id, sodaqDevice deviceId.text) ∈ objects c' deviceId.text := by
  have hchange := h
  cases h with
  | accept _ hpending => exact hids o y deviceId password id hy hw
  | revoke _ => exact hids o y deviceId password id hy hw
  | agent hmove hcalls =>
      obtain ⟨x, hx, _, _, hwork⟩ := hmove.finished hy (by rw [hw]; rfl)
      rcases hwork with hsame | ⟨m, i, stored, _, hpush, _⟩ |
        ⟨device, i, poll, create, _, hreg, _, hmade⟩
      · exact objects_mono hchange (hids o x deviceId password id hx (hsame ▸ hw))
      · rw [hw] at hpush
        cases hpush
      · simp only [hw, Work.register.injEq, Option.some.injEq, Prod.mk.injEq] at hreg
        obtain ⟨rfl, rfl, rfl⟩ := hreg
        rw [hmade] at hcalls
        rw [(Cumulocity.run_register_some hcalls).2.2, objects_enroll, if_pos rfl]
        exact List.mem_append_right _ (List.mem_singleton_self _)

theorem stocked_run {acts : List BackendAction} {b : Backend}
    (hrun : Lib.run Backend.step {} acts = some b) :
    ∃ xs, Refines b.agent xs ∧ Stocked xs b.cumulocity := by
  refine Backend.run_invariant ?_ ?_ hrun
  · intro xs c act made ys c' h hchange
    exact ⟨fun id => bound_change hchange (h.bound id), ids_change hchange h.ids⟩
  · exact ⟨fun _ => Nat.le_refl _, fun o x _ _ _ hx => by simp at hx⟩

def HandedId (a : Agent) (deviceId : JString) (id : Line) : Prop :=
  ∃ o password mo,
    ⟨o, .createObject (username deviceId) password mo (some id)⟩ ∈ a.calls

theorem mem_objects_of_handedId {a : Agent} {xs : List Exchange} {c : Cumulocity}
    (href : Refines a xs) (h : Stocked xs c) {deviceId : JString} {id : Line}
    (hid : HandedId a deviceId id) :
    (id, sodaqDevice deviceId) ∈ objects c deviceId := by
  obtain ⟨o, password, mo, hcall⟩ := hid
  obtain ⟨x, hx, hmem⟩ := (href.calls _).mp hcall
  unfold Work.calls at hmem
  split at hmem
  · simp [Measurement.call] at hmem
  · rename_i device poll create hw
    cases poll with
    | none => simp [registerCalls] at hmem
    | some pw =>
        simp only [registerCalls, List.mem_cons, reduceCtorEq, false_or,
          PlatformCall.createObject.injEq, List.not_mem_nil, or_false] at hmem
        obtain ⟨huser, _, _, hcreate⟩ := hmem
        rw [username_inj.mp huser]
        exact h.ids o x device pw id hx (by rw [hw, hcreate])
  · exact absurd hmem List.not_mem_nil

/-! ## The source ids of the measurements -/

/-- The source ids of the measurements that were stored for a device, each with
the number of its frame. -/
def sources (a : Agent) (deviceId : JString) : List (Tagged JString) :=
  a.calls.filterMap fun c =>
    match c.body with
    | .createMeasurement user _ m true =>
        if user = username deviceId then some ⟨c.origin, m.source.id⟩ else none
    | _ => none

/-- The frame carries an id that was handed out for the device. -/
def CarriesHandedId (a : Agent) (deviceId : JString) (o : Nat) : Prop :=
  ∃ d pkt id, a.received[o]? = some d ∧ d.packet = .ok pkt ∧
    pkt.cumulocityId = id.text ∧ HandedId a deviceId id

/-- A measurement is stored under the id that its frame carries. -/
theorem source_of_frame {a : Agent} {xs : List Exchange} (href : Refines a xs)
    {deviceId : JString} {s : Tagged JString} (hs : s ∈ sources a deviceId) {d : Incoming}
    {pkt : DataPacket} (hd : a.received[s.origin]? = some d) (hpkt : d.packet = .ok pkt) :
    s.body = pkt.cumulocityId := by
  obtain ⟨c, hc, hsome⟩ := List.mem_filterMap.mp hs
  split at hsome
  swap
  · cases hsome
  rename_i user password m hbody
  split at hsome
  swap
  · cases hsome
  rw [← Option.some.inj hsome] at hd ⊢
  obtain ⟨x, hx, hcall⟩ := (href.calls c).mp hc
  obtain ⟨m', stored, hwork, hsame⟩ :=
    Work.measurement_of_mem hcall (by rw [hbody]; rfl)
  have hasks := href.asks_getElem? hx
  rw [hwork] at hasks
  rw [href.received, List.getElem?_map, hx] at hd
  rw [← Option.some.inj hd, hasks.1] at hpkt
  rw [hbody, Measurement.call] at hsame
  injection hsame with _ _ hrepresentation _
  rw [hrepresentation, ← Except.ok.inj hpkt]
  rfl

theorem ids_unique {a : Agent} {xs : List Exchange} {c : Cumulocity}
    (href : Refines a xs) (h : Stocked xs c) {deviceId : JString}
    (hone : c.accepted.count deviceId ≤ 1) {id id' : Line} (hid : HandedId a deviceId id)
    (hid' : HandedId a deviceId id') : id = id' := by
  have hbound := h.bound deviceId
  have hlen : (objects c deviceId).length ≤ 1 := by omega
  have hmem := mem_objects_of_handedId href h hid
  have hmem' := mem_objects_of_handedId href h hid'
  match hobjects : objects c deviceId, hlen with
  | [], _ =>
      rw [hobjects] at hmem
      exact absurd hmem List.not_mem_nil
  | [e], _ =>
      rw [hobjects] at hmem hmem'
      have heq := (List.mem_singleton.mp hmem).trans (List.mem_singleton.mp hmem').symm
      injection heq

/-- A device has at most as many objects as the operator accepted it times. If it
is accepted at most once, all its registrations are handed one id, and all the
measurements whose frames carry an id that it was handed are stored under one. -/
theorem objects_le_acceptances (acts : List BackendAction) (b : Backend)
    (hrun : Lib.run Backend.step {} acts = some b) (deviceId : JString) :
    (objects b.cumulocity deviceId).length ≤
        b.cumulocity.accepted.count deviceId ∧
      (b.cumulocity.accepted.count deviceId ≤ 1 →
        (∀ id id', HandedId b.agent deviceId id → HandedId b.agent deviceId id' →
          id = id') ∧
        ∀ s s', s ∈ sources b.agent deviceId → s' ∈ sources b.agent deviceId →
          CarriesHandedId b.agent deviceId s.origin →
          CarriesHandedId b.agent deviceId s'.origin → s.body = s'.body) := by
  obtain ⟨xs, href, hstock⟩ := stocked_run hrun
  have hbound := hstock.bound deviceId
  refine ⟨by omega, fun hone => ⟨?_, ?_⟩⟩
  · exact fun id id' hid hid' => ids_unique href hstock hone hid hid'
  · intro s s' hs hs' hcarries hcarries'
    obtain ⟨d, pkt, id, hd, hpkt, hcid, hid⟩ := hcarries
    obtain ⟨d', pkt', id', hd', hpkt', hcid', hid'⟩ := hcarries'
    rw [source_of_frame href hs hd hpkt, source_of_frame href hs' hd' hpkt', hcid, hcid',
      ids_unique href hstock hone hid hid']

def acceptedTwice : List BackendAction :=
  [.accept ['d'],
    .agent (.receive Small.asks),
    .agent (.register 0 (some (Small.line 7)) (some (Small.line 1))),
    .accept ['d'],
    .agent (.receive Small.asks),
    .agent (.register 0 (some (Small.line 8)) (some (Small.line 2)))]

/-- A frame of device `d` with password 7 and fourteen bytes. -/
def measures (cumulocityId : UInt8) : Incoming :=
  ⟨Small.phone, [100, 10, 55, 10, cumulocityId, 10] ++ List.replicate 14 0, Small.noon⟩

/-- Accepted once and handed the id 1, the device sends two measurements. -/
def acceptedOnce (cumulocityId : UInt8) : List BackendAction :=
  [.accept ['d'],
    .agent (.receive Small.asks),
    .agent (.register 0 (some (Small.line 7)) (some (Small.line 1))),
    .agent (.receive (measures 49)), .agent (.push 0 true),
    .agent (.receive (measures cumulocityId)), .agent (.push 0 true)]

theorem objects_le_acceptances_once :
    ∃ b, Lib.run Backend.step {} (acceptedOnce 49) = some b ∧
      sources b.agent ['d'] = [⟨1, ['1']⟩, ⟨2, ['1']⟩] ∧
      (objects b.cumulocity ['d']).length ≤ 1 ∧
      (∀ id id', HandedId b.agent ['d'] id → HandedId b.agent ['d'] id' → id = id') ∧
      ∀ s s', s ∈ sources b.agent ['d'] → s' ∈ sources b.agent ['d'] →
        CarriesHandedId b.agent ['d'] s.origin → CarriesHandedId b.agent ['d'] s'.origin →
          s.body = s'.body := by
  have hfacts : (Lib.run Backend.step {} (acceptedOnce 49)).map
      (fun b => (b.cumulocity.accepted.count ['d'], sources b.agent ['d'])) =
        some (1, [⟨1, ['1']⟩, ⟨2, ['1']⟩]) := by
    decide +kernel
  obtain ⟨b, hrun, hfacts⟩ := Option.map_eq_some_iff.mp hfacts
  obtain ⟨hone, hsources⟩ := Prod.mk.inj hfacts
  obtain ⟨hobjects, hids⟩ := objects_le_acceptances _ b hrun ['d']
  exact ⟨b, hrun, hsources, hone ▸ hobjects, hids (by omega)⟩

/-- Accepted again, a device gets a second object. Accepted once, it has one, and two
stored measurements with different source ids all the same. -/
theorem two_objects_of_one_device :
    (∃ b, Lib.run Backend.step {} acceptedTwice = some b ∧
      ¬ (objects b.cumulocity ['d']).length ≤ 1) ∧
    ∃ b, Lib.run Backend.step {} (acceptedOnce 57) = some b ∧
      b.cumulocity.accepted.count ['d'] = 1 ∧ (objects b.cumulocity ['d']).length = 1 ∧
      ¬ ∀ s ∈ sources b.agent ['d'], ∀ s' ∈ sources b.agent ['d'], s.body = s'.body := by
  have hlen : (Lib.run Backend.step {} acceptedTwice).map
      (fun b => (objects b.cumulocity ['d']).length) = some 2 := by
    decide +kernel
  have hsources : (Lib.run Backend.step {} (acceptedOnce 57)).map
      (fun b => (b.cumulocity.accepted.count ['d'], (objects b.cumulocity ['d']).length,
        sources b.agent ['d'])) = some (1, 1, [⟨1, ['1']⟩, ⟨2, ['9']⟩]) := by
    decide +kernel
  obtain ⟨b, hrun, hlen⟩ := Option.map_eq_some_iff.mp hlen
  obtain ⟨b', hrun', hsources⟩ := Option.map_eq_some_iff.mp hsources
  simp only [Prod.mk.injEq] at hsources
  obtain ⟨hone, hobject, hids⟩ := hsources
  refine ⟨⟨b, hrun, by omega⟩, b', hrun', hone, hobject, ?_⟩
  rw [hids]
  simp

end NbIot
