import NbIot.Agent.AgentRouter

/-!
# Route 1 classifies by the grammar

`extractData` returns early from three places and the predicates read what it
left behind, defaults included. Both are already folded into `Frame.outcome`,
so what remains is to say the four outcomes in terms of the bytes alone. Each
direction is the same move: bytes of a given shape are the bytes of one frame,
and a frame is determined by its bytes.
-/

namespace NbIot

/-- A field of a frame that is present: not empty, and free of line feeds. -/
def IsField (f : Bytes) : Prop := f ≠ [] ∧ (10 : UInt8) ∉ f

/-- The bytes are three fields and a payload with the given property. -/
def IsMeasurement (good : Bytes → Prop) (d : Bytes) : Prop :=
  ∃ id pw cid p, d = id ++ 10 :: (pw ++ 10 :: (cid ++ 10 :: p)) ∧
    IsField id ∧ IsField pw ∧ IsField cid ∧ good p

def HasTwo (d : Bytes) : Prop :=
  ∃ pw cid p, d = pw ++ 10 :: (cid ++ 10 :: p) ∧ IsField pw ∧ IsField cid

/-- The bytes start with a field, and not both of the next two are there. -/
def IsRegister (d : Bytes) : Prop :=
  ∃ id rest, d = id ++ 10 :: rest ∧ IsField id ∧ ¬ HasTwo rest

def IsInvalid (d : Bytes) : Prop :=
  (10 : UInt8) ∉ d ∨ ∃ rest, d = 10 :: rest

theorem isMeasurement_bytes {good : Bytes → Prop} {f : Frame} :
    IsMeasurement good f.bytes ↔
      ∃ i p c x, f = .three i p c x ∧ i.bytes ≠ [] ∧ p.bytes ≠ [] ∧
        c.bytes ≠ [] ∧ good x := by
  constructor
  · rintro ⟨id, pw, cid, x, hd, hi, hp, hc, hx⟩
    exact ⟨⟨id, hi.2⟩, ⟨pw, hp.2⟩, ⟨cid, hc.2⟩, x, Frame.bytes_inj hd,
      hi.1, hp.1, hc.1, hx⟩
  · rintro ⟨i, p, c, x, rfl, hi, hp, hc, hx⟩
    exact ⟨i.bytes, p.bytes, c.bytes, x, rfl, ⟨hi, i.free⟩, ⟨hp, p.free⟩,
      ⟨hc, c.free⟩, hx⟩

theorem isInvalid_bytes {f : Frame} :
    IsInvalid f.bytes ↔ (∃ r, f = .blank r) ∨ ∃ rest, f.bytes = 10 :: rest := by
  constructor
  · rintro (h | h)
    · exact Or.inl ⟨⟨f.bytes, h⟩, Frame.bytes_inj rfl⟩
    · exact Or.inr h
  · rintro (⟨r, rfl⟩ | h)
    · exact Or.inl r.free
    · exact Or.inr h

/-- A frame with a first field starts with a line feed exactly when the field
is empty. -/
theorem field_starts {i : LfFree} {rest : Bytes} :
    (∃ r, i.bytes ++ 10 :: rest = 10 :: r) ↔ i.bytes = [] := by
  constructor
  · rintro ⟨r, h⟩
    have hinj := (Lib.first_field_inj i.free (g := []) List.not_mem_nil).mp
      (h.trans rfl)
    exact hinj.1
  · intro h
    exact ⟨rest, by rw [h]; rfl⟩

theorem isRegister_bytes {i : LfFree} {rest : Bytes} :
    IsRegister (i.bytes ++ 10 :: rest) ↔ i.bytes ≠ [] ∧ ¬ HasTwo rest := by
  constructor
  · rintro ⟨id, r, hd, hid, hno⟩
    obtain ⟨hi, rfl⟩ := (Lib.first_field_inj i.free hid.2).mp hd
    rw [hi]
    exact ⟨hid.1, hno⟩
  · rintro ⟨hi, hno⟩
    exact ⟨i.bytes, rest, rfl, ⟨hi, i.free⟩, hno⟩

theorem not_hasTwo_rest (r : LfFree) : ¬ HasTwo r.bytes := by
  rintro ⟨pw, cid, x, hd, _, _⟩
  exact r.free (by rw [hd]; simp)

theorem not_hasTwo_one (p r : LfFree) : ¬ HasTwo (p.bytes ++ 10 :: r.bytes) := by
  rintro ⟨pw, cid, x, hd, hpw, _⟩
  have hr := ((Lib.first_field_inj p.free hpw.2).mp hd).2
  exact r.free (by rw [hr]; simp)

theorem hasTwo_two {p c : LfFree} {x : Bytes} :
    HasTwo (p.bytes ++ 10 :: (c.bytes ++ 10 :: x)) ↔
      p.bytes ≠ [] ∧ c.bytes ≠ [] := by
  constructor
  · rintro ⟨pw, cid, y, hd, hpw, hcid⟩
    obtain ⟨hp, hrest⟩ := (Lib.first_field_inj p.free hpw.2).mp hd
    obtain ⟨hc, _⟩ := (Lib.first_field_inj c.free hcid.2).mp hrest
    rw [hp, hc]
    exact ⟨hpw.1, hcid.1⟩
  · rintro ⟨hp, hc⟩
    exact ⟨p.bytes, c.bytes, x, rfl, ⟨hp, p.free⟩, ⟨hc, c.free⟩⟩

/-! ## The four outcomes of a frame -/

section

variable {host : JString} {port : Int} {now : JString} {f : Frame}

/-- The outcomes of a frame with three fields differ in the payload only. -/
theorem outcome_three {P : Route1 → Prop} {good : Bytes → Prop}
    (hinvalid : ¬ P .invalid) (hregister : ∀ m, ¬ P (.register m))
    (hgood : ∀ m (x : Bytes),
      P (if x.length = 14 then .measurement m else .unmatched) ↔ good x) :
    P (f.outcome host port now) ↔ IsMeasurement good f.bytes := by
  rw [isMeasurement_bytes]
  cases f with
  | blank r => simp [Frame.outcome, hinvalid]
  | one i r | two i p r =>
      simp only [Frame.outcome]
      split
      · simp [hinvalid]
      · simp [hregister]
  | three i p c x =>
      simp only [Frame.outcome, Frame.three.injEq]
      split
      · simp_all
      split
      · simp_all
        tauto
      · rw [hgood]
        simp_all

theorem outcome_measurement :
    (∃ m, f.outcome host port now = .measurement m) ↔
      IsMeasurement (·.length = 14) f.bytes := by
  refine outcome_three (P := fun out => ∃ m, out = .measurement m)
    (by simp) (by simp) ?_
  intro m x
  split <;> simp_all

theorem outcome_unmatched :
    f.outcome host port now = .unmatched ↔
      IsMeasurement (·.length ≠ 14) f.bytes := by
  refine outcome_three (P := (· = .unmatched)) (by simp) (by simp) ?_
  intro m x
  split <;> simp_all

theorem outcome_invalid :
    f.outcome host port now = .invalid ↔ IsInvalid f.bytes := by
  rw [isInvalid_bytes]
  cases f with
  | blank r => simp [Frame.outcome]
  | one i r | two i p r =>
      simp only [Frame.outcome, Frame.bytes, field_starts]
      split <;> simp_all
  | three i p c x =>
      simp only [Frame.outcome, Frame.bytes, field_starts]
      split
      · simp_all
      split
      · simp_all
      split <;> simp_all

theorem outcome_register :
    (∃ m, f.outcome host port now = .register m) ↔ IsRegister f.bytes := by
  cases f with
  | blank r =>
      have hno : ¬ IsRegister (Frame.blank r).bytes := by
        rintro ⟨id, rest, hd, _⟩
        exact r.free (by rw [show r.bytes = _ from hd]; simp)
      simp [Frame.outcome, hno]
  | one i r =>
      simp only [Frame.outcome, Frame.bytes, isRegister_bytes,
        not_hasTwo_rest]
      split <;> simp_all
  | two i p r =>
      simp only [Frame.outcome, Frame.bytes, isRegister_bytes,
        not_hasTwo_one]
      split <;> simp_all
  | three i p c x =>
      simp only [Frame.outcome, Frame.bytes, isRegister_bytes, hasTwo_two]
      split
      · simp_all
      split
      · simp_all
        tauto
      split <;> simp_all

end

/-- Every datagram the constructor accepts has exactly one of the four
outcomes, and its bytes say which. -/
theorem route1_classifies (host : JString) (port : Int) (now : JString)
    (d : Bytes) (pkt : DataPacket)
    (hpkt : DataPacket.ofDatagram host port now d = .ok pkt) :
    (∃ b, pkt.isMeasurementMessage = .ok b) ∧
      ∃ out, route1 pkt = .ok out ∧
        ((∃ m, out = .measurement m) ↔ IsMeasurement (·.length = 14) d) ∧
        ((∃ m, out = .register m) ↔ IsRegister d) ∧
        (out = .invalid ↔ IsInvalid d) ∧
        (out = .unmatched ↔ IsMeasurement (·.length ≠ 14) d) := by
  obtain ⟨f, rfl⟩ := Frame.exists_bytes d
  have hfill : pkt = f.fill (.fresh host port now) := by
    rw [DataPacket.ofDatagram, Frame.extractData_bytes] at hpkt
    split at hpkt
    · cases hpkt
    · injection hpkt with h
      exact h.symm
  rw [hfill]
  refine ⟨isMeasurementMessage_fill host port now f,
    f.outcome host port now, route1_fill host port now f, ?_⟩
  exact ⟨outcome_measurement, outcome_register, outcome_invalid,
    outcome_unmatched⟩

theorem route1_classifies_payload :
    ∃ m, route1 ⟨['h'], 5, ['d'], ['p'], ['c'],
      some [1, 2, 10, 4, 5, 6, 7, 8, 9, 10, 11, 12, 13, 14], some ['n']⟩ =
        .ok (.measurement m) := by
  obtain ⟨_, out, hout, hm, _⟩ := route1_classifies ['h'] 5 ['n']
    [100, 10, 112, 10, 99, 10, 1, 2, 10, 4, 5, 6, 7, 8, 9, 10, 11, 12, 13, 14]
    ⟨['h'], 5, ['d'], ['p'], ['c'],
      some [1, 2, 10, 4, 5, 6, 7, 8, 9, 10, 11, 12, 13, 14], some ['n']⟩
    (by decide +kernel)
  obtain ⟨m, rfl⟩ := hm.mpr ⟨[100], [112], [99],
    [1, 2, 10, 4, 5, 6, 7, 8, 9, 10, 11, 12, 13, 14], rfl,
    ⟨by decide, by decide⟩, ⟨by decide, by decide⟩, ⟨by decide, by decide⟩, rfl⟩
  exact ⟨m, hout⟩

end NbIot
