import NbIot.Proofs.Classify

/-!
# Which datagrams the constructor gets through

`nextNewLine` reads a byte before it looks at the bound, so it fails on an
empty array instead of saying that there is no line feed. It is called on the
whole datagram and on what follows the first and the second line feed. Those
are the only ways to fail: every other datagram gets the fields the grammar
gives it.
-/

namespace NbIot

/-- The index of the first line feed, -1 if there is none. -/
def firstLineFeed (d : Bytes) : Int := if (10 : UInt8) ∈ d then d.idxOf 10 else -1

/-- The datagram ends where a line feed is still looked for: it is empty, or
ends right after its first or its second line feed. -/
def EndsEarly (d : Bytes) : Prop :=
  d = [] ∨ (∃ id, (10 : UInt8) ∉ id ∧ d = id ++ [10]) ∨
    ∃ id token, (10 : UInt8) ∉ id ∧ (10 : UInt8) ∉ token ∧
      d = id ++ 10 :: (token ++ [10])

/-- The constructor gives the datagram the fields of its frame, the newline
search answers for it, and a frame with an empty token asks for registration. -/
structure ReadsFully (host : JString) (port : Int) (now : JString) (d : Bytes) :
    Prop where
  search : nextNewLine d = .ok (firstLineFeed d)
  fields : ∃ f : Frame, f.bytes = d ∧
    DataPacket.ofDatagram host port now d = .ok (f.fill (.fresh host port now))
  registers : ∀ id payload, IsField id → d = id ++ 10 :: 10 :: payload →
    ∃ pkt m, DataPacket.ofDatagram host port now d = .ok pkt ∧
      route1 pkt = .ok (.register m)

theorem truncated_iff {f : Frame} : f.truncated = true ↔ EndsEarly f.bytes := by
  have hnil : (10 : UInt8) ∉ ([] : Bytes) := List.not_mem_nil
  constructor
  · intro h
    cases f with
    | blank r => exact Or.inl (of_decide_eq_true h)
    | one i r =>
        refine Or.inr (Or.inl ⟨i.bytes, i.free, ?_⟩)
        rw [Frame.bytes, of_decide_eq_true h]
    | two i p r =>
        refine Or.inr (Or.inr ⟨i.bytes, p.bytes, i.free, p.free, ?_⟩)
        rw [Frame.bytes, of_decide_eq_true h]
    | three i p c x => cases h
  · rintro (h | ⟨id, hid, h⟩ | ⟨id, token, hid, htoken, h⟩)
    · rw [Frame.bytes_inj (g := .blank ⟨[], hnil⟩) h]
      rfl
    · rw [Frame.bytes_inj (g := .one ⟨id, hid⟩ ⟨[], hnil⟩) h]
      rfl
    · rw [Frame.bytes_inj (g := .two ⟨id, hid⟩ ⟨token, htoken⟩ ⟨[], hnil⟩) h]
      rfl

theorem nextNewLine_eq {d : Bytes} (h : d ≠ []) :
    nextNewLine d = .ok (firstLineFeed d) := by
  rcases Lib.first_field 10 d with hfree | ⟨id, rest, rfl, hid⟩
  · rw [nextNewLine_none hfree h, firstLineFeed, if_neg hfree]
  · rw [nextNewLine_append hid, firstLineFeed, if_pos (by simp),
      List.idxOf_append_of_notMem hid, List.idxOf_cons_self, Nat.add_zero]

/-- Without a password there are no second and third field. -/
theorem isRegister_blank_token {id payload : Bytes} (hid : IsField id) :
    IsRegister (id ++ 10 :: 10 :: payload) := by
  refine ⟨id, 10 :: payload, rfl, hid, ?_⟩
  intro ⟨pw, cid, p, h, hpw, _⟩
  have hnil := ((Lib.first_field_inj (f := []) List.not_mem_nil hpw.2).mp h).1
  exact hpw.1 hnil.symm

/-- The constructor treats a datagram as the grammar says exactly when the
datagram does not end where a line feed is still looked for. -/
theorem reads_fully_iff (host : JString) (port : Int) (now : JString) (d : Bytes) :
    ReadsFully host port now d ↔ ¬ EndsEarly d := by
  obtain ⟨f, rfl⟩ := Frame.exists_bytes d
  rw [← truncated_iff]
  constructor
  · intro h htruncated
    obtain ⟨g, _, hg⟩ := h.fields
    rw [DataPacket.ofDatagram, Frame.extractData_bytes, if_pos htruncated] at hg
    cases hg
  · intro hwhole
    have hpkt : DataPacket.ofDatagram host port now f.bytes =
        .ok (f.fill (.fresh host port now)) := by
      rw [DataPacket.ofDatagram, Frame.extractData_bytes, if_neg hwhole]
    refine ⟨nextNewLine_eq ?_, ⟨f, rfl, hpkt⟩, ?_⟩
    · intro hnil
      exact hwhole (truncated_iff.mpr (Or.inl hnil))
    · intro id payload hid hd
      have hregister : IsRegister f.bytes := hd ▸ isRegister_blank_token hid
      obtain ⟨m, hm⟩ : ∃ m, f.outcome host port now = .register m :=
        outcome_register.mpr hregister
      exact ⟨_, m, hpkt, by rw [route1_fill, hm]⟩

/-- A frame with an empty token and no payload is lost with an exception. -/
theorem blank_token_without_payload :
    DataPacket.ofDatagram ['h'] 5 ['n'] [100, 10, 10] =
        .error .arrayIndexOutOfBounds ∧
      ¬ ReadsFully ['h'] 5 ['n'] [100, 10, 10] := by
  have herror : DataPacket.ofDatagram ['h'] 5 ['n'] [100, 10, 10] =
      .error .arrayIndexOutOfBounds := by decide +kernel
  refine ⟨herror, fun h => ?_⟩
  obtain ⟨f, _, hf⟩ := h.fields
  rw [herror] at hf
  cases hf

end NbIot
