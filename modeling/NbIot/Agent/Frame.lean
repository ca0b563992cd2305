import NbIot.Agent.DataPacket

/-!
# The frame grammar

What a datagram is for, said without the code: up to three fields, each ended
by a line feed, and then bytes. A frame with all three ends in a payload that
may hold anything; a shorter one ends in bytes without a line feed. Every byte
string is exactly one frame (`Frame.exists_bytes`, `Frame.bytes_inj`), and the
parser reads it off the bytes (`extractData_bytes`), so a question about the
parser's early returns becomes a case split over four constructors.
-/

namespace NbIot

@[ext] structure LfFree where
  bytes : Bytes
  free : (10 : UInt8) ∉ bytes

/-- The parse of a datagram. -/
inductive Frame where
  | blank (rest : LfFree)
  | one (deviceId rest : LfFree)
  | two (deviceId password rest : LfFree)
  | three (deviceId password cumulocityId : LfFree) (payload : Bytes)

namespace Frame

def bytes : Frame → Bytes
  | blank rest => rest.bytes
  | one i rest => i.bytes ++ 10 :: rest.bytes
  | two i p rest => i.bytes ++ 10 :: (p.bytes ++ 10 :: rest.bytes)
  | three i p c x => i.bytes ++ 10 :: (p.bytes ++ 10 :: (c.bytes ++ 10 :: x))

/-- The frame stops where the parser still looks for a line feed. -/
def truncated : Frame → Bool
  | blank rest => rest.bytes = []
  | one _ rest => rest.bytes = []
  | two _ _ rest => rest.bytes = []
  | three .. => false

/-- The record with the fields that are present. -/
def fill (pkt : DataPacket) : Frame → DataPacket
  | blank _ => pkt
  | one i _ => { pkt with deviceId := newString i.bytes }
  | two i p _ =>
      { pkt with deviceId := newString i.bytes, password := newString p.bytes }
  | three i p c x =>
      { pkt with
        deviceId := newString i.bytes
        password := newString p.bytes
        cumulocityId := newString c.bytes
        payload := some x }

theorem exists_bytes (d : Bytes) : ∃ f : Frame, f.bytes = d := by
  rcases Lib.first_field 10 d with h | ⟨i, r, rfl, hi⟩
  · exact ⟨blank ⟨d, h⟩, rfl⟩
  · rcases Lib.first_field 10 r with h | ⟨p, r, rfl, hp⟩
    · exact ⟨one ⟨i, hi⟩ ⟨r, h⟩, rfl⟩
    · rcases Lib.first_field 10 r with h | ⟨c, x, rfl, hc⟩
      · exact ⟨two ⟨i, hi⟩ ⟨p, hp⟩ ⟨r, h⟩, rfl⟩
      · exact ⟨three ⟨i, hi⟩ ⟨p, hp⟩ ⟨c, hc⟩ x, rfl⟩

/-- No byte string is two frames. -/
theorem bytes_inj {f g : Frame} (h : f.bytes = g.bytes) : f = g := by
  have hfree : ∀ {a r : LfFree} {t : Bytes}, a.bytes ≠ r.bytes ++ 10 :: t := by
    intro a r t heq
    exact a.free (by rw [heq]; simp)
  have hinj : ∀ {a b : LfFree} {t u : Bytes},
      a.bytes ++ 10 :: t = b.bytes ++ 10 :: u → a = b ∧ t = u := by
    intro a b t u heq
    obtain ⟨hab, htu⟩ := (Lib.first_field_inj a.free b.free).mp heq
    exact ⟨LfFree.ext hab, htu⟩
  cases f <;> cases g <;> simp only [bytes] at h
  case blank.blank r r' => rw [LfFree.ext h]
  case one.one i r i' r' =>
    obtain ⟨rfl, hr⟩ := hinj h
    rw [LfFree.ext hr]
  case two.two i p r i' p' r' =>
    obtain ⟨rfl, hp⟩ := hinj h
    obtain ⟨rfl, hr⟩ := hinj hp
    rw [LfFree.ext hr]
  case three.three i p c x i' p' c' x' =>
    obtain ⟨rfl, hp⟩ := hinj h
    obtain ⟨rfl, hc⟩ := hinj hp
    obtain ⟨rfl, rfl⟩ := hinj hc
    rfl
  all_goals first
    | exact absurd h hfree
    | exact absurd h.symm hfree
    | exact absurd (hinj h).2 hfree
    | exact absurd (hinj h).2.symm hfree
    | exact absurd (hinj (hinj h).2).2 hfree
    | exact absurd (hinj (hinj h).2).2.symm hfree

theorem nextNewLine_field (f : LfFree) (rest : Bytes) :
    nextNewLine (f.bytes ++ 10 :: rest) = .ok (f.bytes.length : Int) :=
  nextNewLine_append f.free

theorem nextNewLine_rest (r : LfFree) :
    nextNewLine r.bytes =
      if r.bytes = [] then .error .arrayIndexOutOfBounds else .ok (-1) := by
  split
  · rename_i h
    rw [h]
    rfl
  · rename_i h
    exact nextNewLine_none r.free h

/-- The parser reads the frame off the bytes. The one way it fails is a frame
that stops right where the next line feed is looked for. -/
theorem extractData_bytes (pkt : DataPacket) (f : Frame) :
    pkt.extractData f.bytes =
      if f.truncated then .error .arrayIndexOutOfBounds
      else .ok (f.fill pkt) := by
  have hpos : ∀ n : Nat, ¬ ((n : Int) = -1) := fun n => by omega
  unfold DataPacket.extractData
  cases f with
  | blank r =>
      simp only [bytes, truncated, nextNewLine_rest]
      by_cases h : r.bytes = [] <;> simp [h, fill, bind, Except.bind, pure, Except.pure]
  | one i r =>
      simp only [bytes, truncated, nextNewLine_field, bind, Except.bind,
        if_neg (hpos _), Int.toNat_natCast, copyOfRange_field,
        copyOfRange_rest, nextNewLine_rest]
      by_cases h : r.bytes = [] <;> simp [h, fill, pure, Except.pure]
  | two i p r =>
      simp only [bytes, truncated, nextNewLine_field, bind, Except.bind,
        if_neg (hpos _), Int.toNat_natCast, copyOfRange_field,
        copyOfRange_rest, nextNewLine_rest]
      by_cases h : r.bytes = [] <;> simp [h, fill, pure, Except.pure]
  | three i p c x =>
      simp only [bytes, truncated, nextNewLine_field, bind, Except.bind,
        if_neg (hpos _), Int.toNat_natCast, copyOfRange_field,
        copyOfRange_rest]
      rfl

end Frame

end NbIot
