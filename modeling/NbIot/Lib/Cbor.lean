import NbIot.Lib.Words

/-!
# Concise binary objects

Numbers, texts, maps, simple values and single-precision floats. An item starts
with a head: a major type, and a number in the head itself or in the one, two, four
or eight bytes behind it. The encoder takes the shortest head, the decoder any of
them. It reads back every item that was encoded (`decode_encode`), and no shorter
text stands for the same item (`encode_shortest`).

The decoder runs on fuel, and the length of the text is enough.
-/

namespace Lib.Cbor

open Lib.Words (bigEndian bigEndian_lt bigEndian_spell cut cut_append cut_length spell
  spell_length)

inductive Item where
  | unsigned (n : Nat)
  /-- The number `-1 - n`. -/
  | negative (n : Nat)
  | text (bs : List UInt8)
  | map (entries : List (Item × Item))
  | simple (n : Nat)
  | single (bits : BitVec 32)

/-! ## Heads -/

def initial (major info : Nat) : UInt8 := UInt8.ofNat (major * 32 + info)

/-- What the head itself holds of a number: the number, or in how many bytes it
follows. -/
def info (n : Nat) : Nat :=
  if n < 24 then n
  else if n < 256 then 24
  else if n < 65536 then 25
  else if n < 4294967296 then 26
  else 27

def width (info : Nat) : Nat := if info < 24 then 0 else 2 ^ (info - 24)

/-- The shortest head. -/
def head (major n : Nat) : List UInt8 := initial major (info n) :: spell (width (info n)) n

structure Head where
  major : Nat
  info : Nat
  n : Nat
  deriving DecidableEq

def readHead : List UInt8 → Option (Head × List UInt8)
  | [] => none
  | b :: bs =>
      let info := b.toNat % 32
      if info < 24 then some (⟨b.toNat / 32, info, info⟩, bs)
      else if info < 28 then
        (cut (width info) bs).map fun (number, bs) =>
          (⟨b.toNat / 32, info, bigEndian number⟩, bs)
      else none

/-! ## Items -/

mutual

def encoding : Item → List UInt8
  | .unsigned n => head 0 n
  | .negative n => head 1 n
  | .text bs => head 3 bs.length ++ bs
  | .map entries => head 5 entries.length ++ encodeEntries entries
  | .simple n => head 7 n
  | .single bits => initial 7 26 :: spell 4 bits.toNat
termination_by structural item => item

def encodeEntries : List (Item × Item) → List UInt8
  | [] => []
  | (key, value) :: entries => encoding key ++ (encoding value ++ encodeEntries entries)
termination_by structural entries => entries

end

/-- What is behind a head of major type 7. -/
def decodeSpecial (h : Head) : Option Item :=
  if h.info < 24 then some (.simple h.n)
  else if h.info = 24 then if 32 ≤ h.n then some (.simple h.n) else none
  else if h.info = 26 then some (.single (.ofNat 32 h.n))
  else none

mutual

def decode : Nat → List UInt8 → Option (Item × List UInt8)
  | 0, _ => none
  | fuel + 1, bs =>
      match readHead bs with
      | none => none
      | some (h, bs) =>
          if h.major = 0 then some (.unsigned h.n, bs)
          else if h.major = 1 then some (.negative h.n, bs)
          else if h.major = 3 then (cut h.n bs).map fun (text, bs) => (.text text, bs)
          else if h.major = 5 then
            (decodeEntries fuel h.n bs).map fun (entries, bs) => (.map entries, bs)
          else if h.major = 7 then (decodeSpecial h).map fun item => (item, bs)
          else none

def decodeEntries : Nat → Nat → List UInt8 → Option (List (Item × Item) × List UInt8)
  | _, 0, bs => some ([], bs)
  | 0, _ + 1, _ => none
  | fuel + 1, n + 1, bs =>
      match decode fuel bs with
      | none => none
      | some (key, bs) =>
          match decode fuel bs with
          | none => none
          | some (value, bs) =>
              (decodeEntries fuel n bs).map fun (entries, bs) => ((key, value) :: entries, bs)

end

/-- The one item that the text is. -/
def parse (bs : List UInt8) : Option Item :=
  match decode bs.length bs with
  | some (item, []) => some item
  | _ => none

example : parse (encoding (.map [(.text [97], .negative 299), (.text [98], .simple 21)])) =
    some (.map [(.text [97], .negative 299), (.text [98], .simple 21)]) := rfl

/-! ## Heads are read back -/

theorem initial_toNat {major i : Nat} (hmajor : major < 8) (hi : i < 32) :
    (initial major i).toNat = major * 32 + i := by
  rw [initial, UInt8.toNat_ofNat']
  omega

theorem info_cases (n : Nat) :
    n < 24 ∧ info n = n ∨ 24 ≤ n ∧ n < 256 ∧ info n = 24 ∨
      256 ≤ n ∧ n < 65536 ∧ info n = 25 ∨ 65536 ≤ n ∧ n < 4294967296 ∧ info n = 26 ∨
      4294967296 ≤ n ∧ info n = 27 := by
  unfold info
  repeat' split
  all_goals omega

/-- The number fits into the bytes that follow. -/
theorem lt_width {n : Nat} (hlarge : 24 ≤ n) (hn : n < 2 ^ 64) :
    24 ≤ info n ∧ n < 256 ^ width (info n) := by
  have hwidths : width 24 = 1 ∧ width 25 = 2 ∧ width 26 = 4 ∧ width 27 = 8 :=
    ⟨rfl, rfl, rfl, rfl⟩
  obtain ⟨h1, h2, h4, h8⟩ := hwidths
  obtain ⟨_, _⟩ | ⟨_, _, h⟩ | ⟨_, _, h⟩ | ⟨_, _, h⟩ | ⟨_, h⟩ := info_cases n
  · omega
  all_goals rw [h]
  · rw [h1]; omega
  · rw [h2]; omega
  · rw [h4]; omega
  · rw [h8]; omega

theorem readHead_wide {major i : Nat} {number : List UInt8} (hmajor : major < 8) (hlo : 24 ≤ i)
    (hhi : i < 28) (hnumber : number.length = width i) (rest : List UInt8) :
    readHead (initial major i :: number ++ rest) =
      some (⟨major, i, bigEndian number⟩, rest) := by
  have hinit := initial_toNat hmajor (show i < 32 by omega)
  have hmod : (initial major i).toNat % 32 = i := by omega
  have hdiv : (initial major i).toNat / 32 = major := by omega
  rw [List.cons_append, readHead]
  simp only [hmod, hdiv]
  rw [if_neg (by omega), if_pos hhi, ← hnumber, cut_append, Option.map_some]

theorem readHead_head {major n : Nat} (hmajor : major < 8) (hn : n < 2 ^ 64)
    (rest : List UInt8) :
    readHead (head major n ++ rest) = some (⟨major, info n, n⟩, rest) := by
  have hinfo : info n < 28 := by
    have hcases := info_cases n
    omega
  by_cases hsmall : n < 24
  · have hself : info n = n := if_pos hsmall
    have hinit := initial_toNat hmajor (show n < 32 by omega)
    have hmod : (initial major n).toNat % 32 = n := by omega
    have hdiv : (initial major n).toNat / 32 = major := by omega
    rw [head, hself, width, if_pos hsmall, List.cons_append, readHead]
    simp only [hmod, hdiv]
    rw [if_pos hsmall]
    rfl
  · obtain ⟨hlarge, hfits⟩ := lt_width (Nat.not_lt.mp hsmall) hn
    rw [head, readHead_wide hmajor hlarge hinfo (spell_length ..), bigEndian_spell,
      Nat.mod_eq_of_lt hfits]

/-! ## Items are read back -/

mutual

/-- Numbers of at most eight bytes. -/
def Item.Valid : Item → Prop
  | .unsigned n => n < 2 ^ 64
  | .negative n => n < 2 ^ 64
  | .text bs => bs.length < 2 ^ 64
  | .map entries => entries.length < 2 ^ 64 ∧ EntriesValid entries
  | .simple n => n < 24 ∨ 32 ≤ n ∧ n < 256
  | .single _ => True
termination_by structural item => item

def EntriesValid : List (Item × Item) → Prop
  | [] => True
  | (key, value) :: entries => key.Valid ∧ value.Valid ∧ EntriesValid entries
termination_by structural entries => entries

end

theorem head_length_pos (major n : Nat) : 0 < (head major n).length := Nat.succ_pos _

theorem encode_length_pos (item : Item) : 0 < (encoding item).length := by
  cases item with
  | text bs =>
      rw [encoding, List.length_append]
      exact Nat.lt_of_lt_of_le (head_length_pos 3 _) (Nat.le_add_right ..)
  | map entries =>
      rw [encoding, List.length_append]
      exact Nat.lt_of_lt_of_le (head_length_pos 5 _) (Nat.le_add_right ..)
  | _ => exact Nat.succ_pos _

theorem decodeSpecial_simple {n : Nat} (h : n < 24 ∨ 32 ≤ n ∧ n < 256) :
    decodeSpecial ⟨7, info n, n⟩ = some (.simple n) := by
  unfold decodeSpecial
  simp only []
  obtain ⟨_, hinfo⟩ | ⟨_, _, hinfo⟩ | _ | _ | _ := info_cases n
  · rw [if_pos (by omega)]
  · rw [if_neg (by omega), if_pos hinfo, if_pos (by omega)]
  all_goals omega

mutual

/-- Every item that was encoded is read back, whatever is behind it. -/
theorem decode_encode : ∀ (item : Item), item.Valid → ∀ (rest : List UInt8) {fuel : Nat},
    (encoding item).length ≤ fuel → decode fuel (encoding item ++ rest) = some (item, rest)
  | .unsigned n, hvalid, rest, fuel + 1, _ => by
      rw [encoding, decode, readHead_head (by decide) hvalid]
      rfl
  | .negative n, hvalid, rest, fuel + 1, _ => by
      rw [encoding, decode, readHead_head (by decide) hvalid]
      rfl
  | .text bs, hvalid, rest, fuel + 1, _ => by
      rw [encoding, decode, List.append_assoc, readHead_head (by decide) hvalid]
      simp only []
      rw [cut_append]
      rfl
  | .map entries, hvalid, rest, fuel + 1, hfuel => by
      obtain ⟨hlength, hentries⟩ := hvalid
      have hpos := head_length_pos 5 entries.length
      rw [encoding, List.length_append] at hfuel
      have hrest := decodeEntries_encode entries hentries rest
        (show (encodeEntries entries).length ≤ fuel by omega)
      rw [encoding, decode, List.append_assoc, readHead_head (by decide) hlength]
      simp only []
      rw [hrest]
      rfl
  | .simple n, hvalid, rest, fuel + 1, _ => by
      have hn : n < 2 ^ 64 := by
        unfold Item.Valid at hvalid
        omega
      rw [encoding, decode, readHead_head (by decide) hn]
      simp only []
      rw [decodeSpecial_simple hvalid]
      rfl
  | .single bits, _, rest, fuel + 1, _ => by
      have hbits : bits.toNat % 256 ^ 4 = bits.toNat := Nat.mod_eq_of_lt bits.isLt
      have hread := readHead_wide (show 7 < 8 by omega) (show 24 ≤ 26 by omega)
        (show 26 < 28 by omega) (spell_length 4 bits.toNat) rest
      rw [encoding, decode, hread, bigEndian_spell, hbits]
      show some (Item.single (.ofNat 32 bits.toNat), rest) = _
      rw [BitVec.ofNat_toNat, BitVec.setWidth_eq]
  | item, _, _, 0, hfuel => absurd (encode_length_pos item) (by omega)

theorem decodeEntries_encode : ∀ (entries : List (Item × Item)), EntriesValid entries →
    ∀ (rest : List UInt8) {fuel : Nat}, (encodeEntries entries).length ≤ fuel →
    decodeEntries fuel entries.length (encodeEntries entries ++ rest) = some (entries, rest)
  | [], _, rest, fuel, _ => by
      cases fuel <;> rfl
  | (key, value) :: entries, hvalid, rest, fuel, hfuel => by
      obtain ⟨hkey, hvalue, hentries⟩ := hvalid
      have hkeyPos := encode_length_pos key
      have hvaluePos := encode_length_pos value
      rw [encodeEntries, List.length_append, List.length_append] at hfuel
      obtain ⟨fuel, rfl⟩ := Nat.exists_eq_succ_of_ne_zero (show fuel ≠ 0 by omega)
      rw [encodeEntries, List.length_cons, decodeEntries, List.append_assoc,
        decode_encode key hkey _ (by omega)]
      simp only []
      rw [List.append_assoc, decode_encode value hvalue _ (by omega)]
      simp only []
      rw [decodeEntries_encode entries hentries _ (by omega)]
      rfl

end

theorem parse_encode {item : Item} (hvalid : item.Valid) : parse (encoding item) = some item := by
  have hdecode := decode_encode item hvalid [] (Nat.le_refl _)
  rw [List.append_nil] at hdecode
  rw [parse, hdecode]

/-! ## The encoding is the shortest -/

theorem width_le {n i : Nat} (h : i < 24 ∧ n = i ∨ 24 ≤ i ∧ i < 28 ∧ n < 256 ^ width i) :
    width (info n) ≤ width i := by
  have hwidths : width 24 = 1 ∧ width 25 = 2 ∧ width 26 = 4 ∧ width 27 = 8 :=
    ⟨rfl, rfl, rfl, rfl⟩
  obtain ⟨h1, h2, h4, h8⟩ := hwidths
  obtain ⟨hsmall, rfl⟩ | ⟨hlo, hhi, hfits⟩ := h
  · exact Nat.le_of_eq (congrArg width (if_pos hsmall))
  · have hi : i = 24 ∨ i = 25 ∨ i = 26 ∨ i = 27 := by omega
    obtain ⟨hn, hinfo⟩ | ⟨_, _, hinfo⟩ | ⟨_, _, hinfo⟩ | ⟨_, _, hinfo⟩ | ⟨_, hinfo⟩ := info_cases n
    · rw [hinfo, width, if_pos hn]
      exact Nat.zero_le _
    all_goals
      rw [hinfo]
      obtain rfl | rfl | rfl | rfl := hi
      all_goals
        simp only [h1, h2, h4, h8] at hfits ⊢
        omega

theorem readHead_length {bs rest : List UInt8} {h : Head} (hread : readHead bs = some (h, rest)) :
    bs.length = 1 + width h.info + rest.length ∧ width (info h.n) ≤ width h.info := by
  cases bs with
  | nil => cases hread
  | cons b bs =>
      rw [readHead] at hread
      simp only [] at hread
      rw [List.length_cons]
      split at hread
      · rename_i hsmall
        cases hread
        refine ⟨?_, width_le (Or.inl ⟨hsmall, rfl⟩)⟩
        rw [width, if_pos hsmall]
        omega
      · rename_i hlarge
        split at hread
        · rename_i hhi
          obtain ⟨⟨number, rest⟩, hcut, heq⟩ := Option.map_eq_some_iff.mp hread
          cases heq
          obtain ⟨hnumber, hlength⟩ := cut_length hcut
          have hlt := bigEndian_lt number
          rw [hnumber] at hlt
          exact ⟨by simp only []; omega, width_le (Or.inr ⟨Nat.not_lt.mp hlarge, hhi, hlt⟩)⟩
        · cases hread

theorem head_length (major n : Nat) : (head major n).length = 1 + width (info n) := by
  rw [head, List.length_cons, spell_length, Nat.add_comm]

theorem decodeSpecial_length {h : Head} {item : Item} (hwidth : width (info h.n) ≤ width h.info)
    (hspecial : decodeSpecial h = some item) : (encoding item).length ≤ 1 + width h.info := by
  have hsimple : (encoding (.simple h.n)).length ≤ 1 + width h.info := by
    rw [encoding, head_length]
    omega
  unfold decodeSpecial at hspecial
  split at hspecial
  · cases hspecial
    exact hsimple
  split at hspecial
  · split at hspecial
    · cases hspecial
      exact hsimple
    · cases hspecial
  split at hspecial
  · rename_i hinfo
    cases hspecial
    rw [hinfo]
    exact Nat.le_refl _
  · cases hspecial

/-- What was read is no shorter than the encoding of what it was read as. -/
theorem decode_length (fuel : Nat) :
    (∀ bs item rest, decode fuel bs = some (item, rest) →
      (encoding item).length + rest.length ≤ bs.length) ∧
    ∀ n bs entries rest, decodeEntries fuel n bs = some (entries, rest) →
      entries.length = n ∧ (encodeEntries entries).length + rest.length ≤ bs.length := by
  induction fuel with
  | zero =>
      refine ⟨fun bs item rest h => (by cases h), fun n bs entries rest h => ?_⟩
      cases n with
      | zero =>
          cases h
          exact ⟨rfl, by rw [encodeEntries]; exact Nat.le_of_eq (Nat.zero_add _)⟩
      | succ n => cases h
  | succ fuel ih =>
      obtain ⟨ihItem, ihEntries⟩ := ih
      constructor
      · intro bs item rest h
        rw [decode] at h
        split at h
        · cases h
        · rename_i hd bs' hread
          obtain ⟨hlength, hwidth⟩ := readHead_length hread
          have hhead (major : Nat) := head_length major hd.n
          split at h
          · cases h
            rw [encoding, hhead]
            omega
          split at h
          · cases h
            rw [encoding, hhead]
            omega
          split at h
          · obtain ⟨⟨text, rest'⟩, hcut, heq⟩ := Option.map_eq_some_iff.mp h
            cases heq
            obtain ⟨htext, hrest⟩ := cut_length hcut
            rw [encoding, htext, List.length_append, hhead]
            omega
          split at h
          · obtain ⟨⟨entries, rest'⟩, hentries, heq⟩ := Option.map_eq_some_iff.mp h
            cases heq
            obtain ⟨hn, hrest⟩ := ihEntries _ _ _ _ hentries
            rw [encoding, hn, List.length_append, hhead]
            omega
          split at h
          · obtain ⟨item', hspecial, heq⟩ := Option.map_eq_some_iff.mp h
            cases heq
            have hspecial := decodeSpecial_length hwidth hspecial
            omega
          · cases h
      · intro n bs entries rest h
        cases n with
        | zero =>
            rw [decodeEntries] at h
            cases h
            exact ⟨rfl, by rw [encodeEntries]; exact Nat.le_of_eq (Nat.zero_add _)⟩
        | succ n =>
            rw [decodeEntries] at h
            split at h
            · cases h
            rename_i key bs1 hkey
            split at h
            · cases h
            rename_i value bs2 hvalue
            obtain ⟨⟨more, rest'⟩, hmore, heq⟩ := Option.map_eq_some_iff.mp h
            cases heq
            have hkey := ihItem _ _ _ hkey
            have hvalue := ihItem _ _ _ hvalue
            obtain ⟨hn, hmore⟩ := ihEntries _ _ _ _ hmore
            refine ⟨by rw [List.length_cons, hn], ?_⟩
            rw [encodeEntries, List.length_append, List.length_append]
            omega

/-- No shorter text stands for an item than its encoding. -/
theorem encode_shortest {bs : List UInt8} {item : Item} (h : parse bs = some item) :
    (encoding item).length ≤ bs.length := by
  unfold parse at h
  split at h
  · rename_i item' hdecode
    cases h
    exact (decode_length bs.length).1 bs _ [] hdecode
  · cases h

end Lib.Cbor
