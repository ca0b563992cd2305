import NbIot.Lib.Append
import NbIot.Lib.Cbor
import NbIot.Node.CborBuilder

/-!
# Messages of a `CborBuilder`

A builder stays sound whatever is added to it: it never writes outside its buffer,
and keeps what was written. A map with its entries is read back by a decoder if and
only if its encoding fits (`message_iff`). Sending it is another matter: the index of
the loop over the data is an `unsigned char`, so a message of 256 bytes, which the
default buffer has room for, is printed without end (`send_iff`).
-/

namespace NbIot

open Lib (Appends Buffer)
open Lib.Cbor (EntriesValid Item encoding encodeEntries encode_shortest head info info_cases
  initial parse parse_encode width)
open Lib.Words (spell)
open Lib.Scan (bytes)

/-- The item that an `int` stands for. -/
def integerItem (value : BitVec 16) : Item :=
  if value.toInt < 0 then .negative (-value.toInt - 1).toNat else .unsigned value.toInt.toNat

namespace CborBuilder

/-- The buffer is as large as the capacity, which fits into the RAM, and holds what was
written. -/
structure Sound (capacity : BitVec 16) (b : CborBuilder) : Prop where
  capacity_eq : b.capacity = capacity
  fits : capacity.toNat ≤ 16384
  size_eq : b.buffer.size = capacity.toNat
  offset_le : b.offset.toNat ≤ capacity.toNat
  inside : b.buffer.Inside

variable {capacity : BitVec 16}

theorem init_sound (hfits : capacity.toNat ≤ 16384) (cells : Nat → UInt8) :
    (init capacity cells).Sound capacity :=
  ⟨rfl, hfits, rfl, Nat.zero_le _,
    ⟨fun _ h => absurd h List.not_mem_nil, fun _ h => absurd h List.not_mem_nil⟩⟩

theorem reset_sound {b : CborBuilder} (h : b.Sound capacity) : b.reset.Sound capacity :=
  ⟨h.capacity_eq, h.fits, h.size_eq, Nat.zero_le _, h.inside⟩

theorem data_length (b : CborBuilder) : b.data.length = b.offset.toNat := by
  rw [data, Buffer.slice, List.length_map, List.length_range]

/-- What a step does that leaves room for its values behind those there are. -/
abbrev Writes (capacity : BitVec 16) (step : CborBuilder → CborBuilder) (vs : List UInt8) :
    Prop :=
  Appends (Sound capacity) data capacity.toNat step vs

/-! ## Bytes -/

theorem putByte_writes (value : UInt8) : Writes capacity (putByte value) [value] := by
  intro b hb
  have hle := hb.offset_le
  have hsize := hb.size_eq
  have hfits := hb.fits
  have hcapacity := hb.capacity_eq
  unfold putByte
  split
  · rename_i hroom
    rw [BitVec.lt_def, hcapacity] at hroom
    have hnext : (b.offset + 1).toNat = b.offset.toNat + 1 := by
      rw [BitVec.toNat_add]
      exact Nat.mod_eq_of_lt (show b.offset.toNat + 1 < 2 ^ 16 by omega)
    have hdata : data ⟨b.buffer.set b.offset.toNat value, b.capacity, b.offset + 1⟩ =
        b.data ++ [value] := by
      rw [data, data, hnext]
      exact b.buffer.slice_store_from b.offset.toNat [value]
    rw [hdata]
    refine ⟨⟨hcapacity, hfits, hsize, ?_, ?_⟩, List.prefix_append _ _, fun _ => rfl⟩
    · rw [hnext]
      exact hroom
    · exact Buffer.set_inside.mpr ⟨hb.inside, by omega⟩
  · rename_i hfull
    rw [BitVec.lt_def, hcapacity] at hfull
    refine ⟨hb, List.prefix_refl _, fun hroom => ?_⟩
    rw [data_length, List.length_singleton] at hroom
    omega

theorem putEach_writes (values : List UInt8) : Writes capacity (putEach values) values := by
  have hfold : Writes capacity (putEach values) (values.flatMap fun value => [value]) :=
    Appends.fold putByte_writes values
  rw [List.flatMap_singleton'] at hfold
  exact hfold

theorem putBytes_writes {bs : List UInt8} (hshort : bs.length < 16384) :
    Writes capacity (putBytes bs) bs := by
  intro b hb
  have hle := hb.offset_le
  have hsize := hb.size_eq
  have hfits := hb.fits
  have hcapacity := hb.capacity_eq
  have hlength : (BitVec.ofNat 16 bs.length).toNat = bs.length := by
    rw [BitVec.toNat_ofNat]
    omega
  have hnext : (b.offset + BitVec.ofNat 16 bs.length).toNat = b.offset.toNat + bs.length := by
    rw [BitVec.toNat_add, hlength]
    omega
  have hlast : (b.offset + BitVec.ofNat 16 bs.length - 1).toNat =
      (b.offset.toNat + bs.length + 65535) % 65536 := by
    rw [BitVec.toNat_sub, hnext]
    show (2 ^ 16 - 1 + (b.offset.toNat + bs.length)) % 2 ^ 16 = _
    omega
  unfold putBytes
  simp only []
  rw [hlength, List.take_length]
  split
  · rename_i hroom
    rw [BitVec.lt_def, hcapacity, hlast] at hroom
    have hin : b.offset.toNat + bs.length ≤ capacity.toNat := by omega
    have hdata : data ⟨b.buffer.store b.offset.toNat bs, b.capacity,
        b.offset + BitVec.ofNat 16 bs.length⟩ = b.data ++ bs := by
      rw [data, data, hnext]
      exact b.buffer.slice_store_from b.offset.toNat bs
    rw [hdata]
    refine ⟨⟨hcapacity, hfits, ?_, ?_, ?_⟩, List.prefix_append _ _, fun _ => rfl⟩
    · rw [Buffer.store_size]
      exact hsize
    · rw [hnext]
      exact hin
    · exact Buffer.store_inside hb.inside (by omega)
  · rename_i hfull
    rw [BitVec.lt_def, hcapacity, hlast] at hfull
    refine ⟨hb, List.prefix_refl _, fun hroom => ?_⟩
    rw [data_length] at hroom
    -- Nothing is written at the start of the buffer, and the check fails.
    have hnil : bs = [] := List.length_eq_zero_iff.mp (by omega)
    rw [hnil, List.append_nil]

/-! ## Heads -/

theorem first_eq {majorType low : UInt8} (hmajor : majorType.toNat < 8)
    (hlow : low.toNat < 32) : first majorType low = initial majorType.toNat low.toNat := by
  have hall : ∀ m : Fin 8, ∀ l : Fin 32,
      first (.ofNat m) (.ofNat l) = initial m.val l.val := by decide +kernel
  have h := hall ⟨majorType.toNat, hmajor⟩ ⟨low.toNat, hlow⟩
  simp only [UInt8.ofNat_toNat] at h
  exact h

theorem byte_ushiftRight {w : Nat} (value : BitVec w) (k : Nat) :
    byte (value >>> k) = UInt8.ofNat (value.toNat / 2 ^ k) := by
  refine UInt8.toNat_inj.mp ?_
  have hbyte : (byte (value >>> k)).toNat = (value >>> k).toNat % 2 ^ 8 :=
    BitVec.toNat_setWidth 8 (value >>> k)
  rw [hbyte, BitVec.toNat_ushiftRight, Nat.shiftRight_eq_div_pow]
  exact UInt8.toNat_ofNat'.symm

theorem byte_eq {w : Nat} (value : BitVec w) : byte value = UInt8.ofNat value.toNat :=
  UInt8.toNat_inj.mp ((BitVec.toNat_setWidth 8 value).trans UInt8.toNat_ofNat'.symm)

theorem byte_toNat {w : Nat} {value : BitVec w} (h : value.toNat < 256) :
    (byte value).toNat = value.toNat :=
  (BitVec.toNat_setWidth 8 value).trans (Nat.mod_eq_of_lt h)

theorem head_small {majorType : UInt8} {w : Nat} {value : BitVec w}
    (hmajor : majorType.toNat < 8) (hn : value.toNat < 24) :
    head majorType.toNat value.toNat = [first majorType (byte value)] := by
  have hbyte := byte_toNat (show value.toNat < 256 by omega)
  have hself : info value.toNat = value.toNat := if_pos hn
  rw [first_eq hmajor (by omega), hbyte, head, hself, width, if_pos hn]
  rfl

/-- A head with a number in the bytes behind it. -/
theorem head_large {majorType low : UInt8} {n k : Nat} (hmajor : majorType.toNat < 8)
    (hlow : low.toNat < 32) (hinfo : info n = low.toNat) (hwidth : width low.toNat = k) :
    head majorType.toNat n = first majorType low :: spell k n := by
  rw [first_eq hmajor hlow, head, hinfo, hwidth]

/-- The bytes of a number, by shifts. -/
theorem spell_shifts {w : Nat} (value : BitVec w) :
    spell 1 value.toNat = [byte value] ∧
      spell 2 value.toNat = [byte (value >>> 8), byte value] ∧
      spell 4 value.toNat =
        [byte (value >>> 24), byte (value >>> 16), byte (value >>> 8), byte value] ∧
      spell 8 value.toNat =
        [byte (value >>> 56), byte (value >>> 48), byte (value >>> 40), byte (value >>> 32),
          byte (value >>> 24), byte (value >>> 16), byte (value >>> 8), byte value] := by
  simp only [byte_ushiftRight]
  rw [byte_eq]
  simp only [spell, Nat.pow_zero, Nat.div_one]
  exact ⟨trivial, rfl, rfl, rfl⟩

/-- What `writeTypeAndValue` writes is the shortest head. -/
theorem writeTypeAndValue_writes {majorType : UInt8} (hmajor : majorType.toNat < 8)
    (value : BitVec 32) :
    Writes capacity (writeTypeAndValue majorType value)
      (head majorType.toNat value.toNat) := by
  have hn := value.isLt
  obtain ⟨h1, h2, h4, _⟩ := spell_shifts value
  unfold writeTypeAndValue
  obtain ⟨hlt, _⟩ | ⟨hge, hlt, hinfo⟩ | ⟨hge, hlt, hinfo⟩ | ⟨hge, _, hinfo⟩ | ⟨hge, _⟩ :=
    info_cases value.toNat
  · rw [if_pos hlt, head_small hmajor hlt]
    exact putEach_writes _
  · have hhead := head_large (show majorType.toNat < 8 from hmajor)
      (show (24 : UInt8).toNat < 32 by decide) hinfo (show width 24 = 1 from rfl)
    rw [if_neg (by omega), if_pos hlt, hhead, h1]
    exact putEach_writes _
  · have hhead := head_large hmajor (show (25 : UInt8).toNat < 32 by decide) hinfo
      (show width 25 = 2 from rfl)
    rw [if_neg (by omega), if_neg (by omega), if_pos hlt, hhead, h2]
    exact putEach_writes _
  · have hhead := head_large hmajor (show (26 : UInt8).toNat < 32 by decide) hinfo
      (show width 26 = 4 from rfl)
    rw [if_neg (by omega), if_neg (by omega), if_neg (by omega), hhead, h4]
    exact putEach_writes _
  · omega

/-- The other overload leaves the second byte of a number of two bytes out. -/
theorem writeTypeAndValue64_iff {majorType : UInt8} (hmajor : majorType.toNat < 8)
    (value : BitVec 64) {b : CborBuilder} (hb : b.Sound capacity)
    (hroom : b.data.length + 9 ≤ capacity.toNat) :
    (b.writeTypeAndValue64 majorType value).data =
        b.data ++ head majorType.toNat value.toNat ↔
      value.toNat < 256 ∨ 65536 ≤ value.toNat := by
  have hn := value.isLt
  obtain ⟨h1, h2, h4, h8⟩ := spell_shifts value
  have heach (vs : List UInt8) (hle : vs.length ≤ 9) : (b.putEach vs).data = b.data ++ vs :=
    (putEach_writes vs b hb).2.2 (by omega)
  unfold writeTypeAndValue64
  obtain ⟨hlt, _⟩ | ⟨hge, hlt, hinfo⟩ | ⟨hge, hlt, hinfo⟩ | ⟨hge, hlt, hinfo⟩ | ⟨hge, hinfo⟩ :=
    info_cases value.toNat
  · rw [if_pos hlt, head_small hmajor hlt]
    exact iff_of_true (heach _ (show 1 ≤ 9 by omega)) (Or.inl (by omega))
  · have hhead := head_large (show majorType.toNat < 8 from hmajor)
      (show (24 : UInt8).toNat < 32 by decide) hinfo (show width 24 = 1 from rfl)
    rw [if_neg (by omega), if_pos hlt, hhead, h1]
    exact iff_of_true (heach _ (show 2 ≤ 9 by omega)) (Or.inl hlt)
  · have hhead := head_large hmajor (show (25 : UInt8).toNat < 32 by decide) hinfo
      (show width 25 = 2 from rfl)
    rw [if_neg (by omega), if_neg (by omega), if_pos hlt, hhead, h2,
      heach [first majorType 25, byte (value >>> 8)] (show 2 ≤ 9 by omega)]
    refine iff_of_false (fun heq => ?_) (by omega)
    have hlength := congrArg List.length (List.append_cancel_left heq)
    cases hlength
  · have hhead := head_large hmajor (show (26 : UInt8).toNat < 32 by decide) hinfo
      (show width 26 = 4 from rfl)
    rw [if_neg (by omega), if_neg (by omega), if_neg (by omega), if_pos hlt, hhead, h4]
    exact iff_of_true (heach _ (show 5 ≤ 9 by omega)) (Or.inr hge)
  · have hhead := head_large hmajor (show (27 : UInt8).toNat < 32 by decide) hinfo
      (show width 27 = 8 from rfl)
    rw [if_neg (by omega), if_neg (by omega), if_neg (by omega), if_neg (by omega), hhead, h8]
    exact iff_of_true (heach _ (show 9 ≤ 9 by omega)) (Or.inr (by omega))

/-! ## Items -/

/-- A word that is not negative is its own pattern. -/
theorem signExtend_toNat {value : BitVec 16} (h : 0 ≤ value.toInt) :
    (value.signExtend 32).toNat = value.toInt.toNat := by
  have hextend : (value.signExtend 32).toInt = value.toInt :=
    BitVec.toInt_signExtend_of_le (by decide)
  have hcond := BitVec.toInt_eq_toNat_cond (value.signExtend 32)
  have hlt := (value.signExtend 32).isLt
  split at hcond <;> omega

/-- The negation of an `int` does not overflow behind the addition. -/
theorem negated_toInt {value : BitVec 16} (h : value.toInt < 0) :
    (-(value + 1)).toInt = -value.toInt - 1 := by
  have hvalue := BitVec.toInt_eq_toNat_cond value
  have hnegated := BitVec.toInt_eq_toNat_cond (-(value + 1))
  have hlt := value.isLt
  rw [BitVec.toNat_neg, BitVec.toNat_add, show (1 : BitVec 16).toNat = 1 from rfl] at hnegated
  split at hvalue <;> split at hnegated <;> omega

theorem writeInt_writes (value : BitVec 16) :
    Writes capacity (writeInt value) (encoding (integerItem value)) := by
  unfold writeInt integerItem
  split
  · rename_i hneg
    have hnegated := negated_toInt hneg
    rw [encoding, ← hnegated, ← signExtend_toNat (by omega)]
    exact writeTypeAndValue_writes (show (1 : UInt8).toNat < 8 by decide) _
  · rename_i hpos
    rw [encoding, ← signExtend_toNat (Int.not_lt.mp hpos)]
    exact writeTypeAndValue_writes (show (0 : UInt8).toNat < 8 by decide) _

theorem writeString_writes {str : List UInt8} (hshort : str.length < 16384) :
    Writes capacity (writeString str) (encoding (.text str)) := by
  have hlength : ((BitVec.ofNat 16 str.length).setWidth 32).toNat = str.length := by
    rw [BitVec.toNat_setWidth, BitVec.toNat_ofNat]
    omega
  rw [encoding, ← hlength]
  exact (writeTypeAndValue_writes (show (3 : UInt8).toNat < 8 by decide) _).comp (putBytes_writes hshort)

theorem map_writes (size : BitVec 16) : Writes capacity (map size) (head 5 size.toNat) := by
  have hsize : (size.setWidth 32).toNat = size.toNat := by
    rw [BitVec.toNat_setWidth]
    omega
  rw [← hsize]
  exact writeTypeAndValue_writes (show (5 : UInt8).toNat < 8 by decide) _

theorem writeNumber_writes (value : BitVec 32) :
    Writes capacity (writeNumber value) (encoding (.single value)) := by
  obtain ⟨_, _, h4, _⟩ := spell_shifts value
  rw [encoding, h4]
  exact putEach_writes _

end CborBuilder

/-! ## Messages -/

/-- The entry of the map that a value and its asset stand for. -/
def Entry.item : Entry → Item × Item
  | boolean value asset => (.text asset.bytes, .simple (if value then 21 else 20))
  | integer value asset => (.text asset.bytes, integerItem value)
  | number value asset => (.text asset.bytes, .single value)
  | string value asset => (.text asset.bytes, .text value.bytes)
  | gps latitude longitude altitude asset =>
      (.text asset.bytes,
        .map [(.text (bytes "latitude"), .single latitude),
          (.text (bytes "longitude"), .single longitude),
          (.text (bytes "altitude"), .single altitude)])

namespace CborBuilder

variable {capacity : BitVec 16}

/-- One coordinate of a position. -/
theorem coordinate_writes {name : List UInt8} (hshort : name.length < 16384)
    (value : BitVec 32) :
    Writes capacity (fun b => (b.writeString name).writeNumber value)
      (encoding (.text name) ++ encoding (.single value)) :=
  (writeString_writes hshort).comp (writeNumber_writes value)

theorem add_writes (entry : Entry) :
    Writes capacity entry.add (encoding entry.item.1 ++ encoding entry.item.2) := by
  have hasset (asset : Text) : Writes capacity _ _ := writeString_writes asset.fits
  have hspecial (value : BitVec 32) : Writes capacity (writeSpecial value) (head 7 value.toNat) :=
    writeTypeAndValue_writes (show (7 : UInt8).toNat < 8 by decide) value
  cases entry with
  | boolean value asset =>
      cases value with
      | true =>
          have htrue := (hasset asset).comp (hspecial 21)
          exact htrue
      | false =>
          have hfalse := (hasset asset).comp (hspecial 20)
          exact hfalse
  | integer value asset =>
      have hinteger := (hasset asset).comp (writeInt_writes value)
      exact hinteger
  | number value asset =>
      have hnumber := (hasset asset).comp (writeNumber_writes value)
      exact hnumber
  | string value asset =>
      have hstring := (hasset asset).comp (hasset value)
      exact hstring
  | gps latitude longitude altitude asset =>
      have hgps := ((((hasset asset).comp (map_writes 3)).comp
        (coordinate_writes (show (bytes "latitude").length < 16384 by decide) latitude)).comp
        (coordinate_writes (show (bytes "longitude").length < 16384 by decide) longitude)).comp
        (coordinate_writes (show (bytes "altitude").length < 16384 by decide) altitude)
      simp only [List.append_assoc] at hgps
      simp only [Entry.item, encoding.eq_4, encodeEntries, List.append_nil]
      exact hgps

theorem encodeEntries_items (entries : List Entry) :
    encodeEntries (entries.map Entry.item) =
      entries.flatMap fun entry => encoding entry.item.1 ++ encoding entry.item.2 := by
  induction entries with
  | nil => rfl
  | cons entry entries ih =>
      rw [List.map_cons, List.flatMap_cons, ← ih, List.append_assoc]
      rfl

theorem entriesValid_items {entries : List Entry} :
    EntriesValid (entries.map Entry.item) := by
  have htext (text : Text) : text.bytes.length < 2 ^ 64 :=
    Nat.lt_trans text.fits (by decide)
  induction entries with
  | nil => trivial
  | cons entry entries ih =>
      refine ⟨?_, ?_, ih⟩
      · cases entry <;> exact htext _
      · cases entry with
        | boolean value asset => cases value <;> exact Or.inl (by decide)
        | integer value asset =>
            have hlo := BitVec.le_toInt value
            have hhi := BitVec.toInt_lt (x := value)
            show (integerItem value).Valid
            unfold integerItem
            split
            · show (-value.toInt - 1).toNat < 2 ^ 64
              omega
            · show value.toInt.toNat < 2 ^ 64
              omega
        | number value asset => trivial
        | string value asset => exact htext value
        | gps latitude longitude altitude asset =>
            exact ⟨show 3 < 2 ^ 64 by omega, by show _ < 2 ^ 64; decide, trivial, by show _ < 2 ^ 64; decide,
              trivial, by show _ < 2 ^ 64; decide, trivial, trivial⟩

theorem length_le_encodeEntries (entries : List (Item × Item)) :
    entries.length ≤ (encodeEntries entries).length := by
  induction entries with
  | nil => exact Nat.le_refl _
  | cons entry entries ih =>
      obtain ⟨key, value⟩ := entry
      have hkey := Lib.Cbor.encode_length_pos key
      rw [encodeEntries, List.length_append, List.length_append, List.length_cons]
      omega

/-- What a message stands for. -/
def messageItem (entries : List Entry) : Item := .map (entries.map Entry.item)

theorem message_writes {entries : List Entry} (hmany : entries.length < 2 ^ 16) :
    Writes capacity
      (fun b => entries.foldl (fun b entry => entry.add b)
        (b.map (BitVec.ofNat 16 entries.length)))
      (encoding (messageItem entries)) := by
  have hlength : (BitVec.ofNat 16 entries.length).toNat = entries.length := by
    rw [BitVec.toNat_ofNat]
    exact Nat.mod_eq_of_lt hmany
  have hwrites : Writes capacity _ _ := (map_writes (BitVec.ofNat 16 entries.length)).comp
    (Appends.fold add_writes entries)
  rw [hlength, ← encodeEntries_items] at hwrites
  rw [messageItem, encoding, List.length_map]
  exact hwrites

theorem message_sound {b : CborBuilder} (hb : b.Sound capacity) (entries : List Entry) :
    (b.message entries).Sound capacity :=
  (((map_writes _).comp (Appends.fold add_writes entries)) b.reset (reset_sound hb)).1

theorem message_data {b : CborBuilder} (hb : b.Sound capacity) {entries : List Entry}
    (hfits : (encoding (messageItem entries)).length ≤ capacity.toNat) :
    (b.message entries).data = encoding (messageItem entries) := by
  have hentries := length_le_encodeEntries (entries.map Entry.item)
  have hcapacity := capacity.isLt
  rw [messageItem, encoding, List.length_append, List.length_map] at hfits
  rw [List.length_map] at hentries
  have hwritten := (message_writes (show entries.length < 2 ^ 16 by omega) b.reset
    (reset_sound hb)).2.2
  have hempty : b.reset.data = [] := rfl
  rw [hempty, List.nil_append, List.length_nil, Nat.zero_add] at hwritten
  refine hwritten ?_
  rw [messageItem, encoding, List.length_append, List.length_map]
  exact hfits

/-- However it is filled, a builder stays within its buffer, and its message is read as
the map of its entries if and only if the encoding of that fits. -/
theorem message_iff {b : CborBuilder} (hb : b.Sound capacity) (entries : List Entry) :
    (b.message entries).Sound capacity ∧
      (parse (b.message entries).data = some (messageItem entries) ↔
        (encoding (messageItem entries)).length ≤ capacity.toNat) := by
  have hsound := message_sound hb entries
  refine ⟨hsound, fun hparse => ?_, fun hfits => ?_⟩
  · have hshortest := encode_shortest hparse
    rw [data_length] at hshortest
    exact Nat.le_trans hshortest hsound.offset_le
  · have hmany := length_le_encodeEntries (entries.map Entry.item)
    have hcapacity := capacity.isLt
    rw [message_data hb hfits]
    rw [messageItem, encoding, List.length_append] at hfits
    refine parse_encode ⟨?_, entriesValid_items⟩
    omega

end CborBuilder

/-- One datapoint, in a buffer of the default capacity. -/
def Small.counter : List Entry := [.integer 25 ⟨bytes "counter", by decide⟩]

def Small.builder : CborBuilder := .init 256 fun _ => 0

theorem counter_is_read :
    (Small.builder.message Small.counter).Sound 256 ∧
      (parse (Small.builder.message Small.counter).data =
          some (CborBuilder.messageItem Small.counter) ↔
        (encoding (CborBuilder.messageItem Small.counter)).length ≤ (256 : BitVec 16).toNat) :=
  CborBuilder.message_iff (CborBuilder.init_sound (by decide) _) Small.counter

theorem zero_is_written :
    (Small.builder.writeTypeAndValue64 0 0).data =
        Small.builder.data ++ head (0 : UInt8).toNat (0 : BitVec 64).toNat ↔
      (0 : BitVec 64).toNat < 256 ∨ 65536 ≤ (0 : BitVec 64).toNat :=
  CborBuilder.writeTypeAndValue64_iff (by decide) 0
    (show Small.builder.Sound 256 from CborBuilder.init_sound (by decide) _) (by decide)

/-! ## Sending -/

open Lib.Digits (hexByte unhex unhex_hexBytes)
open Lib.While (loop_diverges loop_ends loop_invariant)

/-- The loop has printed the cells up to its index. -/
def HexLoop.Printed (size : BitVec 16) (data : Buffer) (l : HexLoop) : Prop :=
  l.i.toNat ≤ size.toNat ∧ l.data.cells = data.cells ∧
    l.text = (data.slice l.i.toNat).flatMap hexByte

/-- Up to 255 bytes the loop prints all of them and ends. -/
theorem printCbor_ends {size : BitVec 16} (hsize : size.toNat ≤ 255) (data : Buffer) :
    ∃ l, printCbor size 256 data = some l ∧
      l.text = (data.slice size.toNat).flatMap hexByte := by
  have hbody : ∀ l : HexLoop, l.Printed size data → decide (l.i.toNat < size.toNat) = true →
      HexLoop.Printed size data
          { i := l.i + 1
            text := l.text ++ [hexTable.getD ((l.data.get l.i.toNat).toNat / 16) ' ',
              hexTable.getD ((l.data.get l.i.toNat).toNat % 16) ' ']
            data := l.data.touch l.i.toNat } ∧
        size.toNat - (l.i + 1).toNat < size.toNat - l.i.toNat := by
    intro l ⟨hle, hcells, htext⟩ hgoes
    have hlt := of_decide_eq_true hgoes
    have hnext : (l.i + 1).toNat = l.i.toNat + 1 := by
      rw [UInt8.toNat_add]
      exact Nat.mod_eq_of_lt (show l.i.toNat + 1 < 256 by omega)
    rw [HexLoop.Printed, hnext]
    refine ⟨⟨hlt, hcells, ?_⟩, by omega⟩
    rw [hexTable_eq, Buffer.slice_succ, List.flatMap_append, htext, Buffer.get, hcells]
    simp
  have hstart : HexLoop.Printed size data { data } := ⟨Nat.zero_le _, rfl, rfl⟩
  obtain ⟨l, hl⟩ := loop_ends (HexLoop.Printed size data) (fun l => size.toNat - l.i.toNat) hbody
    hstart (show size.toNat - 0 < 256 by omega)
  obtain ⟨⟨hle, _, htext⟩, hover⟩ := loop_invariant (fun l hp hg => (hbody l hp hg).1) hstart hl
  have hall : l.i.toNat = size.toNat := by
    have hge := of_decide_eq_false hover
    omega
  rw [hall] at htext
  exact ⟨l, hl, htext⟩

/-- From 256 bytes on the index is never past the end. -/
theorem printCbor_runs_on {size : BitVec 16} (hsize : 256 ≤ size.toNat) (data : Buffer)
    (fuel : Nat) : printCbor size fuel data = none :=
  loop_diverges (fun _ => True)
    (fun l _ => ⟨decide_eq_true (Nat.lt_of_lt_of_le l.i.toNat_lt hsize), trivial⟩) trivial fuel

theorem credentials_taken (deviceId deviceToken : CString) :
    (credentialsText deviceId deviceToken).take
        (BitVec.ofNat 16 (deviceId.strlen + deviceToken.strlen + 2)).toNat =
      credentialsText deviceId deviceToken := by
  have hid := deviceId.fits
  have htoken := deviceToken.fits
  refine List.take_of_length_le ?_
  simp only [credentialsText, CString.strlen, BitVec.toNat_ofNat, List.length_append,
    List.length_cons, List.length_nil]
  omega

theorem sendCbor_data (udp port : List Char) (deviceId deviceToken : CString) (data : Buffer)
    {size : BitVec 16} (hsize : size.toNat ≤ 255) :
    ∃ n, sendCbor udp port deviceId deviceToken data size 256 = some n ∧
      unhex n.data = some (frame deviceId deviceToken (data.slice size.toNat)) := by
  obtain ⟨l, hl, htext⟩ := printCbor_ends hsize data
  refine ⟨_, by rw [sendCbor, hl]; rfl, ?_⟩
  simp only [credentials_taken, nibbleToHexChar_eq, htext, ← List.flatMap_append,
    unhex_hexBytes]
  simp [credentialsText, frame]

namespace CborBuilder

variable {capacity : BitVec 16}

/-- A message that fits the builder is sent, behind the credentials, if and only if it has
at most 255 bytes. Otherwise `send` does not return, however long it runs. -/
theorem send_iff (udp port : List Char) (deviceId deviceToken : CString) {b : CborBuilder}
    (hb : b.Sound capacity) {entries : List Entry}
    (hfits : (encoding (messageItem entries)).length ≤ capacity.toNat) :
    ((∃ fuel n, (b.message entries).send udp port deviceId deviceToken fuel = some n ∧
        unhex n.data = some (frame deviceId deviceToken (encoding (messageItem entries)))) ↔
      (encoding (messageItem entries)).length ≤ 255) ∧
    (255 < (encoding (messageItem entries)).length →
      ∀ fuel, (b.message entries).send udp port deviceId deviceToken fuel = none) := by
  have hdata := message_data hb hfits
  have hoffset : (b.message entries).offset.toNat = (encoding (messageItem entries)).length := by
    rw [← data_length, hdata]
  have hnever : 255 < (encoding (messageItem entries)).length →
      ∀ fuel, (b.message entries).send udp port deviceId deviceToken fuel = none := by
    intro hlong fuel
    rw [send, sendCbor, printCbor_runs_on (by omega)]
    rfl
  refine ⟨⟨?_, ?_⟩, hnever⟩
  · intro ⟨fuel, n, hsend, _⟩
    by_contra hlong
    rw [hnever (by omega) fuel] at hsend
    cases hsend
  · intro hshort
    have hsize : (b.message entries).offset.toNat ≤ 255 := by omega
    obtain ⟨n, hsend, hunhex⟩ := sendCbor_data udp port deviceId deviceToken
      (b.message entries).buffer hsize
    rw [show (b.message entries).buffer.slice _ = (b.message entries).data from rfl, hdata]
      at hunhex
    exact ⟨256, n, hsend, hunhex⟩

end CborBuilder

theorem counter_is_sent :
    ((∃ fuel n, (Small.builder.message Small.counter).send [] [] .empty .empty fuel = some n ∧
        unhex n.data =
          some (frame .empty .empty (encoding (CborBuilder.messageItem Small.counter)))) ↔
      (encoding (CborBuilder.messageItem Small.counter)).length ≤ 255) ∧
    (255 < (encoding (CborBuilder.messageItem Small.counter)).length →
      ∀ fuel, (Small.builder.message Small.counter).send [] [] .empty .empty fuel = none) :=
  CborBuilder.send_iff [] [] .empty .empty
    (show Small.builder.Sound 256 from CborBuilder.init_sound (by decide) _) (by decide)

end NbIot
