import NbIot.Lib.Words
import NbIot.Node.PayloadBuilder

/-!
# Payloads of a `PayloadBuilder`

A payload holds the values that were accepted, in their order and nothing else, and a
reader that knows their kinds reads them back (`payload_reads_back`). Every value is
accepted if and only if all of them fit together. Sending is safe for 51 bytes, and a
builder of the default size holds more (`send_inside_iff`).
-/

namespace NbIot

open Lib (Buffer)
open Lib.Words (bigEndian bigEndian_spell cut cut_append cut_length spell spell_length)

/-! ## Words in memory -/

theorem inMemory_eq (k : Nat) {w : Nat} (value : BitVec w) :
    inMemory k value = (spell k value.toNat).reverse := by
  induction k with
  | zero => rfl
  | succ k ih =>
      have hbyte : UInt8.ofBitVec ((value >>> (8 * k)).setWidth 8) =
          UInt8.ofNat (value.toNat / 256 ^ k) := by
        refine UInt8.toNat_inj.mp ?_
        have hshift : (UInt8.ofBitVec ((value >>> (8 * k)).setWidth 8)).toNat =
            (value >>> (8 * k)).toNat % 2 ^ 8 := BitVec.toNat_setWidth 8 _
        rw [hshift, BitVec.toNat_ushiftRight, Nat.shiftRight_eq_div_pow, Nat.pow_mul]
        exact UInt8.toNat_ofNat'.symm
      rw [inMemory, List.range_succ, List.map_append, List.map_singleton, hbyte, spell,
        List.reverse_cons, ← ih]
      rfl

@[simp] theorem inMemory_length (k : Nat) {w : Nat} (value : BitVec w) :
    (inMemory k value).length = k := by
  rw [inMemory_eq, List.length_reverse, spell_length]

/-- A word of `k` bytes, the lowest first. -/
def readWord (k w : Nat) (bs : List UInt8) : Option (BitVec w × List UInt8) :=
  (cut k bs).map fun (word, rest) => (.ofNat w (bigEndian word.reverse), rest)

theorem readWord_inMemory {k w : Nat} (hw : w = 8 * k) (value : BitVec w) (rest : List UInt8) :
    readWord k w (inMemory k value ++ rest) = some (value, rest) := by
  have hcut := cut_append (inMemory k value) rest
  have hpow : 256 ^ k = 2 ^ w := by rw [hw, Nat.pow_mul]
  have hvalue : value.toNat % 256 ^ k = value.toNat := by
    rw [hpow]
    exact Nat.mod_eq_of_lt value.isLt
  rw [inMemory_length] at hcut
  rw [readWord, hcut, Option.map_some, inMemory_eq]
  simp only []
  rw [List.reverse_reverse, bigEndian_spell, hvalue, BitVec.ofNat_toNat, BitVec.setWidth_eq]

/-! ## Values -/

/-- What a value is in memory. -/
def Value.bytes : Value → List UInt8
  | boolean value => [value]
  | integer value => inMemory 2 value
  | number value => inMemory 4 value
  | gps latitude longitude altitude =>
      inMemory 4 latitude ++ (inMemory 4 longitude ++ inMemory 4 altitude)
  | accelerometer x y z => inMemory 4 x ++ (inMemory 4 y ++ inMemory 4 z)

theorem Value.add_eq (value : Value) : value.add = PayloadBuilder.append value.bytes := by
  cases value <;> rfl

/-- What a reader has to know of a value. -/
inductive Kind where
  | boolean
  | integer
  | number
  | gps
  | accelerometer

def Value.kind : Value → Kind
  | boolean _ => .boolean
  | integer _ => .integer
  | number _ => .number
  | gps _ _ _ => .gps
  | accelerometer _ _ _ => .accelerometer

def Kind.read : Kind → List UInt8 → Option (Value × List UInt8)
  | boolean, [] => none
  | boolean, value :: bs => some (.boolean value, bs)
  | integer, bs => (readWord 2 16 bs).map fun (value, bs) => (.integer value, bs)
  | number, bs => (readWord 4 32 bs).map fun (value, bs) => (.number value, bs)
  | gps, bs => do
      let (latitude, bs) ← readWord 4 32 bs
      let (longitude, bs) ← readWord 4 32 bs
      let (altitude, bs) ← readWord 4 32 bs
      return (.gps latitude longitude altitude, bs)
  | accelerometer, bs => do
      let (x, bs) ← readWord 4 32 bs
      let (y, bs) ← readWord 4 32 bs
      let (z, bs) ← readWord 4 32 bs
      return (.accelerometer x y z, bs)

/-- The values of a payload of these kinds. -/
def readPayload : List Kind → List UInt8 → Option (List Value)
  | [], bs => if bs = [] then some [] else none
  | kind :: kinds, bs =>
      match kind.read bs with
      | none => none
      | some (value, bs) => (readPayload kinds bs).map (value :: ·)

theorem read_bytes (value : Value) (rest : List UInt8) :
    value.kind.read (value.bytes ++ rest) = some (value, rest) := by
  have h16 (word : BitVec 16) := readWord_inMemory (k := 2) rfl word
  have h32 (word : BitVec 32) := readWord_inMemory (k := 4) rfl word
  cases value with
  | boolean value => rfl
  | integer value =>
      rw [Value.kind, Value.bytes, Kind.read, h16]
      rfl
  | number value =>
      rw [Value.kind, Value.bytes, Kind.read, h32]
      rfl
  | gps latitude longitude altitude =>
      rw [Value.kind, Value.bytes, Kind.read, List.append_assoc, List.append_assoc, h32]
      simp only [Option.bind_eq_bind, Option.bind_some, h32, Option.pure_def]
  | accelerometer x y z =>
      rw [Value.kind, Value.bytes, Kind.read, List.append_assoc, List.append_assoc, h32]
      simp only [Option.bind_eq_bind, Option.bind_some, h32, Option.pure_def]

theorem readPayload_bytes (values : List Value) :
    readPayload (values.map Value.kind) (values.flatMap Value.bytes) = some values := by
  induction values with
  | nil => rfl
  | cons value values ih =>
      rw [List.map_cons, List.flatMap_cons, readPayload, read_bytes]
      simp only []
      rw [ih]
      rfl

/-! ## Payloads -/

/-- The values that there is room for, one after the other. -/
def accepted : Nat → List Value → List Value
  | _, [] => []
  | room, value :: values =>
      if value.bytes.length ≤ room then
        value :: accepted (room - value.bytes.length) values
      else accepted room values

theorem accepted_length_le (room : Nat) (values : List Value) :
    (accepted room values).length ≤ values.length := by
  induction values generalizing room with
  | nil => exact Nat.le_refl _
  | cons value values ih =>
      rw [accepted]
      split
      · exact Nat.succ_le_succ (ih _)
      · exact Nat.le_succ_of_le (ih _)

theorem accepted_eq_iff (room : Nat) (values : List Value) :
    accepted room values = values ↔ (values.flatMap Value.bytes).length ≤ room := by
  induction values generalizing room with
  | nil => exact iff_of_true rfl (Nat.zero_le _)
  | cons value values ih =>
      rw [accepted, List.flatMap_cons, List.length_append]
      split
      · rw [List.cons.injEq, and_iff_right rfl, ih]
        omega
      · refine iff_of_false (fun heq => ?_) (by omega)
        have hle := accepted_length_le room values
        rw [heq, List.length_cons] at hle
        omega

namespace PayloadBuilder

/-- The buffers are as large as they should be, and nothing was written outside. -/
structure Sound (maxsize : UInt8) (p : PayloadBuilder) : Prop where
  maxsize_eq : p.maxsize = maxsize
  size_eq : p.buffer.size = maxsize.toNat
  cursor_le : p.cursor.toNat ≤ maxsize.toNat
  inside : p.buffer.Inside
  send_size : p.sendBuffer.size = 51
  send_inside : p.sendBuffer.Inside

variable {maxsize : UInt8}

theorem data_length (p : PayloadBuilder) : p.data.length = p.cursor.toNat := by
  rw [data, Buffer.slice, List.length_map, List.length_range]

/-- A value is added as a whole and the answer is the size, or nothing changes and the
answer is zero. -/
theorem append_spec {p : PayloadBuilder} (hp : p.Sound maxsize) (bs : List UInt8) :
    if p.data.length + bs.length ≤ maxsize.toNat then
      (append bs p).2.Sound maxsize ∧ (append bs p).2.data = p.data ++ bs ∧
        (append bs p).1.toNat = (p.data ++ bs).length
    else append bs p = (0, p) := by
  have hmax := maxsize.toNat_lt
  rw [data_length]
  unfold append
  rw [hp.maxsize_eq]
  split
  · rename_i hroom
    have hnext : (p.cursor + UInt8.ofNat bs.length).toNat = p.cursor.toNat + bs.length := by
      have hbyte : (UInt8.ofNat bs.length).toNat = bs.length % 256 := UInt8.toNat_ofNat'
      rw [UInt8.toNat_add, hbyte]
      omega
    rw [if_neg (by omega)]
    refine ⟨⟨rfl, ?_, ?_, ?_, hp.send_size, hp.send_inside⟩, ?_, ?_⟩
    · exact (Buffer.store_size ..).trans hp.size_eq
    · show (p.cursor + UInt8.ofNat bs.length).toNat ≤ _
      omega
    · exact Buffer.store_inside hp.inside (by rw [hp.size_eq]; exact hroom)
    · show (p.buffer.store p.cursor.toNat bs).slice (p.cursor + UInt8.ofNat bs.length).toNat = _
      rw [hnext]
      exact p.buffer.slice_store_from p.cursor.toNat bs
    · show (p.cursor + UInt8.ofNat bs.length).toNat = _
      rw [hnext, List.length_append, data_length]
  · rename_i hfull
    rw [if_pos (by omega)]

theorem fold_accepted {p : PayloadBuilder} (hp : p.Sound maxsize) (values : List Value) :
    (values.foldl (fun p value => (value.add p).2) p).Sound maxsize ∧
      (values.foldl (fun p value => (value.add p).2) p).data =
        p.data ++ (accepted (maxsize.toNat - p.data.length) values).flatMap Value.bytes := by
  induction values generalizing p with
  | nil => exact ⟨hp, (List.append_nil _).symm⟩
  | cons value values ih =>
      have hle : p.data.length ≤ maxsize.toNat := by
        rw [data_length]
        exact hp.cursor_le
      have hspec := append_spec hp value.bytes
      rw [List.foldl_cons, Value.add_eq, accepted]
      split at hspec
      · rename_i hroom
        obtain ⟨hsound, hdata, _⟩ := hspec
        obtain ⟨hsound', hdata'⟩ := ih hsound
        refine ⟨hsound', hdata'.trans ?_⟩
        rw [hdata, List.length_append, if_pos (by omega), List.flatMap_cons, List.append_assoc,
          Nat.sub_add_eq]
      · rename_i hfull
        rw [hspec, if_neg (by omega)]
        exact ih hp

theorem payload_spec {p : PayloadBuilder} (hp : p.Sound maxsize) (values : List Value) :
    (p.payload values).Sound maxsize ∧
      (p.payload values).data = (accepted maxsize.toNat values).flatMap Value.bytes := by
  have hreset : p.reset.Sound maxsize := { hp with cursor_le := Nat.zero_le _ }
  exact fold_accepted hreset values

/-- The payload is the values that were accepted, and all of them were if and only if
they fit together. -/
theorem payload_reads_back {p : PayloadBuilder} (hp : p.Sound maxsize)
    (values : List Value) :
    (p.payload values).Sound maxsize ∧
      readPayload ((accepted maxsize.toNat values).map Value.kind) (p.payload values).data =
        some (accepted maxsize.toNat values) ∧
      (accepted maxsize.toNat values = values ↔
        (values.flatMap Value.bytes).length ≤ maxsize.toNat) := by
  obtain ⟨hsound, hdata⟩ := payload_spec hp values
  rw [hdata]
  exact ⟨hsound, readPayload_bytes _, accepted_eq_iff ..⟩

/-! ## Sending -/

theorem store_inside_iff {b : Buffer} (hb : b.Inside) (vs : List UInt8) :
    (b.store 0 vs).Inside ↔ vs.length ≤ b.size := by
  refine ⟨fun h => ?_, fun h => Buffer.store_inside hb (by rw [Nat.zero_add]; exact h)⟩
  by_contra hlong
  have hlast := h.2 b.size (by
    rw [Buffer.store_writes, List.mem_append, List.mem_range'_1]
    exact Or.inr ⟨Nat.zero_le _, by omega⟩)
  rw [Buffer.store_size] at hlast
  omega

/-- What is sent is the payload behind the credentials; the copy stays in its array if
and only if the payload has at most 51 bytes. -/
theorem send_inside_iff (udp port : List Char) (deviceId deviceToken : CString)
    {p : PayloadBuilder} (hp : p.Sound maxsize) (values : List Value) :
    let payload := (accepted maxsize.toNat values).flatMap Value.bytes
    let sent := (p.payload values).send udp port deviceId deviceToken
    Lib.Digits.unhex sent.1.data = some (frame deviceId deviceToken payload) ∧
      (sent.2.sendBuffer.Inside ↔ payload.length ≤ 51) := by
  obtain ⟨hsound, hdata⟩ := payload_spec hp values
  have hcursor : (p.payload values).cursor.toNat = (p.payload values).data.length :=
    (data_length _).symm
  have hslice := Buffer.slice_store (p.payload values).sendBuffer (p.payload values).data
  have hinside := store_inside_iff hsound.send_inside (p.payload values).data
  rw [hsound.send_size] at hinside
  simp only [send, ← hdata]
  refine ⟨?_, hinside⟩
  rw [hcursor, hslice]
  exact sendPayload_data udp port deviceId deviceToken hcursor

end PayloadBuilder

/-- A builder of the default size, and thirteen numbers. -/
def Small.payloadBuilder : PayloadBuilder := .init 60 (fun _ => 0) fun _ => 0

theorem Small.payloadBuilder_sound : Small.payloadBuilder.Sound 60 := by
  refine ⟨rfl, rfl, Nat.zero_le _, ?_, rfl, ?_⟩
  all_goals exact ⟨fun _ h => absurd h List.not_mem_nil, fun _ h => absurd h List.not_mem_nil⟩

theorem numbers_read_back :
    let values := List.replicate 13 (Value.number 0)
    (Small.payloadBuilder.payload values).Sound 60 ∧
      readPayload ((accepted 60 values).map Value.kind)
          (Small.payloadBuilder.payload values).data = some (accepted 60 values) ∧
      (accepted 60 values = values ↔ (values.flatMap Value.bytes).length ≤ 60) :=
  PayloadBuilder.payload_reads_back Small.payloadBuilder_sound _

theorem numbers_overrun :
    let values := List.replicate 13 (Value.number 0)
    let payload := (accepted 60 values).flatMap Value.bytes
    let sent := (Small.payloadBuilder.payload values).send [] [] .empty .empty
    Lib.Digits.unhex sent.1.data = some (frame .empty .empty payload) ∧
      (sent.2.sendBuffer.Inside ↔ payload.length ≤ 51) :=
  PayloadBuilder.send_inside_iff [] [] .empty .empty Small.payloadBuilder_sound _

end NbIot
