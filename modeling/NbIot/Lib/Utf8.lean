import Mathlib.Data.List.Basic

/-!
# UTF-8 with replacement

The decoder of a virtual machine that never fails: a well-formed sequence is
its character, and every malformed stretch is one replacement character. Which
stretch counts as one is `malformedLength`; the lemmas below do not depend on
it, and that is the point. What a protocol needs from the decoder is that it
undoes the encoder, that it loses no text altogether, and that it never makes
up an ASCII character: a line feed in the output was a line feed in the input.
-/

namespace Lib.Utf8

def encode (s : List Char) : List UInt8 := s.flatMap String.utf8EncodeChar

/-- The character the bytes start with, when they start with a well-formed
sequence. No sequence is longer than four bytes. -/
def first (bs : List UInt8) : Option Char :=
  (bs.take 4).toByteArray.utf8DecodeChar? 0

def continuation (b : UInt8) : Bool := 0x80 ≤ b && b ≤ 0xBF

/-- The second byte cannot follow the first: no continuation byte, an
overlong form, or a code point above the last one. -/
def badSecond (b₁ b₂ : UInt8) : Bool :=
  !continuation b₂ || (b₁ == 0xE0 && b₂ < 0xA0) || (b₁ == 0xF0 && b₂ < 0x90)
    || (b₁ == 0xF4 && 0x90 ≤ b₂)

/-- How many bytes of a malformed start one replacement character stands for. -/
def malformedLength : List UInt8 → Nat
  | b₁ :: b₂ :: rest =>
      if 0xE0 ≤ b₁ && b₁ ≤ 0xF4 && !badSecond b₁ b₂ then
        match rest with
        | b₃ :: _ => if continuation b₃ then 3 else 2
        | [] => 2
      else 1
  | _ => 1

def replacement : Char := '\uFFFD'

/-- Decoding with `skip` bytes of the current sequence still to pass over. -/
def decodeFrom : Nat → List UInt8 → List Char
  | _, [] => []
  | skip + 1, _ :: bs => decodeFrom skip bs
  | 0, b :: bs =>
      match first (b :: bs) with
      | some c => c :: decodeFrom (c.utf8Size - 1) bs
      | none => replacement :: decodeFrom (malformedLength (b :: bs) - 1) bs

def decode (bs : List UInt8) : List Char := decodeFrom 0 bs

theorem decodeFrom_drop (n : Nat) (bs : List UInt8) :
    decodeFrom n bs = decode (bs.drop n) := by
  induction bs generalizing n with
  | nil => cases n <;> rfl
  | cons b bs ih =>
      cases n with
      | zero => rfl
      | succ n => exact ih n

/-! ## The encoder -/

@[simp] theorem encode_nil : encode [] = [] := rfl

@[simp] theorem encode_cons (c : Char) (s : List Char) :
    encode (c :: s) = String.utf8EncodeChar c ++ encode s := rfl

@[simp] theorem encode_append (s t : List Char) :
    encode (s ++ t) = encode s ++ encode t := List.flatMap_append

theorem encodeChar_length_pos (c : Char) :
    0 < (String.utf8EncodeChar c).length := by
  rw [String.length_utf8EncodeChar]
  exact c.utf8Size_pos

theorem encodeChar_length_le (c : Char) :
    (String.utf8EncodeChar c).length ≤ 4 := by
  rw [String.length_utf8EncodeChar]
  exact c.utf8Size_le_four

theorem encode_eq_nil {s : List Char} : encode s = [] ↔ s = [] := by
  cases s with
  | nil => simp
  | cons c s =>
      have := encodeChar_length_pos c
      constructor
      · intro h
        rw [encode_cons, List.append_eq_nil_iff] at h
        rw [h.1] at this
        exact absurd this (Nat.lt_irrefl 0)
      · intro h
        cases h

/-- An ASCII byte of an encoding is the whole encoding. -/
theorem encodeChar_ascii {c : Char} {b : UInt8}
    (hb : b ∈ String.utf8EncodeChar c) (hlt : b.toNat < 128) :
    c.toNat = b.toNat := by
  unfold String.utf8EncodeChar at hb
  simp only [] at hb
  have hc : c.val.toNat = c.toNat := rfl
  rw [hc] at hb
  repeat' split at hb
  all_goals
    simp only [List.mem_cons, List.not_mem_nil, or_false] at hb
    rcases hb with rfl | rfl | rfl | rfl
  all_goals
    simp only [UInt8.toNat_ofNat'] at hlt ⊢
    omega

theorem encodeChar_of_lt {c : Char} (h : c.toNat < 128) :
    String.utf8EncodeChar c = [UInt8.ofNat c.toNat] := by
  have hc : c.val.toNat = c.toNat := rfl
  unfold String.utf8EncodeChar
  simp only []
  rw [hc, if_pos (by omega)]

/-- An ASCII character occurs in the encoding exactly when it occurs in the
text. -/
theorem mem_encode {c : Char} {s : List Char} (hc : c.toNat < 128) :
    UInt8.ofNat c.toNat ∈ encode s ↔ c ∈ s := by
  have hval : (UInt8.ofNat c.toNat).toNat = c.toNat := by
    rw [UInt8.toNat_ofNat']
    omega
  constructor
  · intro h
    obtain ⟨d, hd, hmem⟩ := List.mem_flatMap.mp h
    have := encodeChar_ascii hmem (by omega)
    rw [hval] at this
    rwa [← Char.toNat_inj.mp this]
  · intro h
    refine List.mem_flatMap.mpr ⟨c, h, ?_⟩
    rw [encodeChar_of_lt hc]
    exact List.mem_singleton_self _

/-! ## The decoder undoes it -/

theorem first_encodeChar (c : Char) (bs : List UInt8) :
    first (String.utf8EncodeChar c ++ bs) = some c := by
  unfold first
  rw [List.take_append, List.take_of_length_le (encodeChar_length_le c),
    List.toByteArray_append]
  exact ByteArray.utf8DecodeChar?_utf8EncodeChar_append

/-- A decoded first character really is what the bytes start with. -/
theorem first_some {bs : List UInt8} {c : Char} (h : first bs = some c) :
    ∃ rest, bs = String.utf8EncodeChar c ++ rest := by
  obtain ⟨l, hl⟩ := ByteArray.exists_of_utf8DecodeChar?_eq_some h
  have htake : bs.take 4 = String.utf8EncodeChar c ++ l.data.toList := by
    have := congrArg (fun b : ByteArray => b.data.toList) hl
    simpa using this
  refine ⟨l.data.toList ++ bs.drop 4, ?_⟩
  rw [← List.append_assoc, ← htake, List.take_append_drop]

theorem decode_encodeChar (c : Char) (bs : List UInt8) :
    decode (String.utf8EncodeChar c ++ bs) = c :: decode bs := by
  have hlen := String.length_utf8EncodeChar c
  have hfirst := first_encodeChar c bs
  generalize henc : String.utf8EncodeChar c = enc at hlen hfirst
  cases enc with
  | nil =>
      have := c.utf8Size_pos
      rw [List.length_nil] at hlen
      omega
  | cons b enc =>
      rw [List.length_cons] at hlen
      rw [List.cons_append] at hfirst ⊢
      rw [decode, decodeFrom, hfirst]
      simp only []
      rw [decodeFrom_drop, ← hlen, Nat.add_sub_cancel, List.drop_left]

theorem decode_encode_append (s : List Char) (bs : List UInt8) :
    decode (encode s ++ bs) = s ++ decode bs := by
  induction s with
  | nil => rfl
  | cons c s ih =>
      rw [encode_cons, List.append_assoc, decode_encodeChar, ih]
      rfl

@[simp] theorem decode_encode (s : List Char) : decode (encode s) = s := by
  have := decode_encode_append s []
  rwa [List.append_nil, show decode [] = [] from rfl, List.append_nil] at this

/-! ## What any decoding keeps -/

@[simp] theorem decode_nil : decode [] = [] := rfl

theorem decode_eq_nil {bs : List UInt8} : decode bs = [] ↔ bs = [] := by
  cases bs with
  | nil => simp
  | cons b bs =>
      rw [decode, decodeFrom]
      split <;> simp

theorem mem_of_mem_decodeFrom {c : Char} (hc : c.toNat < 128) {n : Nat}
    {bs : List UInt8} (h : c ∈ decodeFrom n bs) : UInt8.ofNat c.toNat ∈ bs := by
  induction bs generalizing n with
  | nil =>
      rw [decodeFrom] at h
      cases h
  | cons b bs ih =>
      cases n with
      | succ n => exact List.mem_cons_of_mem _ (ih h)
      | zero =>
          rw [decodeFrom] at h
          split at h
          · rename_i d hd
            rcases List.mem_cons.mp h with rfl | htail
            · obtain ⟨rest, hrest⟩ := first_some hd
              rw [hrest, encodeChar_of_lt hc]
              exact List.mem_append_left _ (List.mem_singleton_self _)
            · exact List.mem_cons_of_mem _ (ih htail)
          · rcases List.mem_cons.mp h with rfl | htail
            · exact absurd hc (by decide)
            · exact List.mem_cons_of_mem _ (ih htail)

/-- No ASCII character appears that was not a byte of the input. -/
theorem mem_of_mem_decode {c : Char} (hc : c.toNat < 128) {bs : List UInt8}
    (h : c ∈ decode bs) : UInt8.ofNat c.toNat ∈ bs :=
  mem_of_mem_decodeFrom hc h

end Lib.Utf8
