import Mathlib.Data.BitVec
import NbIot.Lib.Digits

/-!
# Machine words as bytes

A byte cut out of a signed word by an arithmetic shift and a mask is the same
byte the unsigned pattern has there, since the mask drops every copied sign
bit. Read back most significant byte first, the bytes are the pattern again;
written out in hexadecimal, they spell it.
-/

namespace Lib.Words

/-- `(byte)((v >> k) & 0xff)` on a signed word. -/
def byteAt {w : Nat} (v : BitVec w) (k : Nat) : UInt8 :=
  UInt8.ofBitVec ((v.sshiftRight k &&& 255#w).setWidth 8)

/-- The unsigned number the bytes spell, most significant first. -/
def bigEndian (bs : List UInt8) : Nat :=
  bs.foldl (fun acc b => acc * 256 + b.toNat) 0

theorem byteAt_toNat {w : Nat} (v : BitVec w) {k : Nat} (h : k + 8 ≤ w) :
    (byteAt v k).toNat = v.toNat / 2 ^ k % 256 := by
  have hbits : (v.sshiftRight k &&& 255#w).setWidth 8 = (v >>> k).setWidth 8 := by
    apply BitVec.eq_of_getLsbD_eq
    intro i hi
    have hmask : (255#w).getLsbD i = true := by
      rw [BitVec.getLsbD_ofNat, show 255 = 2 ^ 8 - 1 from rfl,
        Nat.testBit_two_pow_sub_one]
      simp [hi, show i < w by omega]
    have hshift : (v.sshiftRight k).getLsbD i = v.getLsbD (k + i) := by
      rw [BitVec.getLsbD_sshiftRight, if_pos (by omega)]
      simp [show ¬ w ≤ i by omega]
    simp [hmask, hshift, hi]
  have hmod : (byteAt v k).toNat = (v >>> k).toNat % 2 ^ 8 := by
    rw [byteAt, hbits]
    exact BitVec.toNat_setWidth 8 (v >>> k)
  rw [hmod, BitVec.toNat_ushiftRight, Nat.shiftRight_eq_div_pow]
  rfl

theorem bigEndian_two (v : BitVec 16) :
    bigEndian [byteAt v 8, byteAt v 0] = v.toNat := by
  have hv := v.isLt
  simp only [bigEndian, List.foldl, byteAt_toNat v (show 8 + 8 ≤ 16 by omega),
    byteAt_toNat v (show 0 + 8 ≤ 16 by omega)]
  omega

theorem bigEndian_three {v : BitVec 32} (h : v.toNat < 2 ^ 24) :
    bigEndian [byteAt v 16, byteAt v 8, byteAt v 0] = v.toNat := by
  simp only [bigEndian, List.foldl, byteAt_toNat v (show 16 + 8 ≤ 32 by omega),
    byteAt_toNat v (show 8 + 8 ≤ 32 by omega),
    byteAt_toNat v (show 0 + 8 ≤ 32 by omega)]
  omega

/-- The byte widened with its sign. -/
def signed (b : UInt8) : Int := b.toBitVec.toInt

theorem signed_eq (b : UInt8) : signed b = (b.toNat : Int).bmod 256 :=
  BitVec.toInt_eq_toNat_bmod b.toBitVec

/-- A word in the range of a signed byte survives the cut. -/
theorem signed_byteAt {v : BitVec 16} (hlo : -128 ≤ v.toInt)
    (hhi : v.toInt ≤ 127) : signed (byteAt v 0) = v.toInt := by
  have hv := v.isLt
  rw [signed_eq, byteAt_toNat v (show 0 + 8 ≤ 16 by omega)]
  rw [BitVec.toInt_eq_toNat_bmod] at hlo hhi ⊢
  simp only [Int.bmod_def] at *
  omega

theorem byteAt_of_toNat {w : Nat} {v : BitVec w} {k : Nat} {b : UInt8}
    (h : k + 8 ≤ w) (hb : v.toNat / 2 ^ k % 256 = b.toNat) : byteAt v k = b :=
  UInt8.toNat_inj.mp ((byteAt_toNat v h).trans hb)

/-- The low byte of a widened signed byte is that byte. -/
theorem byteAt_ofInt_signed (b : UInt8) :
    byteAt (BitVec.ofInt 16 (signed b)) 0 = b := by
  have hb := b.toNat_lt
  refine byteAt_of_toNat (by omega) ?_
  rw [BitVec.toNat_ofInt, signed_eq, Int.bmod_def]
  omega

/-! ## Numbers as bytes -/

/-- A number in `k` bytes, most significant first. -/
def spell : Nat → Nat → List UInt8
  | 0, _ => []
  | k + 1, n => UInt8.ofNat (n / 256 ^ k) :: spell k n

@[simp] theorem spell_length (k n : Nat) : (spell k n).length = k := by
  induction k with
  | zero => rfl
  | succ k ih => rw [spell, List.length_cons, ih]

theorem bigEndian_cons (b : UInt8) (bs : List UInt8) :
    bigEndian (b :: bs) = b.toNat * 256 ^ bs.length + bigEndian bs := by
  have hfold : ∀ (bs : List UInt8) (acc : Nat),
      bs.foldl (fun acc b => acc * 256 + b.toNat) acc =
        acc * 256 ^ bs.length + bs.foldl (fun acc b => acc * 256 + b.toNat) 0 := by
    intro bs
    induction bs with
    | nil => simp
    | cons c bs ih =>
        intro acc
        rw [List.foldl_cons, ih, List.foldl_cons, ih (0 * 256 + c.toNat), List.length_cons,
          Nat.pow_succ, Nat.zero_mul, Nat.zero_add, Nat.add_mul, Nat.add_assoc,
          Nat.mul_assoc, Nat.mul_comm 256]
  unfold bigEndian
  rw [List.foldl_cons, hfold, Nat.zero_mul, Nat.zero_add]

theorem bigEndian_lt (bs : List UInt8) : bigEndian bs < 256 ^ bs.length := by
  induction bs with
  | nil => exact Nat.one_pos
  | cons b bs ih =>
      have hb : b.toNat + 1 ≤ 256 := b.toNat_lt
      have hmul := Nat.mul_le_mul_right (256 ^ bs.length) hb
      rw [Nat.add_mul, Nat.one_mul] at hmul
      rw [bigEndian_cons, List.length_cons, Nat.pow_succ, Nat.mul_comm _ 256]
      omega

theorem bigEndian_spell (k n : Nat) : bigEndian (spell k n) = n % 256 ^ k := by
  induction k with
  | zero => rw [Nat.pow_zero, Nat.mod_one]; rfl
  | succ k ih =>
      have hbyte : (UInt8.ofNat (n / 256 ^ k)).toNat = n / 256 ^ k % 256 := UInt8.toNat_ofNat'
      rw [spell, bigEndian_cons, spell_length, ih, hbyte, Nat.pow_succ,
        Nat.mod_mul, Nat.mul_comm, Nat.add_comm]

/-- The first bytes, and those behind them. -/
def cut (k : Nat) (bs : List UInt8) : Option (List UInt8 × List UInt8) :=
  if k ≤ bs.length then some (bs.take k, bs.drop k) else none

theorem cut_append (bs rest : List UInt8) : cut bs.length (bs ++ rest) = some (bs, rest) := by
  rw [cut, if_pos (by rw [List.length_append]; omega), List.take_left, List.drop_left]

theorem cut_length {k : Nat} {bs s rest : List UInt8} (h : cut k bs = some (s, rest)) :
    s.length = k ∧ bs.length = k + rest.length := by
  unfold cut at h
  split at h
  · cases h
    rw [List.length_take, List.length_drop]
    omega
  · cases h

/-! ## The hexadecimal text -/

theorem readFrom_hexBytes (acc : Nat) (bs : List UInt8) :
    Lib.Digits.readFrom 16 acc (bs.flatMap Lib.Digits.hexByte) =
      some (bs.foldl (fun acc b => acc * 256 + b.toNat) acc) := by
  induction bs generalizing acc with
  | nil => rfl
  | cons b bs ih =>
      rw [List.flatMap_cons, Lib.Digits.readFrom_append,
        Lib.Digits.readFrom_hexByte, Option.bind_some, ih]
      rfl

theorem read_hexBytes {bs : List UInt8} (h : bs ≠ []) :
    Lib.Digits.read 16 (bs.flatMap Lib.Digits.hexByte) =
      some (bigEndian bs) := by
  obtain ⟨b, rest, rfl⟩ := List.exists_cons_of_ne_nil h
  rw [Lib.Digits.read, if_neg (by simp [Lib.Digits.hexByte])]
  exact readFrom_hexBytes 0 _

end Lib.Words
