import Mathlib.Data.List.Basic

/-!
# Numbers as text

Reading a run of digits in a radix up to 36, and the two spellings read back
by it: the shortest decimal spelling of a natural number, and a byte as two
upper-case hexadecimal digits. Reading is a fold, so it distributes over
concatenation, and a number spelled byte by byte is read byte by byte.
-/

namespace Lib.Digits

def digit (radix : Nat) (c : Char) : Option Nat :=
  let v :=
    if '0' ≤ c ∧ c ≤ '9' then c.toNat - 48
    else if 'a' ≤ c ∧ c ≤ 'z' then c.toNat - 87
    else if 'A' ≤ c ∧ c ≤ 'Z' then c.toNat - 55
    else radix
  if v < radix then some v else none

/-- The number a run of digits continues, having read `acc` so far. -/
def readFrom (radix : Nat) : Nat → List Char → Option Nat
  | acc, [] => some acc
  | acc, c :: cs =>
      match digit radix c with
      | some d => readFrom radix (acc * radix + d) cs
      | none => none

/-- The number a non-empty run of digits spells. -/
def read (radix : Nat) (cs : List Char) : Option Nat :=
  if cs = [] then none else readFrom radix 0 cs

def hexDigit (n : Nat) : Char :=
  if n < 10 then Char.ofNat (48 + n) else Char.ofNat (55 + n)

/-- A byte as two upper-case hexadecimal digits. -/
def hexByte (b : UInt8) : List Char :=
  [hexDigit (b.toNat / 16), hexDigit (b.toNat % 16)]

/-- The bytes a text of digit pairs spells. -/
def unhex : List Char → Option (List UInt8)
  | [] => some []
  | [_] => none
  | h :: l :: rest => do
      let h ← digit 16 h
      let l ← digit 16 l
      return UInt8.ofNat (h * 16 + l) :: (← unhex rest)

theorem readFrom_append (radix acc : Nat) (cs ds : List Char) :
    readFrom radix acc (cs ++ ds) =
      (readFrom radix acc cs).bind fun n => readFrom radix n ds := by
  induction cs generalizing acc with
  | nil => rfl
  | cons c cs ih =>
      rw [List.cons_append, readFrom, readFrom]
      cases digit radix c with
      | none => rfl
      | some d => exact ih _

theorem digit_digitChar {n : Nat} (h : n < 10) :
    digit 10 n.digitChar = some n := by
  revert n
  decide

theorem digit_hexDigit {n : Nat} (h : n < 16) :
    digit 16 (hexDigit n) = some n := by
  revert n
  decide

theorem readFrom_hexByte (acc : Nat) (b : UInt8) :
    readFrom 16 acc (hexByte b) = some (acc * 256 + b.toNat) := by
  have hb := b.toNat_lt
  unfold hexByte
  rw [readFrom, digit_hexDigit (by omega)]
  simp only []
  rw [readFrom, digit_hexDigit (by omega)]
  simp only [readFrom, Option.some.injEq]
  omega

theorem unhex_hexBytes (bs : List UInt8) :
    unhex (bs.flatMap hexByte) = some bs := by
  induction bs with
  | nil => rfl
  | cons b bs ih =>
      have hb := b.toNat_lt
      have hbyte : UInt8.ofNat (b.toNat / 16 * 16 + b.toNat % 16) = b := by
        rw [show b.toNat / 16 * 16 + b.toNat % 16 = b.toNat by omega]
        exact UInt8.ofNat_toNat
      rw [List.flatMap_cons, hexByte]
      simp only [List.cons_append, List.nil_append, unhex,
        digit_hexDigit (show b.toNat / 16 < 16 by omega),
        digit_hexDigit (show b.toNat % 16 < 16 by omega), ih,
        Option.bind_eq_bind, Option.bind_some, hbyte, Option.pure_def]

theorem readFrom_toDigits (n : Nat) :
    readFrom 10 0 (Nat.toDigits 10 n) = some n := by
  induction n using Nat.strongRecOn with
  | ind n ih =>
      by_cases h : n < 10
      · rw [Nat.toDigits_of_lt_base h, readFrom, digit_digitChar h]
        simp only [readFrom, Option.some.injEq]
        omega
      · rw [Nat.toDigits_of_base_le (by omega) (by omega), readFrom_append,
          ih (n / 10) (by omega), Option.bind_some, readFrom,
          digit_digitChar (by omega)]
        simp only [readFrom, Option.some.injEq]
        omega

@[simp] theorem read_toDigits (n : Nat) :
    read 10 (Nat.toDigits 10 n) = some n := by
  rw [read, if_neg Nat.toDigits_ne_nil]
  exact readFrom_toDigits n

theorem isDigit_toNat {c : Char} (h : c.isDigit = true) :
    48 ≤ c.toNat ∧ c.toNat ≤ 57 := by
  simpa [Char.isDigit, UInt32.le_iff_toNat_le] using h

theorem isDigit_of_mem {c : Char} {n : Nat} (h : c ∈ Nat.toDigits 10 n) :
    c.isDigit = true :=
  Nat.isDigit_of_mem_toDigits (by omega) (by omega) h

end Lib.Digits
