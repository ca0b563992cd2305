import NbIot.Lib.Base64
import NbIot.Lib.Digits
import NbIot.Lib.Lines
import NbIot.Lib.Utf8

/-!
# The Java the agent is written in

Strings are lists of characters, byte arrays are lists of bytes, and a method
that can throw returns `Java`. Only the library methods the agent calls are
here, under their own names. The default charset is UTF-8.
-/

namespace NbIot

abbrev JString := List Char

/-- A `byte[]`; the sign of a Java byte only matters where it is widened. -/
abbrev Bytes := List UInt8

inductive JavaException where
  | arrayIndexOutOfBounds
  | nullPointer
  | numberFormat
  | illegalArgument
  deriving DecidableEq, Repr

abbrev Java := Except JavaException

/-- `xs[i]`. -/
def arrayGet {α : Type} (xs : List α) (i : Nat) : Java α :=
  match xs[i]? with
  | some x => .ok x
  | none => .error .arrayIndexOutOfBounds

/-- `Arrays.copyOfRange`, for bounds inside the array. -/
def copyOfRange (data : Bytes) (lo hi : Nat) : Bytes := (data.take hi).drop lo

/-- `new String(bytes)`. -/
def newString (bs : Bytes) : JString := Lib.Utf8.decode bs

/-- `s.getBytes()`. -/
def getBytes (s : JString) : Bytes := Lib.Utf8.encode s

/-- `s.split("\n")`. -/
def splitLines (s : JString) : List JString := Lib.split '\n' s

/-- Decimal text of an `int`, as string concatenation writes it. -/
def intToString (n : Int) : JString :=
  if n < 0 then '-' :: Nat.toDigits 10 n.natAbs else Nat.toDigits 10 n.natAbs

/-- `Integer.parseInt` past the sign, with the range check of a 32-bit int. -/
def parseMagnitude (negative : Bool) (digits : JString) (radix : Nat) :
    Java Int :=
  match Lib.Digits.read radix digits with
  | none => .error .numberFormat
  | some n =>
      let v : Int := if negative then -n else n
      if -2147483648 ≤ v ∧ v ≤ 2147483647 then .ok v else .error .numberFormat

/-- `Integer.parseInt(s, radix)`. -/
def parseInt (s : JString) (radix : Nat) : Java Int :=
  match s with
  | '-' :: digits => parseMagnitude true digits radix
  | '+' :: digits => parseMagnitude false digits radix
  | digits => parseMagnitude false digits radix

/-- `String.format("%02X", b)` of a boxed byte, negative ones included. -/
def formatHex (b : UInt8) : JString := Lib.Digits.hexByte b

def base64Decode (s : JString) : Java Bytes :=
  match Lib.Base64.decode s with
  | some bs => .ok bs
  | none => .error .illegalArgument

theorem parseInt_of_digits {digits : JString} {radix n : Nat}
    (hread : Lib.Digits.read radix digits = some n)
    (hsign : ∀ c ∈ digits, c ≠ '-' ∧ c ≠ '+') (hn : n ≤ 2147483647) :
    parseInt digits radix = .ok n := by
  have hmag : parseMagnitude false digits radix = .ok n := by
    unfold parseMagnitude
    rw [hread]
    simp only [Bool.false_eq_true, if_false]
    rw [if_pos (by omega)]
  unfold parseInt
  split
  · exact absurd rfl (hsign '-' List.mem_cons_self).1
  · exact absurd rfl (hsign '+' List.mem_cons_self).2
  · exact hmag

theorem parseInt_intToString {n : Nat} (h : n ≤ 2147483647) :
    parseInt (intToString n) 10 = .ok (n : Int) := by
  have htext : intToString (n : Int) = Nat.toDigits 10 n := by
    rw [intToString, if_neg (by omega), Int.natAbs_natCast]
  rw [htext]
  refine parseInt_of_digits (Lib.Digits.read_toDigits n) ?_ h
  intro c hc
  have hd := Lib.Digits.isDigit_toNat (Lib.Digits.isDigit_of_mem hc)
  constructor
  · rintro rfl
    exact absurd hd.1 (by decide)
  · rintro rfl
    exact absurd hd.1 (by decide)

theorem newline_not_mem_intToString (n : Int) : '\n' ∉ intToString n := by
  have hdigits : '\n' ∉ Nat.toDigits 10 n.natAbs := by
    intro h
    have hd := Lib.Digits.isDigit_toNat (Lib.Digits.isDigit_of_mem h)
    exact absurd hd.1 (by decide)
  unfold intToString
  split
  · intro h
    rcases List.mem_cons.mp h with heq | htail
    · exact absurd heq (by decide)
    · exact hdigits htail
  · exact hdigits

theorem intToString_ne_nil (n : Int) : intToString n ≠ [] := by
  unfold intToString
  split
  · exact List.cons_ne_nil _ _
  · exact Nat.toDigits_ne_nil

@[simp] theorem base64Decode_encode (bs : Bytes) :
    base64Decode (Lib.Base64.encode bs) = .ok bs := by
  rw [base64Decode, Lib.Base64.decode_encode]

/-! ## The line feed across the charset -/

theorem newString_eq_nil {bs : Bytes} : newString bs = [] ↔ bs = [] :=
  Lib.Utf8.decode_eq_nil

theorem newline_not_mem_newString {bs : Bytes} (h : (10 : UInt8) ∉ bs) :
    '\n' ∉ newString bs := fun hmem =>
  h (Lib.Utf8.mem_of_mem_decode (c := '\n') (by decide) hmem)

theorem newline_not_mem_getBytes {s : JString} (h : '\n' ∉ s) :
    (10 : UInt8) ∉ getBytes s := fun hmem =>
  h ((Lib.Utf8.mem_encode (c := '\n') (by decide)).mp hmem)

@[simp] theorem newString_getBytes (s : JString) :
    newString (getBytes s) = s := Lib.Utf8.decode_encode s

theorem getBytes_eq_nil {s : JString} : getBytes s = [] ↔ s = [] :=
  Lib.Utf8.encode_eq_nil

end NbIot
