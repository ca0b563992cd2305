import Mathlib.Data.List.TakeWhile
import NbIot.Lib.Digits

/-!
# `sscanf`

A format is a list of directives, and scanning a line with it gives the values
the conversions store, in order. The return value of `sscanf` is how many there
are, and a match that breaks off keeps those before it. The lemmas follow a
line that was printed with the format: one for each directive, with the rest of
the line in place, since a conversion takes as much as it can.
-/

namespace Lib.Scan

inductive Directive where
  | space
  | lit (c : UInt8)
  | int
  | word
  | notIn (stop : UInt8)
  deriving DecidableEq, Repr

inductive Value where
  | int (n : Int)
  | text (s : List UInt8)
  deriving DecidableEq, Repr

def byte (c : Char) : UInt8 := UInt8.ofNat c.toNat

def bytes (s : String) : List UInt8 := s.toList.map byte

/-- The directives of a format string, of those conversions. -/
def parse : List Char → List Directive
  | [] => []
  | '%' :: 'd' :: rest => .int :: parse rest
  | '%' :: 's' :: rest => .word :: parse rest
  | '%' :: '[' :: '^' :: c :: ']' :: rest => .notIn (byte c) :: parse rest
  | ' ' :: rest => .space :: parse rest
  | c :: rest => .lit (byte c) :: parse rest

def format (s : String) : List Directive := parse s.toList

def isSpace (b : UInt8) : Bool := b = 32 || (9 ≤ b && b ≤ 13)

def isDigit (b : UInt8) : Bool := 48 ≤ b && b ≤ 57

def notSpace (b : UInt8) : Bool := !isSpace b

/-- The number that a run of digits spells. -/
def number (digits : List UInt8) : Option Nat :=
  Lib.Digits.read 10 (digits.map fun b => Char.ofNat b.toNat)

/-- An optional sign. -/
def sign : List UInt8 → Bool × List UInt8
  | 45 :: s => (true, s)
  | 43 :: s => (false, s)
  | s => (false, s)

/-- The values stored by `sscanf(s, fmt, …)`. -/
def scan : List Directive → List UInt8 → List Value
  | [], _ => []
  | .space :: fmt, s => scan fmt (s.dropWhile isSpace)
  | .lit c :: fmt, s =>
      match s with
      | b :: s => if b = c then scan fmt s else []
      | [] => []
  | .int :: fmt, s =>
      let (negative, s) := sign (s.dropWhile isSpace)
      match number (s.takeWhile isDigit) with
      | some n =>
          .int (if negative then -(n : Int) else n) :: scan fmt (s.dropWhile isDigit)
      | none => []
  | .word :: fmt, s =>
      let s := s.dropWhile isSpace
      if s.takeWhile notSpace = [] then []
      else .text (s.takeWhile notSpace) :: scan fmt (s.dropWhile notSpace)
  | .notIn stop :: fmt, s =>
      if s.takeWhile (· ≠ stop) = [] then []
      else .text (s.takeWhile (· ≠ stop)) :: scan fmt (s.dropWhile (· ≠ stop))

/-- The conversion at an index, when it was a number. -/
def intAt (values : List Value) (i : Nat) : Option Int :=
  match values[i]? with
  | some (.int n) => some n
  | _ => none

def textAt (values : List Value) (i : Nat) : Option (List UInt8) :=
  match values[i]? with
  | some (.text s) => some s
  | _ => none

/-! ## Scanning what was printed -/

/-- A conversion that takes bytes with the property stops here. -/
def Stops (p : UInt8 → Bool) (rest : List UInt8) : Prop := ∀ b ∈ rest.head?, p b = false

theorem takeWhile_stops {p : UInt8 → Bool} {w rest : List UInt8}
    (hw : ∀ b ∈ w, p b = true) (hrest : Stops p rest) :
    (w ++ rest).takeWhile p = w ∧ (w ++ rest).dropWhile p = rest := by
  have hnil : rest.takeWhile p = [] ∧ rest.dropWhile p = rest := by
    cases rest with
    | nil => exact ⟨rfl, rfl⟩
    | cons b rest =>
        have hb := hrest b rfl
        simp [hb]
  rw [List.takeWhile_append_of_pos hw, List.dropWhile_append_of_pos hw, hnil.1, hnil.2,
    List.append_nil]
  exact ⟨rfl, rfl⟩

theorem scan_space {fmt : List Directive} {rest : List UInt8} (h : Stops isSpace rest) :
    scan (.space :: fmt) (32 :: rest) = scan fmt rest := by
  have hblank : ∀ b ∈ [(32 : UInt8)], isSpace b = true := by
    intro b hb
    rw [List.mem_singleton.mp hb]
    rfl
  have hone := (takeWhile_stops hblank h).2
  rw [scan]
  exact congrArg (scan fmt) hone

theorem scan_lit {fmt : List Directive} {c : UInt8} {rest : List UInt8} :
    scan (.lit c :: fmt) (c :: rest) = scan fmt rest := if_pos rfl

theorem scan_lit_of_ne {fmt : List Directive} {b c : UInt8} {rest : List UInt8}
    (h : b ≠ c) : scan (.lit c :: fmt) (b :: rest) = [] := if_neg h

theorem scan_lits {fmt : List Directive} (w rest : List UInt8) :
    scan (w.map .lit ++ fmt) (w ++ rest) = scan fmt rest := by
  induction w with
  | nil => rfl
  | cons c w ih =>
      rw [List.map_cons, List.cons_append, List.cons_append, scan_lit]
      exact ih

/-- A format that starts with a text stores nothing from a line that does not. -/
theorem scan_lits_of_not_prefix {fmt : List Directive} {w s : List UInt8}
    (h : ¬ w <+: s) : scan (w.map .lit ++ fmt) s = [] := by
  induction w generalizing s with
  | nil => exact absurd List.nil_prefix h
  | cons c w ih =>
      cases s with
      | nil => rfl
      | cons b s =>
          by_cases hbc : b = c
          · rw [List.map_cons, List.cons_append, hbc, scan_lit]
            exact ih fun hpre => h (hbc ▸ List.cons_prefix_cons.mpr ⟨rfl, hpre⟩)
          · exact scan_lit_of_ne hbc

/-- The decimal text of a number. -/
def decimal (n : Nat) : List UInt8 := (Nat.toDigits 10 n).map byte

theorem byte_toNat {c : Char} (h : c.isDigit = true) : (byte c).toNat = c.toNat := by
  have hc := Lib.Digits.isDigit_toNat h
  rw [byte, UInt8.toNat_ofNat']
  omega

theorem isDigit_decimal {n : Nat} : ∀ b ∈ decimal n, isDigit b = true := by
  intro b hb
  obtain ⟨c, hc, rfl⟩ := List.mem_map.mp hb
  have hdigit := Lib.Digits.isDigit_of_mem hc
  have hrange := Lib.Digits.isDigit_toNat hdigit
  simp only [isDigit, Bool.and_eq_true, decide_eq_true_eq, UInt8.le_iff_toNat_le,
    byte_toNat hdigit]
  exact hrange

theorem decimal_ne_nil (n : Nat) : decimal n ≠ [] := by
  simp [decimal, Nat.toDigits_ne_nil]

theorem number_decimal (n : Nat) : number (decimal n) = some n := by
  have hback : (decimal n).map (fun b => Char.ofNat b.toNat) = Nat.toDigits 10 n := by
    rw [decimal, List.map_map]
    conv_rhs => rw [← List.map_id (Nat.toDigits 10 n)]
    refine List.map_congr_left fun c hc => ?_
    rw [Function.comp_apply, byte_toNat (Lib.Digits.isDigit_of_mem hc), Char.ofNat_toNat]
    rfl
  rw [number, hback]
  exact Lib.Digits.read_toDigits n

/-- A digit is neither a blank nor a sign. -/
theorem sign_digits {b : UInt8} {s : List UInt8} (h : isDigit b = true) :
    (b :: s).dropWhile isSpace = b :: s ∧ sign (b :: s) = (false, b :: s) := by
  have hb : 48 ≤ b.toNat ∧ b.toNat ≤ 57 := by
    simpa [isDigit, UInt8.le_iff_toNat_le] using h
  have hspace : isSpace b = false := by
    simp only [isSpace, Bool.or_eq_false_iff, Bool.and_eq_false_iff, decide_eq_false_iff_not,
      UInt8.le_iff_toNat_le, ← UInt8.toNat_inj]
    show ¬ b.toNat = 32 ∧ (¬ 9 ≤ b.toNat ∨ ¬ b.toNat ≤ 13)
    omega
  refine ⟨by rw [List.dropWhile_cons, hspace]; rfl, ?_⟩
  unfold sign
  split
  · rename_i heq
    injection heq with heq
    rw [heq] at hb
    exact absurd hb.1 (by decide)
  · rename_i heq
    injection heq with heq
    rw [heq] at hb
    exact absurd hb.1 (by decide)
  · rfl

theorem scan_int {fmt : List Directive} {rest : List UInt8} (n : Nat)
    (h : Stops isDigit rest) :
    scan (.int :: fmt) (decimal n ++ rest) = .int n :: scan fmt rest := by
  obtain ⟨b, s, hdec⟩ := List.exists_cons_of_ne_nil (decimal_ne_nil n)
  have hb : isDigit b = true := isDigit_decimal (n := n) b (by rw [hdec]; exact List.mem_cons_self)
  obtain ⟨hdrop, hsign⟩ := sign_digits (s := s ++ rest) hb
  obtain ⟨htake, hrest⟩ := takeWhile_stops isDigit_decimal h (w := decimal n)
  rw [scan, hdec, List.cons_append, hdrop, hsign]
  rw [hdec, List.cons_append] at htake hrest
  simp only [htake, hrest, ← hdec, number_decimal, Bool.false_eq_true, if_false]

theorem scan_notIn {fmt : List Directive} {w rest : List UInt8} {stop : UInt8}
    (hne : w ≠ []) (hw : stop ∉ w) :
    scan (.notIn stop :: fmt) (w ++ stop :: rest) = .text w :: scan fmt (stop :: rest) := by
  have hall : ∀ b ∈ w, decide (b ≠ stop) = true :=
    fun b hb => decide_eq_true fun heq => hw (heq ▸ hb)
  have hstop : Stops (· ≠ stop) (stop :: rest) := by simp [Stops]
  obtain ⟨htake, hrest⟩ := takeWhile_stops hall hstop
  simp only [scan, htake, hrest, if_neg hne]

end Lib.Scan
