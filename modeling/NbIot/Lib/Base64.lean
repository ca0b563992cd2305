import Mathlib.Data.List.Basic

/-!
# Base64

The basic alphabet, padded on output. On input the padding of the last unit
may be left out, but when it is there it has to be all there and nothing may
follow it; a character outside the alphabet fails the whole text. The two
directions are read off the same three arithmetic identities, one per length
of the last unit, so the round trip is a walk over units of three bytes.
-/

namespace Lib.Base64

def symbol (n : Nat) : Char :=
  if n < 26 then Char.ofNat (65 + n)
  else if n < 52 then Char.ofNat (97 + (n - 26))
  else if n < 62 then Char.ofNat (48 + (n - 52))
  else if n = 62 then '+'
  else '/'

def value (c : Char) : Option Nat :=
  if 'A' ≤ c ∧ c ≤ 'Z' then some (c.toNat - 65)
  else if 'a' ≤ c ∧ c ≤ 'z' then some (c.toNat - 97 + 26)
  else if '0' ≤ c ∧ c ≤ '9' then some (c.toNat - 48 + 52)
  else if c = '+' then some 62
  else if c = '/' then some 63
  else none

/-- The encoding, three bytes to four characters. -/
def encode : List UInt8 → List Char
  | [] => []
  | [a] => [symbol (a.toNat / 4), symbol (a.toNat % 4 * 16), '=', '=']
  | [a, b] =>
      [symbol (a.toNat / 4), symbol (a.toNat % 4 * 16 + b.toNat / 16),
        symbol (b.toNat % 16 * 4), '=']
  | a :: b :: c :: rest =>
      symbol (a.toNat / 4) :: symbol (a.toNat % 4 * 16 + b.toNat / 16) ::
        symbol (b.toNat % 16 * 4 + c.toNat / 64) :: symbol (c.toNat % 64) ::
        encode rest

/-- A last unit of two characters. -/
def pair (c₀ c₁ : Char) : Option (List UInt8) := do
  let v₀ ← value c₀
  let v₁ ← value c₁
  return [UInt8.ofNat (v₀ * 4 + v₁ / 16)]

def triple (c₀ c₁ c₂ : Char) : Option (List UInt8) := do
  let v₀ ← value c₀
  let v₁ ← value c₁
  let v₂ ← value c₂
  return [UInt8.ofNat (v₀ * 4 + v₁ / 16), UInt8.ofNat (v₁ % 16 * 16 + v₂ / 4)]

def quad (c₀ c₁ c₂ c₃ : Char) : Option (List UInt8) := do
  let v₀ ← value c₀
  let v₁ ← value c₁
  let v₂ ← value c₂
  let v₃ ← value c₃
  return [UInt8.ofNat (v₀ * 4 + v₁ / 16), UInt8.ofNat (v₁ % 16 * 16 + v₂ / 4),
    UInt8.ofNat (v₂ % 4 * 64 + v₃)]

def decode : List Char → Option (List UInt8)
  | [] => some []
  | [_] => none
  | [c₀, c₁] => pair c₀ c₁
  | [c₀, c₁, c₂] => triple c₀ c₁ c₂
  | c₀ :: c₁ :: c₂ :: c₃ :: rest =>
      if c₃ = '=' then
        if rest ≠ [] then none
        else if c₂ = '=' then pair c₀ c₁
        else triple c₀ c₁ c₂
      else do
        let unit ← quad c₀ c₁ c₂ c₃
        let tail ← decode rest
        return unit ++ tail

theorem value_symbol {n : Nat} (h : n < 64) : value (symbol n) = some n := by
  revert n
  decide

theorem symbol_ne_pad {n : Nat} (h : n < 64) : symbol n ≠ '=' := by
  revert n
  decide

theorem pair_symbols {a : UInt8} :
    pair (symbol (a.toNat / 4)) (symbol (a.toNat % 4 * 16)) = some [a] := by
  have ha := a.toNat_lt
  unfold pair
  rw [value_symbol (by omega), value_symbol (by omega)]
  simp only [Option.pure_def, Option.bind_eq_bind, Option.bind_some]
  rw [show a.toNat / 4 * 4 + a.toNat % 4 * 16 / 16 = a.toNat by omega,
    UInt8.ofNat_toNat]

theorem triple_symbols {a b : UInt8} :
    triple (symbol (a.toNat / 4)) (symbol (a.toNat % 4 * 16 + b.toNat / 16))
      (symbol (b.toNat % 16 * 4)) = some [a, b] := by
  have ha := a.toNat_lt
  have hb := b.toNat_lt
  unfold triple
  rw [value_symbol (by omega), value_symbol (by omega),
    value_symbol (by omega)]
  simp only [Option.pure_def, Option.bind_eq_bind, Option.bind_some]
  rw [show a.toNat / 4 * 4 + (a.toNat % 4 * 16 + b.toNat / 16) / 16 = a.toNat
      by omega,
    show (a.toNat % 4 * 16 + b.toNat / 16) % 16 * 16 + b.toNat % 16 * 4 / 4
      = b.toNat by omega,
    UInt8.ofNat_toNat, UInt8.ofNat_toNat]

theorem quad_symbols {a b c : UInt8} :
    quad (symbol (a.toNat / 4)) (symbol (a.toNat % 4 * 16 + b.toNat / 16))
      (symbol (b.toNat % 16 * 4 + c.toNat / 64)) (symbol (c.toNat % 64))
      = some [a, b, c] := by
  have ha := a.toNat_lt
  have hb := b.toNat_lt
  have hc := c.toNat_lt
  unfold quad
  rw [value_symbol (by omega), value_symbol (by omega),
    value_symbol (by omega), value_symbol (by omega)]
  simp only [Option.pure_def, Option.bind_eq_bind, Option.bind_some]
  rw [show a.toNat / 4 * 4 + (a.toNat % 4 * 16 + b.toNat / 16) / 16 = a.toNat
      by omega,
    show (a.toNat % 4 * 16 + b.toNat / 16) % 16 * 16
      + (b.toNat % 16 * 4 + c.toNat / 64) / 4 = b.toNat by omega,
    show (b.toNat % 16 * 4 + c.toNat / 64) % 4 * 64 + c.toNat % 64 = c.toNat
      by omega,
    UInt8.ofNat_toNat, UInt8.ofNat_toNat, UInt8.ofNat_toNat]

@[simp] theorem decode_encode (bs : List UInt8) :
    decode (encode bs) = some bs := by
  fun_induction encode bs with
  | case1 => rfl
  | case2 a =>
      rw [decode, if_pos rfl, if_neg (by simp), if_pos rfl]
      exact pair_symbols
  | case3 a b =>
      have hb := b.toNat_lt
      rw [decode, if_pos rfl, if_neg (by simp),
        if_neg (symbol_ne_pad (by omega))]
      exact triple_symbols
  | case4 a b c rest ih =>
      rw [decode, if_neg (symbol_ne_pad (by omega)), quad_symbols, ih]
      rfl

theorem encode_eq_nil {bs : List UInt8} : encode bs = [] ↔ bs = [] := by
  fun_cases encode bs <;> simp

/-- The encoding stays inside the alphabet and its padding. -/
theorem mem_encode {c : Char} {bs : List UInt8} (h : c ∈ encode bs) :
    c = '=' ∨ ∃ n < 64, c = symbol n := by
  fun_induction encode bs with
  | case1 => cases h
  | case2 a =>
      have ha := a.toNat_lt
      simp only [List.mem_cons, List.not_mem_nil, or_false, or_self] at h
      rcases h with rfl | rfl | rfl
      · exact Or.inr ⟨_, by omega, rfl⟩
      · exact Or.inr ⟨_, by omega, rfl⟩
      · exact Or.inl rfl
  | case3 a b =>
      have ha := a.toNat_lt
      have hb := b.toNat_lt
      simp only [List.mem_cons, List.not_mem_nil, or_false] at h
      rcases h with rfl | rfl | rfl | rfl
      · exact Or.inr ⟨_, by omega, rfl⟩
      · exact Or.inr ⟨_, by omega, rfl⟩
      · exact Or.inr ⟨_, by omega, rfl⟩
      · exact Or.inl rfl
  | case4 a b c rest ih =>
      have ha := a.toNat_lt
      have hb := b.toNat_lt
      have hc := c.toNat_lt
      simp only [List.mem_cons] at h
      rcases h with rfl | rfl | rfl | rfl | hrest
      · exact Or.inr ⟨_, by omega, rfl⟩
      · exact Or.inr ⟨_, by omega, rfl⟩
      · exact Or.inr ⟨_, by omega, rfl⟩
      · exact Or.inr ⟨_, by omega, rfl⟩
      · exact ih hrest

theorem newline_not_mem_encode (bs : List UInt8) : '\n' ∉ encode bs := by
  intro h
  rcases mem_encode h with heq | ⟨n, hn, heq⟩
  · exact absurd heq (by decide)
  · revert n
    decide

end Lib.Base64
