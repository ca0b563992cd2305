import Mathlib.Data.List.Basic

/-!
# A stream cut into pieces

A reader with room for `n` characters takes a piece of the stream at a time: up
to the next separator, which it takes and drops, or up to `n` characters, in
which case the separator stays in the stream. Nothing is lost by it, and lines
that are shorter than the room come out one by one.
-/

namespace Lib

variable {α : Type} [DecidableEq α]

/-- The first piece, and the rest of the stream. -/
def piece (sep : α) : Nat → List α → List α × List α
  | 0, cs => ([], cs)
  | _ + 1, [] => ([], [])
  | n + 1, c :: cs =>
      if c = sep then ([], cs)
      else
        let more := piece sep n cs
        (c :: more.1, more.2)

/-- A stream that is not at its end gets shorter. -/
theorem piece_rest_lt (sep : α) (n : Nat) {cs : List α} (h : cs ≠ []) :
    (piece sep (n + 1) cs).2.length < cs.length := by
  have hle : ∀ (n : Nat) (cs : List α), (piece sep n cs).2.length ≤ cs.length := by
    intro n
    induction n with
    | zero => exact fun cs => Nat.le_refl _
    | succ n ih =>
        intro cs
        cases cs with
        | nil => exact Nat.zero_le _
        | cons c cs =>
            have hrest := ih cs
            rw [piece, List.length_cons]
            split
            · exact Nat.le_succ _
            · show (piece sep n cs).2.length ≤ cs.length + 1
              omega
  obtain ⟨c, cs, rfl⟩ := List.exists_cons_of_ne_nil h
  rw [piece, List.length_cons]
  split
  · exact Nat.lt_succ_self _
  · exact Nat.lt_succ_of_le (hle n cs)

/-- A piece with the separator behind it, unless the room was full. -/
def ended (sep : α) (n : Nat) (p : List α) : List α := if p.length = n then p else p ++ [sep]

/-- The piece and the rest are the stream, but for a separator that was missing
at the end of it. -/
theorem ended_piece (sep : α) (n : Nat) (cs : List α) :
    ended sep n (piece sep n cs).1 ++ (piece sep n cs).2 = cs ∨
      (piece sep n cs).2 = [] ∧ ended sep n (piece sep n cs).1 = cs ++ [sep] := by
  induction n generalizing cs with
  | zero => exact Or.inl rfl
  | succ n ih =>
      cases cs with
      | nil => exact Or.inr ⟨rfl, rfl⟩
      | cons c cs =>
          have hended : ∀ p : List α, ended sep (n + 1) (c :: p) = c :: ended sep n p := by
            intro p
            unfold ended
            by_cases hp : p.length = n
            · rw [if_pos hp, if_pos (by rw [List.length_cons, hp])]
            · rw [if_neg hp, if_neg (by rw [List.length_cons]; omega), List.cons_append]
          rw [piece]
          split
          · rename_i hc
            rw [hc]
            exact Or.inl rfl
          · simp only [hended, List.cons_append, List.cons.injEq, true_and]
            exact ih cs

/-- All the pieces, with room for one character at least. -/
def pieces (sep : α) (n : Nat) (cs : List α) : List (List α) :=
  if _h : cs = [] then []
  else (piece sep (n + 1) cs).1 :: pieces sep n (piece sep (n + 1) cs).2
  termination_by cs.length
  decreasing_by exact piece_rest_lt sep n _h

@[simp] theorem pieces_nil (sep : α) (n : Nat) : pieces sep n [] = [] := by
  rw [pieces, dif_pos rfl]

theorem pieces_of_ne_nil {sep : α} {n : Nat} {cs : List α} (h : cs ≠ []) :
    pieces sep n cs =
      (piece sep (n + 1) cs).1 :: pieces sep n (piece sep (n + 1) cs).2 := by
  rw [pieces, dif_neg h]

theorem pieces_length_le (sep : α) (n : Nat) (cs : List α) :
    (pieces sep n cs).length ≤ cs.length := by
  induction h : cs.length using Nat.strongRecOn generalizing cs with
  | _ k ih =>
    by_cases hcs : cs = []
    · rw [hcs, pieces_nil]
      exact Nat.zero_le _
    · have hlt := h ▸ piece_rest_lt sep n hcs
      have hrest := ih _ hlt (piece sep (n + 1) cs).2 rfl
      rw [pieces_of_ne_nil hcs, List.length_cons]
      omega

/-- Nothing is lost and nothing is added, but for a separator that was missing at
the end. -/
theorem flatMap_pieces (sep : α) (n : Nat) (cs : List α) :
    (pieces sep n cs).flatMap (ended sep (n + 1)) = cs ∨
      (pieces sep n cs).flatMap (ended sep (n + 1)) = cs ++ [sep] := by
  induction h : cs.length using Nat.strongRecOn generalizing cs with
  | _ k ih =>
    by_cases hcs : cs = []
    · rw [hcs]
      exact Or.inl (by rw [pieces_nil, List.flatMap_nil])
    · rw [pieces_of_ne_nil hcs, List.flatMap_cons]
      have hrest := ih _ (h ▸ piece_rest_lt sep n hcs) (piece sep (n + 1) cs).2 rfl
      rcases ended_piece sep (n + 1) cs with hpiece | ⟨hnil, hpiece⟩
      · rcases hrest with hrest | hrest
        · exact Or.inl (by rw [hrest, hpiece])
        · exact Or.inr (by rw [hrest, ← List.append_assoc, hpiece])
      · exact Or.inr (by rw [hnil, pieces_nil, List.flatMap_nil, List.append_nil, hpiece])

theorem piece_line {sep : α} {n : Nat} {l : List α} (hsep : sep ∉ l) (hlen : l.length < n)
    (cs : List α) : piece sep n (l ++ sep :: cs) = (l, cs) := by
  induction l generalizing n with
  | nil =>
      obtain ⟨m, rfl⟩ := Nat.exists_eq_succ_of_ne_zero (Nat.ne_of_gt hlen)
      rw [List.nil_append, piece, if_pos rfl]
  | cons c l ih =>
      rw [List.length_cons] at hlen
      obtain ⟨m, rfl⟩ := Nat.exists_eq_succ_of_ne_zero (show n ≠ 0 by omega)
      have hc : c ≠ sep := fun h => hsep (by rw [h]; exact List.mem_cons_self)
      rw [List.cons_append, piece, if_neg hc,
        ih (fun h => hsep (List.mem_cons_of_mem c h)) (by omega)]

/-- A line that fills the room leaves everything else in the stream. -/
theorem piece_full {sep : α} {l : List α} (hsep : sep ∉ l) (cs : List α) :
    piece sep l.length (l ++ cs) = (l, cs) := by
  induction l with
  | nil => rfl
  | cons c l ih =>
      have hc : c ≠ sep := fun h => hsep (by rw [h]; exact List.mem_cons_self)
      rw [List.length_cons, List.cons_append, piece, if_neg hc,
        ih fun h => hsep (List.mem_cons_of_mem c h)]

/-- Lines that are shorter than the room come out one by one. -/
theorem pieces_lines {sep : α} {n : Nat} {ls : List (List α)}
    (hls : ∀ l ∈ ls, sep ∉ l ∧ l.length ≤ n) :
    pieces sep n (ls.flatMap (· ++ [sep])) = ls := by
  induction ls with
  | nil => exact pieces_nil sep n
  | cons l ls ih =>
      obtain ⟨hsep, hlen⟩ := hls l List.mem_cons_self
      have hstream : (l :: ls).flatMap (· ++ [sep]) =
          l ++ sep :: ls.flatMap (· ++ [sep]) := by
        rw [List.flatMap_cons, List.append_assoc]
        rfl
      rw [hstream, pieces_of_ne_nil (by simp), piece_line hsep (by omega)]
      exact congrArg (l :: ·) (ih fun l hl => hls l (List.mem_cons_of_mem _ hl))

end Lib
