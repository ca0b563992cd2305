import Mathlib.Data.List.DropRight

/-!
# Separated text

Fields joined by one separator, and the splitter that drops trailing empty
fields. Dropping them is what makes joining a partial inverse: a text whose
last field is not empty comes back field for field, and any number of blank
fields at the end is lost. Both facts are one statement here,
`split_intercalate_replicate`, because a caller that relies on the second one
usually relies on the first as well.

The other half is the reader that stops at the first separator. Cutting a text
there is unique, which is what turns "it starts with a terminated field" into
something two parsers can agree about.
-/

namespace Lib

variable {α : Type}

/-- The fields of a text: cut at every separator, trailing empty fields
dropped. A text without the separator is a single field, empty or not. -/
def split [DecidableEq α] (sep : α) (s : List α) : List (List α) :=
  if sep ∈ s then (s.splitOn sep).rdropWhile (·.isEmpty) else [s]

theorem rdropWhile_blank {fs : List (List α)} (hne : fs ≠ [])
    (hlast : fs.getLast hne ≠ []) (n : Nat) :
    (fs ++ List.replicate n []).rdropWhile (·.isEmpty) = fs := by
  induction n with
  | zero =>
      rw [List.replicate_zero, List.append_nil]
      refine (List.rdropWhile_eq_self_iff).mpr fun h => ?_
      rw [List.isEmpty_iff]
      exact hlast
  | succ n ih =>
      rw [List.replicate_succ', ← List.append_assoc,
        List.rdropWhile_concat_pos _ _ _ rfl]
      exact ih

/-- Joining and splitting give the fields back, however many blank fields
were joined on at the end. -/
theorem split_intercalate_replicate [DecidableEq α] {sep : α} {fs : List (List α)}
    (hne : fs ≠ []) (hsep : ∀ f ∈ fs, sep ∉ f) (hlast : fs.getLast hne ≠ [])
    (n : Nat) :
    split sep ([sep].intercalate (fs ++ List.replicate n [])) = fs := by
  have hfree : ∀ f ∈ fs ++ List.replicate n [], sep ∉ f := by
    intro f hf
    rcases List.mem_append.mp hf with hmem | hblank
    · exact hsep f hmem
    · rw [List.eq_of_mem_replicate hblank]
      exact List.not_mem_nil
  have hcut := List.splitOn_intercalate sep hfree (by simp [hne])
  unfold split
  split <;> rename_i hmem
  · rw [hcut]
    exact rdropWhile_blank hne hlast n
  · -- Without a separator in the text there was one field to join.
    rw [List.splitOn_eq_singleton hmem] at hcut
    obtain ⟨f, rest, rfl⟩ := List.exists_cons_of_ne_nil hne
    rw [List.cons_append] at hcut ⊢
    injection hcut with hhead htail
    rw [hhead, (List.append_eq_nil_iff.mp htail.symm).1]

theorem split_intercalate [DecidableEq α] {sep : α} {fs : List (List α)}
    (hne : fs ≠ []) (hsep : ∀ f ∈ fs, sep ∉ f) (hlast : fs.getLast hne ≠ []) :
    split sep ([sep].intercalate fs) = fs := by
  simpa using split_intercalate_replicate hne hsep hlast 0

/-- Every text either has no separator or starts with a terminated field. -/
theorem first_field [DecidableEq α] (sep : α) (s : List α) :
    sep ∉ s ∨ ∃ f rest, s = f ++ sep :: rest ∧ sep ∉ f := by
  by_cases h : sep ∈ s
  · obtain ⟨f, rest, hs, hf⟩ := List.eq_append_cons_of_mem h
    exact Or.inr ⟨f, rest, hs, hf⟩
  · exact Or.inl h

/-- The first terminated field and what follows it are determined. -/
theorem first_field_inj {sep : α} {f g rest rest' : List α} (hf : sep ∉ f)
    (hg : sep ∉ g) :
    f ++ sep :: rest = g ++ sep :: rest' ↔ f = g ∧ rest = rest' := by
  constructor
  · intro h
    induction f generalizing g with
    | nil =>
        cases g with
        | nil => simpa using h
        | cons b g =>
            injection h with hb _
            exact absurd (by rw [hb]; exact List.mem_cons_self) hg
    | cons a f ih =>
        cases g with
        | nil =>
            injection h with ha _
            exact absurd (by rw [← ha]; exact List.mem_cons_self) hf
        | cons b g =>
            injection h with hab htail
            obtain ⟨hfg, hrest⟩ := ih (fun hm => hf (List.mem_cons_of_mem _ hm))
              (fun hm => hg (List.mem_cons_of_mem _ hm)) htail
            exact ⟨by rw [hab, hfg], hrest⟩
  · rintro ⟨rfl, rfl⟩
    rfl

/-- A text that can stand between two separators: not empty, and free of the
separator. -/
structure Field (sep : α) where
  text : List α
  ne_nil : text ≠ []
  sep_free : sep ∉ text

end Lib
