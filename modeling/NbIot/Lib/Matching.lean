import Mathlib.Data.List.Forall2
import Mathlib.Data.List.Nodup
import Mathlib.Data.List.Perm.Subperm

/-!
# Matchings between lists

Each entry of one list has an entry of its own in another one, to which it is
related. Entries of the other list may be left over, and the orders do not matter, so
a matching is what is left of "nothing is made up and nothing counts twice" when
messages overtake each other. Matchings compose (`trans`).
-/

namespace Lib

variable {α β γ : Type} {R R' : α → β → Prop} {S : β → γ → Prop} {xs xs' : List α}
  {ys : List β} {zs : List γ}

def Matched (R : α → β → Prop) (xs : List α) (ys : List β) : Prop :=
  ∃ matched, matched.Subperm ys ∧ List.Forall₂ R xs matched

namespace Matched

theorem nil : Matched R [] ys := ⟨[], List.nil_subperm, .nil⟩

theorem mono (h : Matched R xs ys) (himp : ∀ x y, R x y → R' x y) : Matched R' xs ys := by
  obtain ⟨matched, hsub, hall⟩ := h
  exact ⟨matched, hsub, hall.imp himp⟩

theorem map_left {f : γ → α} {zs : List γ} :
    Matched R (zs.map f) ys ↔ Matched (fun z y => R (f z) y) zs ys :=
  exists_congr fun _ => and_congr_right fun _ => List.forall₂_map_left_iff

/-- Both lists get one entry more. -/
theorem concat (h : Matched R xs ys) {x : α} {y : β} (hxy : R x y) :
    Matched R (xs ++ [x]) (ys ++ [y]) := by
  obtain ⟨matched, hsub, hall⟩ := h
  exact ⟨matched ++ [y], hsub.append (List.Subperm.refl _),
    List.rel_append hall (.cons hxy .nil)⟩

theorem perm_left (h : Matched R xs ys) (hperm : xs'.Perm xs) : Matched R xs' ys := by
  obtain ⟨matched, hsub, hall⟩ := h
  obtain ⟨matched', hall', hperm'⟩ := List.perm_comp_forall₂ hperm hall
  exact ⟨matched', hperm'.subperm.trans hsub, hall'⟩

theorem forall₂_sublist (hall : List.Forall₂ R xs ys) (hsub : xs'.Sublist xs) :
    ∃ ys', ys'.Sublist ys ∧ List.Forall₂ R xs' ys' := by
  induction hsub generalizing ys with
  | slnil => exact ⟨[], List.nil_sublist _, .nil⟩
  | cons x hsub ih =>
      obtain _ | ⟨_, hrest⟩ := hall
      obtain ⟨ys', hys, hall'⟩ := ih hrest
      exact ⟨ys', hys.cons _, hall'⟩
  | cons_cons x hsub ih =>
      obtain _ | ⟨hxy, hrest⟩ := hall
      obtain ⟨ys', hys, hall'⟩ := ih hrest
      exact ⟨_ :: ys', hys.cons_cons _, .cons hxy hall'⟩

theorem sublist_left (h : Matched R xs ys) (hxs : xs'.Sublist xs) : Matched R xs' ys := by
  obtain ⟨matched, hsub, hall⟩ := h
  obtain ⟨matched', hsub', hall'⟩ := forall₂_sublist hall hxs
  exact ⟨matched', hsub'.subperm.trans hsub, hall'⟩

/-- Where every match is among some of the entries, the others are not needed. -/
theorem filter_right (h : Matched R xs ys) {p : β → Bool} (hp : ∀ x y, R x y → p y = true) :
    Matched R xs (ys.filter p) := by
  obtain ⟨matched, hsub, hall⟩ := h
  refine ⟨matched, ?_, hall⟩
  have hkept : matched.filter p = matched := by
    clear hsub
    induction hall with
    | nil => rfl
    | cons hxy _ ih => rw [List.filter_cons_of_pos (hp _ _ hxy), ih]
  rw [← hkept]
  exact hsub.filter p

theorem trans (h : Matched R xs ys) (h' : Matched S ys zs) :
    Matched (fun x z => ∃ y, R x y ∧ S y z) xs zs := by
  obtain ⟨matched, ⟨among, hperm, hsub⟩, hall⟩ := h
  obtain ⟨through, hthrough, hall'⟩ := (sublist_left h' hsub).perm_left hperm.symm
  refine ⟨through, hthrough, ?_⟩
  clear hperm hsub hthrough
  induction hall generalizing through with
  | nil =>
      cases hall'
      exact .nil
  | cons hxy _ ih =>
      obtain _ | ⟨hyz, hrest⟩ := hall'
      exact .cons ⟨_, hxy, hyz⟩ (ih _ hrest)

theorem filterMap_range (ys : List β) (n : Nat) :
    (List.range n).filterMap (fun k => ys[k]?) = ys.take n := by
  induction n with
  | zero => rfl
  | succ n ih =>
      rw [List.range_succ, List.filterMap_append, ih, List.take_add_one]
      cases h : ys[n]? <;> simp [h]

theorem forall₂_keys {key : α → Nat} (hkeys : ∀ x ∈ xs, ∃ y, ys[key x]? = some y ∧ R x y) :
    List.Forall₂ R xs ((xs.map key).filterMap fun k => ys[k]?) := by
  induction xs with
  | nil => exact .nil
  | cons x xs ih =>
      obtain ⟨y, hy, hxy⟩ := hkeys x List.mem_cons_self
      rw [List.map_cons, List.filterMap_cons_some hy]
      exact .cons hxy (ih fun x hx => hkeys x (List.mem_cons_of_mem _ hx))

/-- Entries that name their matches by numbers, no two the same. -/
theorem of_keys (key : α → Nat) (hnodup : (xs.map key).Nodup)
    (hkeys : ∀ x ∈ xs, ∃ y, ys[key x]? = some y ∧ R x y) : Matched R xs ys := by
  have hrange : (xs.map key).Subperm (List.range ys.length) := by
    refine List.subperm_of_subset hnodup fun k hk => ?_
    obtain ⟨x, hx, rfl⟩ := List.mem_map.mp hk
    obtain ⟨y, hy, _⟩ := hkeys x hx
    exact List.mem_range.mpr (List.getElem?_eq_some_iff.mp hy).1
  obtain ⟨among, hperm, hsub⟩ := hrange
  refine ⟨_, ⟨_, hperm.filterMap _, ?_⟩, forall₂_keys hkeys⟩
  have hall := hsub.filterMap fun k => ys[k]?
  rwa [filterMap_range, List.take_length] at hall

end Matched

end Lib
