import Mathlib.Logic.Function.Basic
import Mathlib.Data.List.Perm.Basic
import Mathlib.Data.List.Nodup

/-!
# Queues of tagged messages

A queue that is served in any order is a bag. When every message carries a tag
of its own, the bag is a finite map from tags to bodies, and `Tracks` says
which map. Serving a message forgets its tag and queueing one sets it, so a
system whose queues track maps can be reasoned about tag by tag, without its
orders.

The maps a system needs are usually views of one list of records, a record per
tag. Changing a record changes each view at its own tag.
-/

namespace Lib

variable {α β : Type}

def takeAt (xs : List α) (i : Nat) : Option (α × List α) :=
  xs[i]?.map fun x => (x, xs.eraseIdx i)

theorem takeAt_eq_some {xs rest : List α} {i : Nat} {x : α} :
    takeAt xs i = some (x, rest) ↔ xs[i]? = some x ∧ rest = xs.eraseIdx i := by
  unfold takeAt
  rw [Option.map_eq_some_iff]
  refine ⟨?_, ?_⟩
  · intro ⟨y, hy, h⟩
    injection h with hx hrest
    exact ⟨hx ▸ hy, hrest.symm⟩
  · intro ⟨hx, hrest⟩
    exact ⟨x, hx, by rw [hrest]⟩

theorem takeAt_concat (xs : List α) (x : α) :
    takeAt (xs ++ [x]) xs.length = some (x, xs) := by
  refine takeAt_eq_some.mpr ⟨List.getElem?_concat_length, ?_⟩
  rw [List.eraseIdx_append_of_length_le (Nat.le_refl _), Nat.sub_self]
  simp

theorem perm_of_takeAt {xs rest : List α} {i : Nat} {x : α}
    (h : takeAt xs i = some (x, rest)) : xs.Perm (x :: rest) := by
  obtain ⟨hx, hrest⟩ := takeAt_eq_some.mp h
  obtain ⟨hlt, hget⟩ := List.getElem?_eq_some_iff.mp hx
  rw [hrest, ← hget]
  exact (List.getElem_cons_eraseIdx_perm hlt).symm

theorem mem_of_takeAt {xs rest : List α} {i : Nat} {x : α}
    (h : takeAt xs i = some (x, rest)) : x ∈ xs :=
  (perm_of_takeAt h).mem_iff.mpr List.mem_cons_self

theorem mem_of_mem_rest {xs rest : List α} {i : Nat} {x y : α}
    (h : takeAt xs i = some (x, rest)) (hy : y ∈ rest) : y ∈ xs :=
  (perm_of_takeAt h).mem_iff.mpr (List.mem_cons_of_mem _ hy)

/-- A message with the number of the event it goes back to. -/
structure Tagged (β : Type) where
  origin : Nat
  body : β
  deriving DecidableEq, Repr

/-- The bag holds exactly the bodies of the map, each under its tag. -/
structure Tracks (q : List (Tagged β)) (g : Nat → Option β) : Prop where
  nodup : (q.map (·.origin)).Nodup
  mem_iff : ∀ m, m ∈ q ↔ g m.origin = some m.body

namespace Tracks

theorem nil : Tracks ([] : List (Tagged β)) fun _ => none where
  nodup := List.nodup_nil
  mem_iff m := by simp

variable {q rest : List (Tagged β)} {g : Nat → Option β}

/-- Serving a message forgets its tag. -/
theorem take (h : Tracks q g) {i : Nat} {m : Tagged β}
    (ht : takeAt q i = some (m, rest)) :
    g m.origin = some m.body ∧ Tracks rest (Function.update g m.origin none) := by
  have hperm := perm_of_takeAt ht
  have hnodup : m.origin ∉ rest.map (·.origin) ∧ (rest.map (·.origin)).Nodup :=
    List.nodup_cons.mp ((hperm.map Tagged.origin).nodup_iff.mp h.nodup)
  refine ⟨(h.mem_iff m).mp (mem_of_takeAt ht), hnodup.2, fun n => ?_⟩
  by_cases hn : n.origin = m.origin
  · rw [hn, Function.update_self]
    refine iff_of_false (fun hmem => hnodup.1 ?_) (by simp)
    rw [← hn]
    exact List.mem_map_of_mem hmem
  · rw [Function.update_of_ne hn, ← h.mem_iff n, hperm.mem_iff, List.mem_cons]
    refine ⟨Or.inr, fun hmem => hmem.resolve_left fun heq => hn ?_⟩
    rw [heq]

/-- Queueing a message sets its tag. -/
theorem add (h : Tracks q g) {o : Nat} (ho : g o = none) (b : β) :
    Tracks (q ++ [⟨o, b⟩]) (Function.update g o (some b)) := by
  have hnew : ∀ m ∈ q, m.origin ≠ o := by
    intro m hm heq
    have hg := (h.mem_iff m).mp hm
    rw [heq, ho] at hg
    cases hg
  refine ⟨?_, fun n => ?_⟩
  · rw [List.map_append, List.nodup_append]
    refine ⟨h.nodup, by simp, ?_⟩
    intro a ha b hb
    obtain ⟨m, hm, rfl⟩ := List.mem_map.mp ha
    rw [List.map_cons, List.map_nil, List.mem_singleton] at hb
    rw [hb]
    exact hnew m hm
  · rw [List.mem_append, List.mem_singleton]
    by_cases hn : n.origin = o
    · rw [hn, Function.update_self, Option.some.injEq]
      refine ⟨?_, fun hb => Or.inr ?_⟩
      · intro hmem
        rcases hmem with hmem | heq
        · exact absurd hn (hnew n hmem)
        · rw [heq]
      · cases n
        rw [Tagged.mk.injEq]
        exact ⟨hn, hb.symm⟩
    · rw [Function.update_of_ne hn, ← h.mem_iff n]
      refine ⟨fun hmem => hmem.resolve_right fun heq => hn ?_, Or.inl⟩
      rw [heq]

end Tracks

/-! ## Some of the tags

A queue without the messages of some tags, the others renumbered. What is served from
the whole queue is served from the rest of it, at the place it has there, or is nothing
to it. -/

section Project

variable {keep keep' : Nat → Option Nat} {q q' rest : List (Tagged β)} {i : Nat} {m : Tagged β}

def project (keep : Nat → Option Nat) (q : List (Tagged β)) : List (Tagged β) :=
  q.filterMap fun m => (keep m.origin).map fun o => ⟨o, m.body⟩

/-- The place that the message at an index has among those that are kept. -/
def place (keep : Nat → Option Nat) (q : List (Tagged β)) (i : Nat) : Option Nat :=
  q[i]?.bind fun m => (keep m.origin).map fun _ => (project keep (q.take i)).length

theorem project_append (keep : Nat → Option Nat) (q q' : List (Tagged β)) :
    project keep (q ++ q') = project keep q ++ project keep q' :=
  List.filterMap_append

theorem project_congr (h : ∀ m ∈ q, keep m.origin = keep' m.origin) :
    project keep q = project keep' q :=
  List.filterMap_congr fun m hm => by rw [h m hm]

theorem project_singleton_none {o : Nat} (h : keep o = none) (b : β) :
    project keep [⟨o, b⟩] = [] := by
  simp [project, h]

theorem project_singleton_some {o p : Nat} (h : keep o = some p) (b : β) :
    project keep [⟨o, b⟩] = [⟨p, b⟩] := by
  simp [project, h]

theorem takeAt_split (h : takeAt q i = some (m, rest)) :
    q = q.take i ++ m :: q.drop (i + 1) ∧ rest = q.take i ++ q.drop (i + 1) := by
  obtain ⟨hm, hrest⟩ := takeAt_eq_some.mp h
  obtain ⟨hlt, hget⟩ := List.getElem?_eq_some_iff.mp hm
  refine ⟨?_, hrest.trans (List.eraseIdx_eq_take_drop_succ q i)⟩
  rw [← hget, ← List.drop_eq_getElem_cons hlt, List.take_append_drop]

theorem project_take_none (h : takeAt q i = some (m, rest)) (hm : keep m.origin = none) :
    place keep q i = none ∧ project keep rest = project keep q := by
  obtain ⟨hq, hrest⟩ := takeAt_split h
  refine ⟨?_, ?_⟩
  · rw [place, (takeAt_eq_some.mp h).1, Option.bind_some, hm, Option.map_none]
  · conv_rhs => rw [hq]
    rw [hrest, project_append, project_append]
    simp [project, hm]

theorem project_take_some (h : takeAt q i = some (m, rest)) {o : Nat}
    (hm : keep m.origin = some o) :
    ∃ j, place keep q i = some j ∧
      takeAt (project keep q) j = some (⟨o, m.body⟩, project keep rest) := by
  obtain ⟨hq, hrest⟩ := takeAt_split h
  refine ⟨(project keep (q.take i)).length, ?_, takeAt_eq_some.mpr ?_⟩
  · rw [place, (takeAt_eq_some.mp h).1, Option.bind_some, hm, Option.map_some]
  · have hproject : project keep q = project keep (q.take i) ++
        ⟨o, m.body⟩ :: project keep (q.drop (i + 1)) := by
      conv_lhs => rw [hq]
      rw [project_append]
      simp [project, hm]
    rw [hproject, hrest, project_append]
    refine ⟨by simp, ?_⟩
    rw [List.eraseIdx_append_of_length_le (Nat.le_refl _), Nat.sub_self, List.eraseIdx_zero,
      List.tail_cons]

end Project

/-! ## Views of a list of records -/

variable {γ : Type}

theorem getElem?_set_iff {xs : List γ} {o p : Nat} {x y z : γ}
    (hx : xs[o]? = some x) :
    (xs.set o y)[p]? = some z ↔ p = o ∧ z = y ∨ p ≠ o ∧ xs[p]? = some z := by
  obtain ⟨hlt, _⟩ := List.getElem?_eq_some_iff.mp hx
  by_cases hp : p = o
  · rw [hp, List.getElem?_set_self hlt]
    simp [eq_comm]
  · rw [List.getElem?_set_ne (Ne.symm hp)]
    simp [hp]

theorem forall_mem_set {xs : List γ} {good : γ → Prop} (h : ∀ x ∈ xs, good x) {y : γ}
    (hy : good y) (o : Nat) : ∀ x ∈ xs.set o y, good x := by
  intro x hx
  rcases List.mem_or_eq_of_mem_set hx with hx | hx
  · exact h x hx
  · exact hx ▸ hy

/-- A record that differs from the changed one is where it was. -/
theorem getElem?_set_of_differs {xs : List γ} {o p : Nat} {x y z : γ} {f : γ → Bool}
    (hz : xs[o]? = some z) (hx : xs[p]? = some x) (hdiffers : f x ≠ f z) :
    (xs.set o y)[p]? = some x := by
  refine (getElem?_set_iff hz).mpr (Or.inr ⟨fun heq => hdiffers ?_, hx⟩)
  rw [heq, hz] at hx
  rw [← Option.some.inj hx]

/-- Changing a record where a map does not look. -/
theorem map_set_same {xs : List γ} {o : Nat} {x y : γ} (hx : xs[o]? = some x)
    {f : γ → β} (hf : f y = f x) : (xs.set o y).map f = xs.map f := by
  obtain ⟨hlt, hget⟩ := List.getElem?_eq_some_iff.mp hx
  have hlt' : o < (xs.map f).length := by simpa using hlt
  have hmap : (xs.map f)[o] = f x := by rw [List.getElem_map, hget]
  rw [List.map_set, hf, ← hmap, List.set_getElem_self]

theorem getElem?_concat_iff {xs : List γ} {p : Nat} {x z : γ} :
    (xs ++ [x])[p]? = some z ↔ p = xs.length ∧ z = x ∨ xs[p]? = some z := by
  rcases Nat.lt_trichotomy p xs.length with hlt | heq | hgt
  · rw [List.getElem?_append_left hlt]
    simp [Nat.ne_of_lt hlt]
  · rw [heq, List.getElem?_concat_length]
    simp [eq_comm]
  · rw [List.getElem?_eq_none (by simp; omega), List.getElem?_eq_none (by omega)]
    simp [Nat.ne_of_gt hgt]

/-- What the record with a given number shows. -/
def view (xs : List γ) (f : γ → Option β) (o : Nat) : Option β := xs[o]?.bind f

theorem view_eq_some {xs : List γ} {f : γ → Option β} {o : Nat} {b : β} :
    view xs f o = some b ↔ ∃ x, xs[o]? = some x ∧ f x = some b :=
  Option.bind_eq_some_iff

theorem Tracks.origin_lt {q : List (Tagged β)} {xs : List γ} {f : γ → Option β}
    (h : Tracks q (view xs f)) {m : Tagged β} (hm : m ∈ q) : m.origin < xs.length := by
  obtain ⟨x, hx, _⟩ := view_eq_some.mp ((h.mem_iff m).mp hm)
  exact (List.getElem?_eq_some_iff.mp hx).1

theorem view_of_getElem? {xs : List γ} {o : Nat} {x : γ} (h : xs[o]? = some x)
    (f : γ → Option β) : view xs f o = f x := by
  rw [view, h, Option.bind_some]

theorem view_append (xs : List γ) (x : γ) (f : γ → Option β) :
    view (xs ++ [x]) f = Function.update (view xs f) xs.length (f x) := by
  funext o
  by_cases ho : o = xs.length
  · rw [ho, Function.update_self, view, List.getElem?_concat_length]
    rfl
  · rw [Function.update_of_ne ho, view, view]
    rcases Nat.lt_or_gt_of_ne ho with hlt | hgt
    · rw [List.getElem?_append_left hlt]
    · rw [List.getElem?_eq_none (by simp; omega), List.getElem?_eq_none (by omega)]

theorem view_set {xs : List γ} {o : Nat} {x : γ} (h : xs[o]? = some x) (y : γ)
    (f : γ → Option β) :
    view (xs.set o y) f = Function.update (view xs f) o (f y) := by
  obtain ⟨hlt, _⟩ := List.getElem?_eq_some_iff.mp h
  funext p
  by_cases hp : p = o
  · rw [hp, Function.update_self, view, List.getElem?_set_self hlt]
    rfl
  · rw [Function.update_of_ne hp, view, view, List.getElem?_set_ne (Ne.symm hp)]

/-- A view that shows the same of both records does not change. -/
theorem view_set_same {xs : List γ} {o : Nat} {x y : γ} (h : xs[o]? = some x)
    {f : γ → Option β} (hf : f y = f x) : view (xs.set o y) f = view xs f := by
  rw [view_set h, hf, ← view_of_getElem? h f, Function.update_eq_self]

theorem view_append_none {xs : List γ} {x : γ} {f : γ → Option β}
    (hf : f x = none) : view (xs ++ [x]) f = view xs f := by
  have hnone : view xs f xs.length = none := by
    rw [view, List.getElem?_eq_none (Nat.le_refl _)]
    rfl
  rw [view_append, hf, ← hnone, Function.update_eq_self]

end Lib
