import Mathlib.Data.List.Basic

/-!
# Runs of a step function

A system is a step function that answers `none` where an action is not
enabled. A run is a list of actions, so a concrete run can be evaluated and a
claim about every run is an induction over the list. `Along` says that every
step of a run meets a condition on the state before it and the action, which is
how a claim is restricted to some of the runs.
-/

namespace Lib

variable {σ α : Type}

def run (step : σ → α → Option σ) : σ → List α → Option σ
  | s, [] => some s
  | s, a :: as => (step s a).bind fun t => run step t as

/-- Every step of the run meets a condition. -/
def Along (ok : σ → α → Prop) (step : σ → α → Option σ) : σ → List α → Prop
  | _, [] => True
  | s, a :: as => ok s a ∧ ∀ t ∈ step s a, Along ok step t as

instance decidableAlong (ok : σ → α → Prop) [∀ s a, Decidable (ok s a)]
    (step : σ → α → Option σ) : ∀ s as, Decidable (Along ok step s as)
  | _, [] => isTrue trivial
  | s, a :: as =>
      match h : step s a with
      | none => decidable_of_iff (ok s a) (by simp [Along, h])
      | some t =>
          have := decidableAlong ok step t as
          decidable_of_iff (ok s a ∧ Along ok step t as) (by simp [Along, h])

theorem run_cons {step : σ → α → Option σ} {s u : σ} {a : α} {as : List α} :
    run step s (a :: as) = some u ↔
      ∃ t, step s a = some t ∧ run step t as = some u := by
  rw [run, Option.bind_eq_some_iff]

theorem along_of_forall {ok : σ → α → Prop} {step : σ → α → Option σ}
    (h : ∀ s a, ok s a) (s : σ) (as : List α) : Along ok step s as := by
  induction as generalizing s with
  | nil => trivial
  | cons a as ih => exact ⟨h s a, fun t _ => ih t⟩

theorem along_of_forall_mem {ok : α → Prop} {step : σ → α → Option σ} {as : List α}
    (h : ∀ a ∈ as, ok a) (s : σ) : Along (fun _ a => ok a) step s as := by
  induction as generalizing s with
  | nil => trivial
  | cons a as ih =>
      exact ⟨h a List.mem_cons_self, fun t _ => ih (fun b hb => h b (List.mem_cons_of_mem _ hb)) t⟩

theorem along_and {ok ok' : σ → α → Prop} {step : σ → α → Option σ} {s : σ} {as : List α} :
    Along (fun s a => ok s a ∧ ok' s a) step s as ↔
      Along ok step s as ∧ Along ok' step s as := by
  induction as generalizing s with
  | nil => exact (and_self_iff (a := True)).symm
  | cons a as ih =>
      simp only [Along, ih]
      exact ⟨fun h => ⟨⟨h.1.1, fun t ht => (h.2 t ht).1⟩, h.1.2, fun t ht => (h.2 t ht).2⟩,
        fun h => ⟨⟨h.1.1, h.2.1⟩, fun t ht => ⟨h.1.2 t ht, h.2.2 t ht⟩⟩⟩

/-- Two conditions that are the same where an invariant holds are the same along
a run. -/
theorem along_congr (inv : σ → Prop) {legal ok ok' : σ → α → Prop}
    {step : σ → α → Option σ}
    (hstep : ∀ s a t, inv s → legal s a → step s a = some t → inv t)
    (hiff : ∀ s a, inv s → legal s a → (ok s a ↔ ok' s a)) {s : σ} {as : List α}
    (hs : inv s) (hlegal : Along legal step s as) :
    Along ok step s as ↔ Along ok' step s as := by
  induction as generalizing s with
  | nil => exact Iff.rfl
  | cons a as ih =>
      refine and_congr (hiff s a hs hlegal.1) ?_
      refine forall₂_congr fun t ht => ?_
      exact ih (hstep s a t hs hlegal.1 ht) (hlegal.2 t ht)

/-- Where a condition says of every legal step from a good state whether it ends in
one, it says the same of a run of legal steps: all its states are good exactly when
all its steps meet the condition. -/
theorem along_good_iff (inv : σ → Prop) {legal ok : σ → α → Prop} {step : σ → α → Option σ}
    {good : σ → Prop} (hinv : ∀ s a t, inv s → legal s a → step s a = some t → inv t)
    (hgood : ∀ s a t, inv s → good s → legal s a → step s a = some t → (good t ↔ ok s a))
    {s : σ} {as : List α} (hs : inv s) (hstart : good s) (hlegal : Along legal step s as) :
    Along (fun s a => ∀ t ∈ step s a, good t) step s as ↔
      Along (fun s a => (step s a).isSome → ok s a) step s as := by
  induction as generalizing s with
  | nil => exact Iff.rfl
  | cons a as ih =>
      obtain ⟨hnow, hlater⟩ := hlegal
      cases hsome : step s a with
      | none => simp [Along, hsome]
      | some t =>
          simp only [Along, hsome, Option.mem_def, Option.some.injEq, forall_eq',
            Option.isSome_some, true_implies, hgood s a t hs hstart hnow hsome]
          exact and_congr_right fun hok => ih (hinv s a t hs hnow hsome)
            ((hgood s a t hs hstart hnow hsome).mpr hok) (hlater t hsome)

theorem run_append {step : σ → α → Option σ} {s u : σ} {as bs : List α} :
    run step s (as ++ bs) = some u ↔
      ∃ t, run step s as = some t ∧ run step t bs = some u := by
  induction as generalizing s with
  | nil => simp [run]
  | cons a as ih =>
      rw [List.cons_append, run_cons]
      constructor
      · rintro ⟨t, ht, hrun⟩
        obtain ⟨v, hv, hu⟩ := ih.mp hrun
        exact ⟨v, run_cons.mpr ⟨t, ht, hv⟩, hu⟩
      · rintro ⟨v, hv, hu⟩
        obtain ⟨t, ht, hrun⟩ := run_cons.mp hv
        exact ⟨t, ht, ih.mpr ⟨v, hrun, hu⟩⟩

theorem along_append {ok : σ → α → Prop} {step : σ → α → Option σ} {s t : σ}
    {as bs : List α} (h : Along ok step s (as ++ bs)) (hrun : run step s as = some t) :
    Along ok step s as ∧ Along ok step t bs := by
  induction as generalizing s with
  | nil =>
      injection hrun with hrun
      exact ⟨trivial, hrun ▸ h⟩
  | cons a as ih =>
      obtain ⟨u, hu, htail⟩ := run_cons.mp hrun
      obtain ⟨hok, hrest⟩ := h
      obtain ⟨has, hbs⟩ := ih (hrest u hu) htail
      refine ⟨⟨hok, fun v hv => ?_⟩, hbs⟩
      rw [Option.mem_def, hu] at hv
      injection hv with hv
      exact hv ▸ has

/-- The invariant rule: what one step keeps when it meets the condition, a run
keeps whose steps all do. -/
theorem run_invariant_along {ok : σ → α → Prop} {step : σ → α → Option σ}
    {inv : σ → Prop}
    (hstep : ∀ s a t, inv s → ok s a → step s a = some t → inv t) {s t : σ}
    {as : List α} (hs : inv s) (hok : Along ok step s as)
    (hrun : run step s as = some t) : inv t := by
  induction as generalizing s with
  | nil =>
      injection hrun with h
      exact h ▸ hs
  | cons a as ih =>
      obtain ⟨u, hu, htail⟩ := run_cons.mp hrun
      exact ih (hstep s a u hs hok.1 hu) (hok.2 u hu) htail

theorem run_invariant {step : σ → α → Option σ} {inv : σ → Prop}
    (hstep : ∀ s a t, inv s → step s a = some t → inv t) {s t : σ}
    {as : List α} (hs : inv s) (hrun : run step s as = some t) : inv t :=
  run_invariant_along (fun s a t h _ ht => hstep s a t h ht) hs
    (along_of_forall (fun _ _ => trivial) s as) hrun

/-! ## A system that plays another one -/

variable {τ β : Type}

/-- The actions of the other system that a run comes down to. -/
def played (step : σ → α → Option σ) (plays : σ → α → List β) : σ → List α → List β
  | _, [] => []
  | s, a :: as => plays s a ++ (step s a).elim [] fun t => played step plays t as

theorem run_append_eq (step : σ → α → Option σ) (s : σ) (as bs : List α) :
    run step s (as ++ bs) = (run step s as).bind fun t => run step t bs :=
  Option.ext fun _ => by rw [run_append, Option.bind_eq_some_iff]

/-- The simulation rule: where each step is a run of the other system, so is a run. The
two get stuck together. -/
theorem run_played {f : σ → τ} {step : σ → α → Option σ} {spec : τ → β → Option τ}
    {plays : σ → α → List β} {ok : σ → α → Prop} {inv : σ → Prop}
    (hinv : ∀ s a t, inv s → ok s a → step s a = some t → inv t)
    (hstep : ∀ s a, inv s → ok s a → (step s a).map f = run spec (f s) (plays s a)) {s : σ}
    {as : List α} (hs : inv s) (hok : Along ok step s as) :
    (run step s as).map f = run spec (f s) (played step plays s as) := by
  induction as generalizing s with
  | nil => rfl
  | cons a as ih =>
      rw [played, run_append_eq, ← hstep s a hs hok.1, run]
      cases hnext : step s a with
      | none => rfl
      | some t => exact ih (hinv s a t hs hok.1 hnext) (hok.2 t hnext)

/-- The same with a relation, in one direction: a run is matched step for step. -/
theorem run_matched {step : σ → α → Option σ} {spec : τ → β → Option τ}
    {plays : σ → α → List β} {R : σ → τ → Prop}
    (hstep : ∀ s a t s', R s s' → step s a = some t →
      ∃ t', run spec s' (plays s a) = some t' ∧ R t t') {s t : σ} {s' : τ} {as : List α}
    (hs : R s s') (hrun : run step s as = some t) :
    ∃ t', run spec s' (played step plays s as) = some t' ∧ R t t' := by
  induction as generalizing s s' with
  | nil =>
      injection hrun with hrun
      exact ⟨s', rfl, hrun ▸ hs⟩
  | cons a as ih =>
      obtain ⟨u, hu, htail⟩ := run_cons.mp hrun
      obtain ⟨u', hu', hr⟩ := hstep s a u s' hs hu
      obtain ⟨t', ht', htr⟩ := ih hr htail
      refine ⟨t', ?_, htr⟩
      rw [played, hu]
      exact run_append.mpr ⟨u', hu', ht'⟩

end Lib
