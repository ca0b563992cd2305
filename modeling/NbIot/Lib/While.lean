import Mathlib.Data.Nat.Basic

/-!
# While loops

A loop is run on fuel, and fuel is bookkeeping: a loop that ends does so with
the same state on any larger amount (`loop_mono`), so "it ends" is "some fuel
is enough". Three rules: what the body keeps holds at the end, a measure that
the body lowers makes the loop end, and an invariant that keeps the condition
true makes it run forever.
-/

namespace Lib.While

variable {σ : Type}

def loop (cond : σ → Bool) (body : σ → σ) : Nat → σ → Option σ
  | 0, _ => none
  | fuel + 1, s => if cond s then loop cond body fuel (body s) else some s

variable {cond : σ → Bool} {body : σ → σ}

theorem loop_mono {fuel fuel' : Nat} {s t : σ} (h : loop cond body fuel s = some t)
    (hle : fuel ≤ fuel') : loop cond body fuel' s = some t := by
  induction fuel generalizing fuel' s with
  | zero => cases h
  | succ fuel ih =>
      obtain ⟨more, rfl⟩ : ∃ more, fuel' = more + 1 := ⟨fuel' - 1, by omega⟩
      by_cases hcond : cond s = true
      · rw [loop, if_pos hcond] at h ⊢
        exact ih h (by omega)
      · rw [loop, if_neg hcond] at h ⊢
        exact h

/-- What the body keeps holds when the loop ends, and the condition does not. -/
theorem loop_invariant {inv : σ → Prop}
    (hbody : ∀ s, inv s → cond s = true → inv (body s)) {fuel : Nat} {s t : σ}
    (hs : inv s) (h : loop cond body fuel s = some t) : inv t ∧ cond t = false := by
  induction fuel generalizing s with
  | zero => cases h
  | succ fuel ih =>
      rw [loop] at h
      split at h
      · rename_i hcond
        exact ih (hbody s hs hcond) h
      · rename_i hcond
        injection h with h
        exact ⟨h ▸ hs, Bool.eq_false_iff.mpr (h ▸ hcond)⟩

/-- A body that keeps the invariant and lowers a measure is run to the end. -/
theorem loop_ends (inv : σ → Prop) (measure : σ → Nat)
    (hbody : ∀ s, inv s → cond s = true →
      inv (body s) ∧ measure (body s) < measure s)
    {fuel : Nat} {s : σ} (hs : inv s) (hfuel : measure s < fuel) :
    ∃ t, loop cond body fuel s = some t := by
  induction fuel generalizing s with
  | zero => omega
  | succ fuel ih =>
      rw [loop]
      split
      · rename_i hcond
        obtain ⟨hinv, hlt⟩ := hbody s hs hcond
        exact ih hinv (by omega)
      · exact ⟨s, rfl⟩

/-- A condition that the body keeps true is true forever. -/
theorem loop_diverges (inv : σ → Prop)
    (hbody : ∀ s, inv s → cond s = true ∧ inv (body s)) {s : σ} (hs : inv s)
    (fuel : Nat) : loop cond body fuel s = none := by
  induction fuel generalizing s with
  | zero => rfl
  | succ fuel ih =>
      obtain ⟨hcond, hinv⟩ := hbody s hs
      rw [loop, if_pos hcond]
      exact ih hinv

end Lib.While
