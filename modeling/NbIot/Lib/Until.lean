import Mathlib.Algebra.Ring.Nat

/-!
# Loops that may return

The loop `while (goes) { body }` of a function that returns from within the body, or
behind the loop. A turn of the body goes on or has a result. The loop runs on fuel,
and an answer on fuel zero never decides a result: any two amounts that cover what
the loop has left agree (`until_fuel`). For a loop that polls a wrapping clock that
is what is left of its time (`until_clock`).
-/

namespace Lib

variable {σ β γ : Type}

/-! ## Programs, applied to a state -/

theorem bind_apply (p : StateM σ β) (k : β → StateM σ γ) (s : σ) :
    (p >>= k) s = k (p s).1 (p s).2 := rfl

theorem pure_apply (b : β) (s : σ) : (pure b : StateM σ β) s = (b, s) := rfl

theorem get_apply (s : σ) : (get : StateM σ σ) s = (s, s) := rfl

theorem set_apply (t s : σ) : (set t : StateM σ PUnit) s = ((), t) := rfl

theorem modify_apply (f : σ → σ) (s : σ) : (modify f : StateM σ PUnit) s = ((), f s) := rfl

theorem if_apply (c : Prop) [Decidable c] (p q : StateM σ β) (s : σ) :
    (if c then p else q) s = if c then p s else q s := by
  split <;> rfl

/-! ## The loop -/

def loopUntil (goes : σ → Bool) (body : StateM σ (Option β)) (ending : σ → β) :
    Nat → StateM σ β
  | 0, s => (ending s, s)
  | fuel + 1, s =>
      if goes s then
        match body s with
        | (some b, t) => (b, t)
        | (none, t) => loopUntil goes body ending fuel t
      else (ending s, s)

variable {goes : σ → Bool} {body : StateM σ (Option β)} {ending : σ → β}

/-- One turn of the loop. -/
theorem loopUntil_succ (fuel : Nat) (s : σ) :
    loopUntil goes body ending (fuel + 1) s =
      if goes s then
        match body s with
        | (some b, t) => (b, t)
        | (none, t) => loopUntil goes body ending fuel t
      else (ending s, s) := rfl

/-- Fuel that covers a measure which every turn lowers gives the one answer. -/
theorem until_fuel (inv : σ → Prop) (measure : σ → Nat)
    (hbody : ∀ s t, inv s → goes s = true → body s = (none, t) →
      inv t ∧ measure t < measure s)
    {fuel fuel' : Nat} {s : σ} (hs : inv s) (h : measure s < fuel) (h' : measure s < fuel') :
    loopUntil goes body ending fuel s = loopUntil goes body ending fuel' s := by
  induction fuel generalizing fuel' s with
  | zero => omega
  | succ fuel ih =>
      obtain ⟨fuel', rfl⟩ := Nat.exists_eq_succ_of_ne_zero (show fuel' ≠ 0 by omega)
      rw [loopUntil_succ, loopUntil_succ]
      split
      · rename_i hgoes
        cases hturn : body s with
        | mk result t =>
            cases result with
            | some b => rfl
            | none =>
                obtain ⟨hinv, hlt⟩ := hbody s t hs hgoes hturn
                exact ih hinv (by omega) (by omega)
      · rfl

/-- What holds at every turn, and of every result behind it. -/
theorem until_post (turn : σ → Prop) (post : β → σ → Prop)
    (hgoes : ∀ s t, turn s → goes s = true → body s = (none, t) → turn t)
    (hdone : ∀ s t b, turn s → goes s = true → body s = (some b, t) → post b t)
    (hending : ∀ s, turn s → post (ending s) s) {fuel : Nat} {s : σ} (hs : turn s) :
    post (loopUntil goes body ending fuel s).1 (loopUntil goes body ending fuel s).2 := by
  induction fuel generalizing s with
  | zero => exact hending s hs
  | succ fuel ih =>
      rw [loopUntil_succ]
      split
      · rename_i hturn
        cases hresult : body s with
        | mk result t =>
            cases result with
            | some b => exact hdone s t b hs hturn hresult
            | none => exact ih (hgoes s t hs hturn hresult)
      · exact hending s hs

/-- What every turn keeps holds behind the loop, however it ended. -/
theorem until_invariant (inv : σ → Prop) (hbody : ∀ s, inv s → goes s = true → inv (body s).2)
    {fuel : Nat} {s : σ} (hs : inv s) : inv (loopUntil goes body ending fuel s).2 := by
  have hkept : ∀ s t r, inv s → goes s = true → body s = (r, t) → inv t := by
    intro s t r hs hgoes hturn
    have hnext := hbody s hs hgoes
    rw [hturn] at hnext
    exact hnext
  exact until_post inv (fun _ t => inv t) (fun s t => hkept s t none)
    (fun s t b => hkept s t (some b)) (fun _ h => h) hs

/-! ## Loops that poll a clock -/

/-- Turns of at least `lo` that are left until the limit is over. -/
def turnsUntil (start limit lo now : Nat) : Nat := (start + limit + lo - now) / lo

theorem turnsUntil_start {start limit lo : Nat} (hlo : 0 < lo) :
    turnsUntil start limit lo start = limit / lo + 1 := by
  rw [turnsUntil, Nat.add_assoc, Nat.add_sub_cancel_left, Nat.add_div_right limit hlo]

theorem turnsUntil_lt {start limit lo now now' : Nat} (hlo : 0 < lo)
    (hleft : now ≤ start + limit) (hturn : now + lo ≤ now') :
    turnsUntil start limit lo now' < turnsUntil start limit lo now := by
  have hdown : start + limit + lo - now' ≤ start + limit + lo - now - lo := by omega
  rw [turnsUntil, turnsUntil]
  refine Nat.lt_of_le_of_lt (Nat.div_le_div_right hdown) ?_
  rw [Nat.div_eq_sub_div hlo (show lo ≤ start + limit + lo - now by omega)]
  exact Nat.lt_succ_self _

variable (ending) in
/-- A loop that goes on while the limit is not over by a clock of `w` bits, and takes
at least `lo` and at most `hi` a turn, is over one turn after the limit, and no fuel
beyond its turns changes its answer. -/
theorem until_clock {w : Nat} (now : σ → Nat) (inv : σ → Prop) {start limit lo hi : Nat}
    (hgoes : ∀ s, start ≤ now s → goes s = true → (now s - start) % 2 ^ w ≤ limit)
    (hbody : ∀ s, inv s → goes s = true →
      inv (body s).2 ∧ now s ≤ now (body s).2 ∧ now (body s).2 ≤ now s + hi ∧
        ((body s).1 = none → now s + lo ≤ now (body s).2))
    (hlo : 0 < lo) (hwrap : limit + hi < 2 ^ w) {s : σ} (hs : inv s) (hnow : now s = start)
    {fuel : Nat} (hfuel : limit / lo + 2 ≤ fuel) :
    loopUntil goes body ending fuel s = loopUntil goes body ending (limit / lo + 2) s ∧
      inv (loopUntil goes body ending fuel s).2 ∧
      start ≤ now (loopUntil goes body ending fuel s).2 ∧
      now (loopUntil goes body ending fuel s).2 ≤ start + limit + hi := by
  let onTime (s : σ) : Prop := inv s ∧ start ≤ now s ∧ now s ≤ start + limit + hi
  have hleft : ∀ s, onTime s → goes s = true → now s ≤ start + limit := by
    intro s ⟨_, hle, hge⟩ hg
    have hmod := hgoes s hle hg
    rw [Nat.mod_eq_of_lt (by omega)] at hmod
    omega
  have hkept : ∀ s, onTime s → goes s = true → onTime (body s).2 := by
    intro s hs hg
    have hlimit := hleft s hs hg
    obtain ⟨hinv, hle, hge⟩ := hs
    obtain ⟨hinv', hlater, hslow, _⟩ := hbody s hinv hg
    exact ⟨hinv', by omega, by omega⟩
  have hturn : ∀ s t, onTime s → goes s = true → body s = (none, t) →
      onTime t ∧ turnsUntil start limit lo (now t) < turnsUntil start limit lo (now s) := by
    intro s t hs hg ht
    have hnext := hkept s hs hg
    obtain ⟨_, _, _, hfast⟩ := hbody s hs.1 hg
    rw [ht] at hnext hfast
    exact ⟨hnext, turnsUntil_lt hlo (hleft s hs hg) (hfast rfl)⟩
  have hstart : onTime s := ⟨hs, by omega, by omega⟩
  have hmeasure : turnsUntil start limit lo (now s) = limit / lo + 1 := by
    rw [hnow, turnsUntil_start hlo]
  refine ⟨until_fuel onTime (fun s => turnsUntil start limit lo (now s)) hturn hstart
    (by show turnsUntil start limit lo (now s) < _; omega)
    (by show turnsUntil start limit lo (now s) < _; omega), ?_⟩
  exact until_invariant onTime hkept hstart

end Lib
