import NbIot.Lib.Until

/-!
# Programs that take time

The state has a clock, and an invariant bounds what a step can take. Two programs are
`Within` a time if from every state of the invariant they do the same, keep it, and
move the clock on by no more than that. The second program is the first with other
fuel, so the relation says both when a program is over and that its fuel was enough.
One rule for each way to put programs together; the times add up.
-/

namespace Lib

variable {σ β γ : Type}

/-- From a state of the invariant both programs do the same, and take at most `hi`. -/
def Within (inv : σ → Prop) (now : σ → Nat) (hi : Nat) (p q : StateM σ β) : Prop :=
  ∀ s, inv s → p s = q s ∧ inv (p s).2 ∧ now s ≤ now (p s).2 ∧ now (p s).2 ≤ now s + hi

namespace Within

variable {inv : σ → Prop} {now : σ → Nat} {hi hi' : Nat} {p p' q q' : StateM σ β}

theorem mono (h : Within inv now hi p p') (hle : hi ≤ hi') : Within inv now hi' p p' := by
  intro s hs
  obtain ⟨heq, hinv, hlater, hsoon⟩ := h s hs
  exact ⟨heq, hinv, hlater, Nat.le_trans hsoon (Nat.add_le_add_left hle _)⟩

/-- A step that leaves the clock alone. -/
theorem instant (hinv : ∀ s, inv s → inv (p s).2) (hnow : ∀ s, now (p s).2 = now s) :
    Within inv now 0 p p :=
  fun s hs => ⟨rfl, hinv s hs, Nat.le_of_eq (hnow s).symm, Nat.le_of_eq (hnow s)⟩

theorem pure (b : β) : Within inv now 0 (pure b : StateM σ β) (pure b) :=
  instant (fun _ hs => hs) fun _ => rfl

theorem bind {k k' : β → StateM σ γ} (hp : Within inv now hi p p')
    (hk : ∀ b, Within inv now hi' (k b) (k' b)) :
    Within inv now (hi + hi') (p >>= k) (p' >>= k') := by
  intro s hs
  obtain ⟨heq, hinv, hlater, hsoon⟩ := hp s hs
  obtain ⟨heq', hinv', hlater', hsoon'⟩ := hk (p s).1 (p s).2 hinv
  rw [bind_apply, bind_apply, ← heq]
  exact ⟨heq', hinv', by omega, by omega⟩

theorem branch {c : Prop} [Decidable c] (hp : Within inv now hi p p')
    (hq : Within inv now hi q q') :
    Within inv now hi (if c then p else q) (if c then p' else q') := by
  split
  · exact hp
  · exact hq

/-- A step whose result decides whether there is a rest. -/
theorem guard {p p' : StateM σ γ} (failed : γ → Bool) (b : β) (hp : Within inv now hi p p')
    (hq : Within inv now hi' q q') :
    Within inv now (hi + hi') (p >>= fun c => if failed c then return b else q)
      (p' >>= fun c => if failed c then return b else q') :=
  hp.bind fun _ => branch ((Within.pure b).mono (Nat.zero_le _)) hq

end Within

end Lib
