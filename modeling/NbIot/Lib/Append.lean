import Mathlib.Data.List.Basic

/-!
# Writers with bounded room

A writer has an output and room for so many values. A step appends its values if
there is room for them; if there is not it may append some, but it keeps what was
written, and it stays within the room. That is closed under doing one step after the
other, so it holds of a whole message.
-/

namespace Lib

variable {σ α β : Type}

def Appends (inv : σ → Prop) (out : σ → List α) (room : Nat) (step : σ → σ)
    (vs : List α) : Prop :=
  ∀ s, inv s → inv (step s) ∧ out s <+: out (step s) ∧
    ((out s).length + vs.length ≤ room → out (step s) = out s ++ vs)

namespace Appends

variable {inv : σ → Prop} {out : σ → List α} {room : Nat} {f g : σ → σ} {vs ws : List α}

theorem skip : Appends inv out room id [] :=
  fun _ hs => ⟨hs, List.prefix_refl _, fun _ => (List.append_nil _).symm⟩

theorem comp (hf : Appends inv out room f vs) (hg : Appends inv out room g ws) :
    Appends inv out room (fun s => g (f s)) (vs ++ ws) := by
  intro s hs
  obtain ⟨hinv, hkept, hfits⟩ := hf s hs
  obtain ⟨hinv', hkept', hfits'⟩ := hg (f s) hinv
  refine ⟨hinv', hkept.trans hkept', fun hroom => ?_⟩
  rw [List.length_append] at hroom
  have hfirst := hfits (by omega)
  rw [hfirst, List.length_append] at hfits'
  rw [hfits' (by omega), List.append_assoc]

theorem fold {step : β → σ → σ} {written : β → List α}
    (hstep : ∀ b, Appends inv out room (step b) (written b)) (bs : List β) :
    Appends inv out room (fun s => bs.foldl (fun s b => step b s) s) (bs.flatMap written) := by
  induction bs with
  | nil => exact skip
  | cons b bs ih => exact (hstep b).comp ih

end Appends

end Lib
