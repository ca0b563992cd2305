import Mathlib.Computability.Language
import NbIot.Lib.Until

/-!
# What a program says

A program over a state with a log. What it adds to the log is a word, and which
words it may add, for each of its results, is a family of languages. The rules are
those of a Hoare logic: one for each way to put programs together, with the product
of languages for one after the other and the star for a loop. A procedure of many
steps that stops at the first that fails says the words of some of its steps and
then a word of a step that failed (`Says.guard`).
-/

namespace Lib

open Computability

variable {σ ε β γ : Type}

/-- From any state, what the program adds to the log is a word of the language of its
result. -/
def Says (log : σ → List ε) (p : StateM σ β) (L : β → Language ε) : Prop :=
  ∀ s, ∃ w ∈ L (p s).1, log (p s).2 = log s ++ w

namespace Says

variable {log : σ → List ε} {p q : StateM σ β} {L M : β → Language ε}

theorem mono (h : Says log p L) (hle : ∀ b, ∀ w ∈ L b, w ∈ M b) : Says log p M := by
  intro s
  obtain ⟨w, hw, hlog⟩ := h s
  exact ⟨w, hle _ w hw, hlog⟩

theorem of_silent {f : σ → β × σ} (hlog : ∀ s, log (f s).2 = log s)
    (hnil : ∀ s, [] ∈ L (f s).1) : Says log f L :=
  fun s => ⟨[], hnil s, by rw [hlog, List.append_nil]⟩

theorem pure {b : β} (h : [] ∈ L b) : Says log (pure b : StateM σ β) L :=
  of_silent (fun _ => rfl) fun _ => h

theorem bind {k : β → StateM σ γ} {N : γ → Language ε} (hp : Says log p L)
    {K : β → γ → Language ε} (hk : ∀ b, Says log (k b) (K b))
    (hle : ∀ b c, ∀ w ∈ L b * K b c, w ∈ N c) : Says log (p >>= k) N := by
  intro s
  obtain ⟨v, hv, hlog⟩ := hp s
  obtain ⟨w, hw, hlog'⟩ := hk (p s).1 (p s).2
  refine ⟨v ++ w, hle _ _ _ (Language.append_mem_mul hv hw), ?_⟩
  show log (k (p s).1 (p s).2).2 = _
  rw [hlog', hlog, List.append_assoc]

/-- A result that is computed from another. -/
theorem map {f : β → γ} {N : γ → Language ε} (hp : Says log p L)
    (hle : ∀ b, ∀ w ∈ L b, w ∈ N (f b)) : Says log (p >>= fun b => return f b) N := by
  intro s
  obtain ⟨w, hw, hlog⟩ := hp s
  exact ⟨w, hle _ w hw, hlog⟩

/-- What a turn says that goes on, and one that has a result. -/
def turn (G : Language ε) (R : β → Language ε) : Option β → Language ε
  | none => G
  | some b => R b

/-- A loop says some turns that go on, and then a turn with a result, or nothing where
it is over. What is left of the loop is a condition on the fuel and the state. -/
theorem loop_at (goes : σ → Bool) {body : StateM σ (Option β)} (ending : σ → β)
    {G : Language ε} {R O : β → Language ε} (left : Nat → σ → Prop)
    (hbody : Says log body (turn G R))
    (hleft : ∀ n s t, left (n + 1) s → goes s = true → body s = (none, t) → left n t)
    (hending : ∀ n s, left n s → n = 0 ∨ goes s = false → [] ∈ O (ending s))
    {fuel : Nat} {s : σ} (hs : left fuel s) :
    ∃ w ∈ G∗ * (R (loopUntil goes body ending fuel s).1 +
        O (loopUntil goes body ending fuel s).1),
      log (loopUntil goes body ending fuel s).2 = log s ++ w := by
  have hnil : ∀ {b : β}, [] ∈ O b → [] ∈ G∗ * (R b + O b) := fun h =>
    Language.append_mem_mul (Language.nil_mem_kstar G) (Or.inr h)
  induction fuel generalizing s with
  | zero => exact ⟨[], hnil (hending 0 s hs (Or.inl rfl)), (List.append_nil _).symm⟩
  | succ fuel ih =>
      rw [loopUntil_succ]
      split
      · rename_i hgoes
        obtain ⟨v, hv, hlog⟩ := hbody s
        cases hturn : body s with
        | mk result t =>
            rw [hturn] at hv hlog
            cases result with
            | some b =>
                refine ⟨v, ?_, hlog⟩
                exact Language.append_mem_mul (Language.nil_mem_kstar G) (Or.inl hv)
            | none =>
                obtain ⟨w, hw, hlog'⟩ := ih (hleft fuel s t hs hgoes hturn)
                refine ⟨v ++ w, ?_, by
                  show log (loopUntil goes body ending fuel t).2 = _
                  rw [hlog', hlog, List.append_assoc]⟩
                have hmore := Language.append_mem_mul hv hw
                rw [← mul_assoc] at hmore
                obtain ⟨x, hx, y, hy, heq⟩ := Language.mem_mul.mp hmore
                rw [← heq]
                refine Language.append_mem_mul ?_ hy
                rw [← Language.one_add_self_mul_kstar_eq_kstar G]
                exact Or.inr hx
      · rename_i hgoes
        exact ⟨[], hnil (hending _ s hs (Or.inr (Bool.eq_false_iff.mpr hgoes))),
          (List.append_nil _).symm⟩

theorem loop (goes : σ → Bool) {body : StateM σ (Option β)} (ending : σ → β)
    {G : Language ε} {R O : β → Language ε} (hbody : Says log body (turn G R))
    (hending : ∀ s, [] ∈ O (ending s)) (fuel : Nat) :
    Says log (loopUntil goes body ending fuel) fun b => G∗ * (R b + O b) :=
  fun _ => loop_at goes ending (fun _ _ => True) hbody (fun _ _ _ _ _ _ => trivial)
    (fun _ s _ _ => hending s) trivial

end Says

/-! ## Procedures of steps that may fail -/

/-- What a step says if it succeeds, and if it fails. -/
structure Stage (ε : Type) where
  done : Language ε
  failed : Language ε

def Stage.language (stage : Stage ε) (ok : Bool) : Language ε :=
  if ok then stage.done else stage.failed

/-- What the stages say one after the other. -/
def whole : List (Stage ε) → Language ε
  | [] => 1
  | stage :: stages => stage.done * whole stages

/-- What they say if one of them fails. -/
def broken : List (Stage ε) → Language ε
  | [] => 0
  | stage :: stages => stage.failed + stage.done * broken stages

/-- The stages in order, up to the first that fails. -/
def procedure (stages : List (Stage ε)) : Stage ε := ⟨whole stages, broken stages⟩

namespace Says

variable {log : σ → List ε} {stages : List (Stage ε)} {rest : StateM σ Bool}

/-- A step that has a result fails or succeeds with it. -/
theorem guard {p : StateM σ β} (failed : β → Bool) {L : β → Language ε} {stage : Stage ε}
    (hp : Says log p L)
    (hfailed : ∀ b, failed b = true → ∀ w ∈ L b, w ∈ stage.failed)
    (hdone : ∀ b, failed b = false → ∀ w ∈ L b, w ∈ stage.done)
    (hrest : Says log rest (procedure stages).language) :
    Says log (p >>= fun b => if failed b then return false else rest)
      (procedure (stage :: stages)).language := by
  let K (b : β) : Bool → Language ε :=
    if failed b then fun c => if c then 0 else 1 else (procedure stages).language
  refine Says.bind (K := K) hp (fun b => ?_) fun b c w hw => ?_
  · simp only [K]
    split
    · exact Says.pure (show [] ∈ (1 : Language ε) from rfl)
    · exact hrest
  · simp only [K] at hw
    cases hb : failed b with
    | true =>
        rw [hb, if_pos rfl] at hw
        cases c with
        | true => exact absurd hw (by rw [if_pos rfl, mul_zero]; exact id)
        | false =>
            rw [if_neg Bool.false_ne_true, mul_one] at hw
            exact Or.inl (hfailed b hb w hw)
    | false =>
        rw [hb, if_neg Bool.false_ne_true] at hw
        obtain ⟨u, hu, v, hv, rfl⟩ := Language.mem_mul.mp hw
        have hmem := Language.append_mem_mul (hdone b hb u hu) hv
        cases c with
        | true => exact hmem
        | false => exact Or.inr hmem

/-- A step of its own. -/
theorem step {p : StateM σ Bool} {stage : Stage ε} (hp : Says log p stage.language)
    (hrest : Says log rest (procedure stages).language) :
    Says log (p >>= fun ok => if !ok then return false else rest)
      (procedure (stage :: stages)).language := by
  refine hp.guard (fun ok => !ok) (fun ok hok w hw => ?_) (fun ok hok w hw => ?_) hrest
  · cases ok with
    | true => cases hok
    | false => exact hw
  · cases ok with
    | true => exact hw
    | false => cases hok

/-- A step that cannot fail. -/
theorem always {p : StateM σ β} {L : Language ε} (hp : Says log p fun _ => L)
    (hrest : Says log rest (procedure stages).language) :
    Says log (p >>= fun _ => rest) (procedure (⟨L, 0⟩ :: stages)).language :=
  hp.guard (fun _ => false) (fun _ h => Bool.noConfusion h) (fun _ _ _ hw => hw) hrest

theorem finish {p : StateM σ Bool} (hlog : ∀ s, log (p s).2 = log s)
    (hok : ∀ s, (p s).1 = true) : Says log p (procedure []).language :=
  of_silent hlog fun s => by
    rw [hok s]
    exact rfl

end Says

end Lib
