/-
A program whose statements have one answer each has one run: its value and the
state it leaves are computed.
-/
import ProjectAgent.Lib.Calls

namespace Interleave.Prog

variable {S : Type} {R : S → Type} {ε σ α β : Type} (answer : (s : S) → σ → Except ε (R s) × σ)

def eval : Prog S R ε α → σ → Except ε α × σ
  | .ret a, σ₀ => (.ok a, σ₀)
  | .raise e, σ₀ => (.error e, σ₀)
  | .stmt s k, σ₀ => eval (k (answer s σ₀).1) (answer s σ₀).2

variable {answer} {σ₀ σ₁ : σ} {x : Prog S R ε β} {f : β → Prog S R ε α} {b : β} {e : ε}

theorem eval_exec (s : S) : eval answer (exec s) σ₀ = answer s σ₀ := by
  unfold exec eval
  obtain ⟨x, σ₁⟩ := answer s σ₀
  cases x with
  | ok b => rfl
  | error e => rfl

theorem eval_bind_ok (h : eval answer x σ₀ = (.ok b, σ₁)) :
    eval answer (x.bind f) σ₀ = eval answer (f b) σ₁ := by
  induction x generalizing σ₀ with
  | ret b' =>
    cases h
    rfl
  | raise e => cases h
  | stmt s k ih => exact ih _ h

theorem eval_bind_error (h : eval answer x σ₀ = (.error e, σ₁)) :
    eval answer (x.bind f) σ₀ = (.error e, σ₁) := by
  induction x generalizing σ₀ with
  | ret b' => cases h
  | raise e' =>
    cases h
    rfl
  | stmt s k ih => exact ih _ h

/-- A run of a sequence is a run of its first part and one of its second. -/
theorem eval_bind_eq_ok {a : α} {σ₂ : σ} (h : eval answer (x.bind f) σ₀ = (.ok a, σ₂)) :
    ∃ b σ₁, eval answer x σ₀ = (.ok b, σ₁) ∧ eval answer (f b) σ₁ = (.ok a, σ₂) := by
  cases hx : eval answer x σ₀ with
  | mk result σ₁ =>
    cases result with
    | ok b => exact ⟨b, σ₁, rfl, (eval_bind_ok hx).symm.trans h⟩
    | error e =>
      rw [eval_bind_error hx] at h
      cases h

/-- What is computed is one of the runs that the answers are of. -/
theorem runs_eval {answers : (s : S) → σ → Except ε (R s) → σ → Prop}
    (h : ∀ s σ₀, answers s σ₀ (answer s σ₀).1 (answer s σ₀).2) (p : Prog S R ε α) (σ₀ : σ) :
    Runs answers p σ₀ (eval answer p σ₀).1 (eval answer p σ₀).2 := by
  induction p generalizing σ₀ with
  | ret a | raise e => exact ⟨rfl, rfl⟩
  | stmt s k ih => exact ⟨_, _, h s σ₀, ih _ _⟩

end Interleave.Prog
