/-
Programs run one after another, each statement answered as `answers` allows.
`Runs` is one run of a program, `Ends` what every run of it ends with. A
caller's sequence of calls is a list of transitions, and what each of them
keeps the sequence keeps.
-/
import Mathlib.Data.List.Induction
import ProjectAgent.Lib.Prog

namespace Interleave.Prog

variable {S : Type} {R : S → Type} {ε σ α β : Type} (answers : (s : S) → σ →
  Except ε (R s) → σ → Prop)

/-- The program, started in the first state, can end so in the second. -/
def Runs : Prog S R ε α → σ → Except ε α → σ → Prop
  | .ret a, σ₀, r, σ₁ => r = .ok a ∧ σ₁ = σ₀
  | .raise e, σ₀, r, σ₁ => r = .error e ∧ σ₁ = σ₀
  | .stmt s k, σ₀, r, σ₂ => ∃ x σ₁, answers s σ₀ x σ₁ ∧ Runs (k x) σ₁ r σ₂

/-- However its statements are answered, it ends with this. -/
def Ends (post : Except ε α → σ → Prop) : Prog S R ε α → σ → Prop
  | .ret a, σ₀ => post (.ok a) σ₀
  | .raise e, σ₀ => post (.error e) σ₀
  | .stmt s k, σ₀ => ∀ x σ₁, answers s σ₀ x σ₁ → Ends post (k x) σ₁

variable {answers} {p : Prog S R ε α} {post : Except ε α → σ → Prop} {σ₀ σ₁ σ₂ : σ} {r : Except ε α}

theorem Ends.of_runs (h : Ends answers post p σ₀) (hr : Runs answers p σ₀ r σ₁) : post r σ₁ := by
  induction p generalizing σ₀ with
  | ret a | raise e =>
    obtain ⟨rfl, rfl⟩ := hr
    exact h
  | stmt s k ih =>
    obtain ⟨x, σ', hx, hr⟩ := hr
    exact ih x (h x σ' hx) hr

theorem Ends.mono {post' : Except ε α → σ → Prop} (h : Ends answers post p σ₀)
    (hpost : ∀ r σ₁, post r σ₁ → post' r σ₁) :
    Ends answers post' p σ₀ := by
  induction p generalizing σ₀ with
  | ret a | raise e => exact hpost _ _ h
  | stmt s k ih => exact fun x σ₁ hx => ih x (h x σ₁ hx)

theorem Ends.any : Ends answers (fun _ _ => True) p σ₀ := by
  induction p generalizing σ₀ with
  | ret a | raise e => exact trivial
  | stmt s k ih => exact fun x σ₁ _ => ih x

/-- First the one, then what is made of its value; an exception ends both. -/
theorem Ends.bind {x : Prog S R ε β} {f : β → Prog S R ε α} {mid : Except ε β → σ → Prop}
    (h : Ends answers mid x σ₀) (hok : ∀ b σ₁, mid (.ok b) σ₁ → Ends answers post (f b) σ₁)
    (herror : ∀ e σ₁, mid (.error e) σ₁ → post (.error e) σ₁) :
    Ends answers post (x.bind f) σ₀ := by
  induction x generalizing σ₀ with
  | ret b => exact hok b σ₀ h
  | raise e => exact herror e σ₀ h
  | stmt s k ih => exact fun a σ₁ hx => ih a (h a σ₁ hx)

theorem Ends.tryCatch {f : ε → Prog S R ε α} {mid : Except ε α → σ → Prop}
    (h : Ends answers mid p σ₀) (hok : ∀ a σ₁, mid (.ok a) σ₁ → post (.ok a) σ₁)
    (herror : ∀ e σ₁, mid (.error e) σ₁ → Ends answers post (f e) σ₁) :
    Ends answers post (p.tryCatch f) σ₀ := by
  induction p generalizing σ₀ with
  | ret a => exact hok a σ₀ h
  | raise e => exact herror e σ₀ h
  | stmt s k ih => exact fun a σ₁ hx => ih a (h a σ₁ hx)

theorem Ends.attempt {mid : Except ε α → σ → Prop} (h : Ends answers mid p σ₀) :
    Ends answers (fun attempted σ₁ => ∃ r, attempted = .ok r ∧ mid r σ₁) p.attempt σ₀ := by
  induction p generalizing σ₀ with
  | ret a | raise e => exact ⟨_, rfl, h⟩
  | stmt s k ih => exact fun x σ₁ hx => ih x (h x σ₁ hx)

theorem Ends.exec {s : S} {post : Except ε (R s) → σ → Prop}
    (h : ∀ x σ₁, answers s σ₀ x σ₁ → post x σ₁) :
    Ends answers post (Prog.exec s) σ₀ := by
  intro x σ₁ hx
  cases x with
  | ok a => exact h _ _ hx
  | error e => exact h _ _ hx

/-- What every statement keeps the program keeps. -/
theorem Ends.invariant {I : σ → Prop} (hanswers : ∀ s σ₀ x σ₁, answers s σ₀ x σ₁ → I σ₀ → I σ₁)
    (h : I σ₀) :
    Ends answers (fun _ σ₁ => I σ₁) p σ₀ := by
  induction p generalizing σ₀ with
  | ret a | raise e => exact h
  | stmt s k ih => exact fun x σ₁ hx => ih x (hanswers s σ₀ x σ₁ hx h)

/-- What the statements it may issue do to the state, its runs do. -/
theorem Ends.of_only {P : S → Prop} {moved : σ → σ → Prop} (hrefl : ∀ σ, moved σ σ)
    (htrans : ∀ σ₀ σ₁ σ₂, moved σ₀ σ₁ → moved σ₁ σ₂ → moved σ₀ σ₂)
    (hanswers : ∀ s σ₀ x σ₁, P s → answers s σ₀ x σ₁ → moved σ₀ σ₁) (h : p.Only P) :
    Ends answers (fun _ σ₁ => moved σ₀ σ₁) p σ₀ := by
  induction p generalizing σ₀ with
  | ret a | raise e => exact hrefl σ₀
  | stmt s k ih =>
    intro x σ₁ hx
    exact (ih x (h.2 x)).mono fun _ σ₂ hmoved => htrans _ _ _ (hanswers s σ₀ x σ₁ h.1 hx) hmoved

theorem Runs.exec {s : S} {x : Except ε (R s)} (h : answers s σ₀ x σ₁) :
    Runs answers (Prog.exec s) σ₀ x σ₁ := by
  refine ⟨x, σ₁, h, ?_⟩
  cases x <;> exact ⟨rfl, rfl⟩

theorem Runs.bind {x : Prog S R ε β} {f : β → Prog S R ε α} {b : β}
    (hx : Runs answers x σ₀ (.ok b) σ₁) (hf : Runs answers (f b) σ₁ r σ₂) :
    Runs answers (x.bind f) σ₀ r σ₂ := by
  induction x generalizing σ₀ with
  | ret b' =>
    obtain ⟨hb, rfl⟩ := hx
    cases hb
    exact hf
  | raise e =>
    obtain ⟨hb, -⟩ := hx
    cases hb
  | stmt s k ih =>
    obtain ⟨y, σ', hy, hx⟩ := hx
    exact ⟨y, σ', hy, ih y hx⟩

theorem Runs.bind_error {x : Prog S R ε β} {f : β → Prog S R ε α} {e : ε}
    (hx : Runs answers x σ₀ (.error e) σ₁) :
    Runs answers (x.bind f) σ₀ (.error e) σ₁ := by
  induction x generalizing σ₀ with
  | ret b =>
    obtain ⟨hb, -⟩ := hx
    cases hb
  | raise e' =>
    obtain ⟨he, rfl⟩ := hx
    cases he
    exact ⟨rfl, rfl⟩
  | stmt s k ih =>
    obtain ⟨y, σ', hy, hx⟩ := hx
    exact ⟨y, σ', hy, ih y hx⟩

theorem Runs.catch_ok {f : ε → Prog S R ε α} {a : α} (h : Runs answers p σ₀ (.ok a) σ₁) :
    Runs answers (p.tryCatch f) σ₀ (.ok a) σ₁ := by
  induction p generalizing σ₀ with
  | ret b => exact h
  | raise e =>
    obtain ⟨ha, -⟩ := h
    cases ha
  | stmt s k ih =>
    obtain ⟨y, σ', hy, h⟩ := h
    exact ⟨y, σ', hy, ih y h⟩

end Interleave.Prog

namespace Interleave

/-- The calls take the first state to the second, one after another. -/
def Calls {κ σ : Type} (step : κ → σ → σ → Prop) : List κ → σ → σ → Prop
  | [], σ₀, σ₁ => σ₁ = σ₀
  | call :: calls, σ₀, σ₂ => ∃ σ₁, step call σ₀ σ₁ ∧ Calls step calls σ₁ σ₂

theorem Calls.invariant {κ σ : Type} {step : κ → σ → σ → Prop} {I : σ → Prop} {calls : List κ}
    {σ₀ σ₁ : σ} (hstep : ∀ call σ₀ σ₁, step call σ₀ σ₁ → I σ₀ → I σ₁) (hr : Calls step calls σ₀ σ₁)
    (h : I σ₀) : I σ₁ := by
  induction calls generalizing σ₀ with
  | nil =>
    obtain rfl := hr
    exact h
  | cons call calls ih =>
    obtain ⟨σ', hs, hr⟩ := hr
    exact ih hr (hstep call σ₀ σ' hs h)

end Interleave
