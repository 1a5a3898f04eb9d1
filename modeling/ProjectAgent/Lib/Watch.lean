/-
A system and one who watches it. Each step is the system's own, or the
watcher's, who looks at the system's state and goes on from what is seen there;
the two interleave in any order.
-/
import Mathlib.Data.List.Basic

namespace Interleave

variable {A B σ O : Type}

inductive Watch (A B : Type) where
  | move (a : A)
  | look (b : B)

namespace Watch

variable (step : A → σ → Option σ) (look : B → σ → O → Option O)

def next : Watch A B → σ × O → Option (σ × O)
  | .move a, (s, o) => (step a s).map fun s' => (s', o)
  | .look b, (s, o) => (look b s o).map fun o' => (s, o')

def run : List (Watch A B) → σ × O → Option (σ × O)
  | [], x => some x
  | a :: as, x => (next step look a x).bind (run as)

/-- `cond` holds of every step, in the state it is taken in. -/
def EachStep (cond : Watch A B → σ × O → Prop) (as : List (Watch A B)) (x : σ × O) : Prop :=
  ∀ pre a, pre ++ [a] <+: as → ∀ x₁ x₂, run step look pre x = some x₁ →
    next step look a x₁ = some x₂ → cond a x₁

variable {step look} {P : σ × O → Prop} {as bs : List (Watch A B)} {x x' : σ × O}

theorem run_append (as bs : List (Watch A B)) (x : σ × O) :
    run step look (as ++ bs) x = (run step look as x).bind (run step look bs) := by
  induction as generalizing x with
  | nil => rfl
  | cons a as ih =>
    show (next step look a x).bind _ = ((next step look a x).bind _).bind _
    rw [Option.bind_assoc]
    exact congrArg _ (funext ih)

/-- While only the watcher goes on, the system stands still. -/
theorem run_looks (bs : List B) (s : σ) (o : O) :
    run step look (bs.map .look) (s, o) = (bs.foldlM (fun o b => look b s o) o).map fun o' =>
      (s, o') := by
  induction bs generalizing o with
  | nil => rfl
  | cons b bs ih =>
    rw [List.map_cons, List.foldlM_cons]
    show ((look b s o).map _).bind _ = ((look b s o).bind _).map _
    cases look b s o with
    | none => rfl
    | some o' => exact ih o'

/-- What holds at first, and is kept by every move and every look, holds wherever the two come
to. -/
theorem invariant (h₀ : P x) (hmove : ∀ a s s' o, P (s, o) → step a s = some s' → P (s', o))
    (hlook : ∀ b s o o', P (s, o) → look b s o = some o' → P (s, o'))
    (hr : run step look as x = some x') : P x' := by
  induction as generalizing x with
  | nil =>
    cases hr
    exact h₀
  | cons a as ih =>
    obtain ⟨x₁, hs, hr⟩ := Option.bind_eq_some_iff.mp hr
    refine ih ?_ hr
    obtain ⟨s, o⟩ := x
    cases a with
    | move a =>
      obtain ⟨s', hmoved, rfl⟩ := Option.map_eq_some_iff.mp hs
      exact hmove a s s' o h₀ hmoved
    | look b =>
      obtain ⟨o', hlooked, rfl⟩ := Option.map_eq_some_iff.mp hs
      exact hlook b s o o' h₀ hlooked

end Watch

end Interleave
