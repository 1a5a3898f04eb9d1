/-
Loops over numbered attempts, each of which ends the loop or is followed by
another. `loop` gives the attempts that were followed by another, and what the
last one ended with.
-/
import Mathlib.Data.List.Basic

namespace Retry

variable {β : Type}

/-- At most `left` attempts, from this one on; `judge` is what an attempt ends the loop with. -/
def loop (judge : Nat → Option β) : (attempt left : Nat) → List Nat × Option β
  | _, 0 => ([], none)
  | attempt, left + 1 =>
    match judge attempt with
    | some result => ([], some result)
    | none =>
      let rest := loop judge (attempt + 1) left
      (attempt :: rest.1, rest.2)

variable {judge : Nat → Option β}

theorem loop_done {attempt left : Nat} {result : β} (h : judge attempt = some result) :
    loop judge attempt (left + 1) = ([], some result) := by
  simp only [loop, h]

theorem loop_again {attempt left : Nat} (h : judge attempt = none) :
    loop judge attempt (left + 1) = (attempt :: (loop judge (attempt + 1) left).1,
      (loop judge (attempt + 1) left).2) := by
  simp only [loop, h]

/-- Where the last attempt that may be made ends the loop, the loop ends with what some attempt ends
it with, and all attempts before that one are followed by another. -/
theorem loop_ends {attempt left : Nat} (hlast : (judge (attempt + left)).isSome = true) :
    ∃ last result, attempt ≤ last ∧ last ≤ attempt + left ∧ judge last = some result ∧
      (∀ k, attempt ≤ k → k < last → judge k = none) ∧
      loop judge attempt (left + 1) = (List.range' attempt (last - attempt), some result) := by
  induction left generalizing attempt with
  | zero =>
    obtain ⟨result, hresult⟩ := Option.isSome_iff_exists.mp hlast
    rw [Nat.add_zero] at hresult
    refine ⟨attempt, result, Nat.le_refl _, Nat.le_refl _, hresult, fun k hle hlt =>
      absurd hle (by omega), ?_⟩
    rw [loop_done hresult, Nat.sub_self, List.range'_zero]
  | succ left ih =>
    cases hjudge : judge attempt with
    | some result =>
      refine ⟨attempt, result, Nat.le_refl _, by
        omega, hjudge, fun k hle hlt => absurd hle (by omega), ?_⟩
      rw [loop_done hjudge, Nat.sub_self, List.range'_zero]
    | none =>
      have hnext : (judge (attempt + 1 + left)).isSome = true := by
        rw [show attempt + 1 + left = attempt + (left + 1) by omega]
        exact hlast
      obtain ⟨last, result, hle, hlast, hresult, hbefore, hloop⟩ := ih hnext
      refine ⟨last, result, by omega, by omega, hresult, fun k hk hlt => ?_, ?_⟩
      · by_cases hfirst : k = attempt
        · rw [hfirst]
          exact hjudge
        · exact hbefore k (by omega) hlt
      · rw [loop_again hjudge, hloop, show last - attempt = last - (attempt + 1) +
          1 by omega, List.range'_succ]

end Retry
