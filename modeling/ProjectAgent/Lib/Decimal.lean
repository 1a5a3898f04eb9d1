/-
Decimal numerals of a fixed width, and a decimal number kept to a fixed number
of digits after the point.
-/
import Mathlib.Data.Rat.Floor
import Mathlib.Tactic.Linarith

namespace Decimal

def digits : Nat → Nat → List Char
  | 0, _ => []
  | width + 1, n => digits width (n / 10) ++ [Nat.digitChar (n % 10)]

@[simp] theorem length_digits (width n : Nat) : (digits width n).length = width := by
  induction width generalizing n with
  | zero => rfl
  | succ width ih => simp [digits, ih]

def digit (c : Char) : Option Nat := (List.range 10).find? (Nat.digitChar · == c)

theorem digit_digitChar : ∀ a : Fin 10, digit (Nat.digitChar a) = some a.val := by
  decide

def value (cs : List Char) : Option Nat := cs.foldlM (fun n c => (digit c).map (10 * n + ·)) 0

theorem value_digits (width n : Nat) : value (digits width n) = some (n % 10 ^ width) := by
  induction width generalizing n with
  | zero => simp [digits, value, Nat.mod_one]
  | succ width ih =>
    have hlast := digit_digitChar ⟨n % 10, Nat.mod_lt _ (by decide)⟩
    have hinit := ih (n / 10)
    unfold value at hinit ⊢
    rw [digits, List.foldlM_append, hinit]
    simp only [Option.bind_eq_bind, Option.bind_some, List.foldlM_cons, List.foldlM_nil, hlast,
      Option.map_some,
      Option.pure_def]
    have hpow : n % 10 ^ (width + 1) = n % 10 + 10 * (n / 10 % 10 ^ width) := by
      rw [Nat.pow_succ', Nat.mod_mul]
    rw [hpow, Nat.add_comm]

theorem value_digits_of_lt {width n : Nat} (h : n < 10 ^ width) :
    value (digits width n) = some n := by
  rw [value_digits, Nat.mod_eq_of_lt h]

/-- A numeral of as many digits as it needs. -/
theorem value_toDigits (n : Nat) : value (Nat.toDigits 10 n) = some n := by
  induction n using Nat.strongRecOn with
  | ind n ih =>
    by_cases hlt : n < 10
    · rw [Nat.toDigits_of_lt_base hlt]
      simp [value, digit_digitChar ⟨n, hlt⟩]
    · have hlast := digit_digitChar ⟨n % 10, Nat.mod_lt _ (by decide)⟩
      have hinit := ih (n / 10) (Nat.div_lt_self (by omega) (by decide))
      unfold value at hinit ⊢
      rw [Nat.toDigits_of_base_le (by decide) (Nat.le_of_not_lt hlt), List.foldlM_append, hinit]
      simp only [Option.bind_eq_bind, Option.bind_some, List.foldlM_cons, List.foldlM_nil, hlast,
        Option.map_some,
        Option.pure_def]
      rw [Nat.div_add_mod]

/-! ## Rounding -/

/-- The nearest integer, the one farther from zero when there are two. -/
def nearest (q : ℚ) : ℤ := if 0 ≤ q then ⌊q + 1 / 2⌋ else -⌊-q + 1 / 2⌋

/-- `q` with `scale` digits after the point. -/
def round (scale : Nat) (q : ℚ) : ℚ := nearest (q * 10 ^ scale) / 10 ^ scale

theorem nearest_mono {p q : ℚ} (h : p ≤ q) : nearest p ≤ nearest q := by
  unfold nearest
  split
  · next hp =>
    rw [if_pos (le_trans hp h)]
    exact Int.floor_le_floor (by linarith)
  · next hp =>
    split
    · have h₁ : (0 : ℤ) ≤ ⌊-p + 1 / 2⌋ := Int.floor_nonneg.mpr (by linarith)
      have h₂ : (0 : ℤ) ≤ ⌊q + 1 / 2⌋ := Int.floor_nonneg.mpr (by linarith)
      omega
    · have h₁ : ⌊-q + 1 / 2⌋ ≤ ⌊-p + 1 / 2⌋ := Int.floor_le_floor (by linarith)
      omega

theorem round_mono {scale : Nat} {p q : ℚ} (h : p ≤ q) : round scale p ≤ round scale q := by
  have hpos : (0 : ℚ) < 10 ^ scale := pow_pos (by norm_num) _
  unfold round
  refine div_le_div_of_nonneg_right ?_ (le_of_lt hpos)
  exact_mod_cast nearest_mono (mul_le_mul_of_nonneg_right h (le_of_lt hpos))

end Decimal
