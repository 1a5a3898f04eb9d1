/-
Rounding to a floating-point number of 53 binary digits, to the nearest and of
two to the even one. Exponents are not bounded: the numbers here neither
overflow nor underflow.
-/
import Mathlib.Data.Int.Log
import Mathlib.Data.Rat.Floor
import Mathlib.Tactic.Linarith

namespace Double

variable {p q : ℚ}

/-! ## Integers -/

/-- The nearest integer, of two the even one. -/
def halfEven (q : ℚ) : ℤ :=
  if q - ⌊q⌋ < 1 / 2 then ⌊q⌋
  else if 1 / 2 < q - ⌊q⌋ then ⌊q⌋ + 1
  else if ⌊q⌋ % 2 = 0 then ⌊q⌋ else ⌊q⌋ + 1

theorem halfEven_intCast (n : ℤ) : halfEven n = n := by
  unfold halfEven
  rw [Int.floor_intCast, sub_self, if_pos (by norm_num)]

theorem floor_le_halfEven : ⌊q⌋ ≤ halfEven q := by
  unfold halfEven
  split_ifs <;> omega

theorem halfEven_le_floor : halfEven q ≤ ⌊q⌋ + 1 := by
  unfold halfEven
  split_ifs <;> omega

theorem halfEven_mono (h : p ≤ q) : halfEven p ≤ halfEven q := by
  rcases (Int.floor_le_floor h).lt_or_eq with hlt | heq
  · calc halfEven p ≤ ⌊p⌋ + 1 := halfEven_le_floor
      _ ≤ ⌊q⌋ := hlt
      _ ≤ halfEven q := floor_le_halfEven
  · unfold halfEven
    rw [heq]
    have hle : p - ⌊q⌋ ≤ q - ⌊q⌋ := by linarith
    split_ifs <;> first | omega | (exfalso; linarith)

/-! ## Floating point -/

/-- The unit in the last place. -/
def ulp (q : ℚ) : ℚ := 2 ^ (Int.log 2 |q| - 52)

def double (q : ℚ) : ℚ := if q = 0 then 0 else halfEven (q / ulp q) * ulp q

theorem ulp_pos : 0 < ulp q := zpow_pos (by norm_num) _

@[simp] theorem double_zero : double 0 = 0 := if_pos rfl

/-- A power of two as so many units. -/
theorem pow_ulp (k : ℕ) (hq : 0 < q) : (2 : ℚ) ^ k * ulp q = 2 ^ (Int.log 2 q - 52 + k) := by
  unfold ulp
  rw [abs_of_pos hq, zpow_add₀ (by norm_num), zpow_natCast, mul_comm]

theorem pow_le_double (hq : 0 < q) : (2 : ℚ) ^ Int.log 2 q ≤ double q := by
  have hlow : (2 : ℚ) ^ Int.log 2 q ≤ q := by
    exact_mod_cast Int.zpow_log_le_self (b := 2) (by decide) hq
  have hunits : (2 : ℚ) ^ 52 * ulp q = 2 ^ Int.log 2 q := by
    rw [pow_ulp 52 hq]
    congr 1
    omega
  have hquotient : ((2 ^ 52 : ℤ) : ℚ) ≤ q / ulp q := by
    rw [le_div_iff₀ ulp_pos, Int.cast_pow, Int.cast_ofNat, hunits]
    exact hlow
  have hinteger := halfEven_mono hquotient
  rw [halfEven_intCast] at hinteger
  unfold double
  rw [if_neg hq.ne', ← hunits]
  refine mul_le_mul_of_nonneg_right ?_ ulp_pos.le
  exact_mod_cast hinteger

theorem double_le_pow (hq : 0 < q) : double q ≤ 2 ^ (Int.log 2 q + 1) := by
  have hhigh : q < (2 : ℚ) ^ (Int.log 2 q + 1) := by
    exact_mod_cast Int.lt_zpow_succ_log_self (b := 2) (by decide) q
  have hunits : (2 : ℚ) ^ 53 * ulp q = 2 ^ (Int.log 2 q + 1) := by
    rw [pow_ulp 53 hq]
    congr 1
    omega
  have hquotient : q / ulp q ≤ ((2 ^ 53 : ℤ) : ℚ) := by
    rw [div_le_iff₀ ulp_pos, Int.cast_pow, Int.cast_ofNat, hunits]
    exact hhigh.le
  have hinteger := halfEven_mono hquotient
  rw [halfEven_intCast] at hinteger
  unfold double
  rw [if_neg hq.ne', ← hunits]
  refine mul_le_mul_of_nonneg_right ?_ ulp_pos.le
  exact_mod_cast hinteger

theorem double_pos (hq : 0 < q) : 0 < double q :=
  lt_of_lt_of_le (zpow_pos (by norm_num) _) (pow_le_double hq)

/-- **Rounding keeps the order**, of numbers that are positive. -/
theorem double_mono (hp : 0 < p) (h : p ≤ q) : double p ≤ double q := by
  have hq := lt_of_lt_of_le hp h
  rcases (Int.log_mono_right (b := 2) hp h).lt_or_eq with hlt | heq
  · calc double p ≤ 2 ^ (Int.log 2 p + 1) := double_le_pow hp
      _ ≤ 2 ^ Int.log 2 q := zpow_le_zpow_right₀ (by norm_num) hlt
      _ ≤ double q := pow_le_double hq
  · have hsame : ulp p = ulp q := by
      unfold ulp
      rw [abs_of_pos hp, abs_of_pos hq, heq]
    unfold double
    rw [if_neg hp.ne', if_neg hq.ne', hsame]
    refine mul_le_mul_of_nonneg_right ?_ ulp_pos.le
    exact_mod_cast halfEven_mono (div_le_div_of_nonneg_right h ulp_pos.le)

theorem double_one : double 1 = 1 := by
  have hulp : ulp 1 = 1 / 2 ^ 52 := by
    unfold ulp
    rw [abs_one, Int.log_one_right]
    norm_num
  have hunits : (1 : ℚ) / (1 / 2 ^ 52) = ((2 ^ 52 : ℤ) : ℚ) := by norm_num
  unfold double
  rw [if_neg one_ne_zero, hulp, hunits, halfEven_intCast]
  norm_num

/-- The number before one. -/
theorem double_before_one : double (1 - 1 / 2 ^ 53) = 1 - 1 / 2 ^ 53 := by
  have hpos : (0 : ℚ) < 1 - 1 / 2 ^ 53 := by norm_num
  have hlog : Int.log 2 (1 - 1 / 2 ^ 53 : ℚ) = -1 := by
    refine le_antisymm ?_ ?_
    · have hlt := (Int.lt_zpow_iff_log_lt (b := 2) (by decide) (x := 0) hpos).mp (by norm_num)
      omega
    · exact (Int.zpow_le_iff_le_log (b := 2) (by decide) hpos).mp (by norm_num)
  have hulp : ulp (1 - 1 / 2 ^ 53) = 1 / 2 ^ 53 := by
    unfold ulp
    rw [abs_of_pos hpos, hlog]
    norm_num
  have hunits : (1 - 1 / 2 ^ 53 : ℚ) / (1 / 2 ^ 53) = ((2 ^ 53 - 1 : ℤ) : ℚ) := by norm_num
  unfold double
  rw [if_neg hpos.ne', hulp, hunits, halfEven_intCast]
  norm_num

/-- **A part that is less than the whole is rounded to less than one**, up to so many. -/
theorem double_div_lt_one {part whole : ℕ} (h : part < whole) (hwhole : whole ≤ 2 ^ 53) :
    double (part / whole) < 1 := by
  have hpos : (0 : ℚ) < whole := by exact_mod_cast Nat.zero_lt_of_lt h
  rcases Nat.eq_zero_or_pos part with rfl | hpart
  · rw [Nat.cast_zero, zero_div, double_zero]
    exact zero_lt_one
  · have hquotient : (0 : ℚ) < part / whole := div_pos (by exact_mod_cast hpart) hpos
    have hle : (part / whole : ℚ) ≤ 1 - 1 / 2 ^ 53 := by
      have hone : (part : ℚ) ≤ whole - 1 := by
        rw [le_sub_iff_add_le]
        exact_mod_cast h
      have hinverse : (1 / 2 ^ 53 : ℚ) ≤ 1 / whole :=
        one_div_le_one_div_of_le hpos (by exact_mod_cast hwhole)
      calc (part / whole : ℚ) ≤ (whole - 1) / whole := div_le_div_of_nonneg_right hone hpos.le
        _ = 1 - 1 / whole := by rw [sub_div, div_self hpos.ne']
        _ ≤ 1 - 1 / 2 ^ 53 := by linarith
    calc double (part / whole) ≤ double (1 - 1 / 2 ^ 53) := double_mono hquotient hle
      _ = 1 - 1 / 2 ^ 53 := double_before_one
      _ < 1 := by norm_num

/-- `round(x, digits)`. -/
def roundTo (digits : ℕ) (q : ℚ) : ℚ := double (halfEven (q * 10 ^ digits) / 10 ^ digits)

/-! ## Doubles -/

/-- A double is a number, or none, or infinite. -/
inductive Number where
  | nan
  | infinity (negative : Bool)
  | finite (value : ℚ)
deriving DecidableEq

namespace Number

/-- The nearest double; beyond the greatest one it is infinite. -/
def ofRat (q : ℚ) : Number :=
  if 2 ^ 1024 ≤ |double q| then infinity (decide (q < 0)) else finite (double q)

/-- `float(n)` of an integer, which may be too large for it. -/
def ofInt (n : ℤ) : Option Number :=
  if 2 ^ 1024 ≤ |double n| then none else some (finite (double n))

def add : Number → Number → Number
  | nan, _ | _, nan => nan
  | infinity n, infinity m => if n = m then infinity n else nan
  | infinity n, finite _ | finite _, infinity n => infinity n
  | finite p, finite q => ofRat (p + q)

/-- Nothing is less than what is not a number. -/
def lt : Number → Number → Bool
  | nan, _ | _, nan => false
  | infinity n, infinity m => n && !m
  | infinity n, finite _ => n
  | finite _, infinity n => !n
  | finite p, finite q => p < q

def le (x y : Number) : Bool := lt x y || (x == y && x ≠ nan)

theorem ofRat_ne_nan : ofRat q ≠ nan := by
  unfold ofRat
  split <;> exact nofun

/-- A number is less than another, or not. -/
theorem lt_of_not_le {x y : Number} (h : le x y = false) : lt y x = true ∨ x = nan ∨ y = nan := by
  unfold le at h
  rw [Bool.or_eq_false_iff] at h
  obtain ⟨hlt, hne⟩ := h
  cases x with
  | nan => exact .inr (.inl rfl)
  | infinity n =>
    cases y with
    | nan => exact .inr (.inr rfl)
    | infinity m => cases n <;> cases m <;> simp_all [lt]
    | finite q => cases n <;> simp_all [lt]
  | finite p =>
    cases y with
    | nan => exact .inr (.inr rfl)
    | infinity m => cases m <;> simp_all [lt]
    | finite q =>
      refine .inl (decide_eq_true ?_)
      have hle : ¬ p < q := of_decide_eq_false hlt
      have hdiffer : p ≠ q := by simpa using hne
      exact lt_of_le_of_ne (not_lt.mp hle) hdiffer.symm

theorem le_nan {x : Number} : le nan x = false := by
  cases x <;> rfl

end Number

end Double
