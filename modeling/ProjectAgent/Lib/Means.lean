/-
Sums of doubles, and their means, medians and percentiles. A sum goes wrong
where it is too large for a double on the way, or infinite to both sides.
-/
import Mathlib.Algebra.Order.BigOperators.Group.List
import Mathlib.Data.List.Sort
import ProjectAgent.Lib.Double

namespace Double

/-! ## Signs -/

section Signs

variable {p q : ℚ}

theorem halfEven_neg : halfEven (-q) = -halfEven q := by
  by_cases hint : q = ⌊q⌋
  · rw [hint, ← Int.cast_neg, halfEven_intCast, halfEven_intCast]
  · have hlow : (⌊q⌋ : ℚ) < q := lt_of_le_of_ne (Int.floor_le q) (Ne.symm hint)
    have hhigh : q < ⌊q⌋ + 1 := Int.lt_floor_add_one q
    have hfloor : ⌊-q⌋ = -⌊q⌋ - 1 := by
      rw [Int.floor_eq_iff, Int.cast_sub, Int.cast_neg, Int.cast_one]
      constructor <;> linarith
    unfold halfEven
    rw [hfloor, Int.cast_sub, Int.cast_neg, Int.cast_one]
    split_ifs <;> first | omega | (exfalso; linarith)

theorem ulp_neg : ulp (-q) = ulp q := by
  unfold ulp
  rw [abs_neg]

theorem double_neg : double (-q) = -double q := by
  by_cases hzero : q = 0
  · rw [hzero, neg_zero, double_zero, neg_zero]
  · unfold double
    rw [if_neg hzero, if_neg (neg_ne_zero.mpr hzero), ulp_neg, neg_div, halfEven_neg,
      Int.cast_neg, neg_mul]

theorem double_nonneg (h : 0 ≤ q) : 0 ≤ double q := by
  rcases h.eq_or_lt with rfl | hpos
  · exact double_zero.ge
  · exact (double_pos hpos).le

theorem abs_double : |double q| = double |q| := by
  rcases le_total 0 q with hq | hq
  · rw [abs_of_nonneg hq, abs_of_nonneg (double_nonneg hq)]
  · have hneg := double_nonneg (neg_nonneg.mpr hq)
    rw [double_neg] at hneg
    rw [abs_of_nonpos hq, abs_of_nonpos (neg_nonneg.mp hneg), double_neg]

/-- What is less in magnitude is rounded to less. -/
theorem abs_double_le (h : |p| ≤ q) : |double p| ≤ double q := by
  rw [abs_double]
  rcases (abs_nonneg p).eq_or_lt with hzero | hpos
  · rw [← hzero, double_zero]
    exact double_nonneg (hzero ▸ h)
  · exact double_mono hpos h

end Signs

/-! ## Sums -/

/-- `sum` of doubles: what the rounding of each step leaves out is kept, and added to the total in
the end. -/
def compensated (total lost : ℚ) : List ℚ → ℚ
  | [] => double (total + lost)
  | x :: xs =>
    let next := double (total + x)
    let left := if |x| ≤ |total| then double (double (total - next) + x)
      else double (double (x - next) + total)
    compensated next (double (lost + left)) xs

def sum : List ℚ → ℚ
  | [] => 0
  | x :: xs => compensated x 0 xs

/-- What a sum may raise. -/
inductive SumError where
  | tooLarge
  | bothInfinite
deriving DecidableEq

namespace Number

def mul : Number → Number → Number
  | nan, _ | _, nan => nan
  | infinity n, infinity m => infinity (n != m)
  | infinity n, finite q | finite q, infinity n =>
    if q = 0 then nan else infinity (n != decide (q < 0))
  | finite p, finite q => ofRat (p * q)

/-- A number as so many parts. -/
def divNat : Number → ℕ → Number
  | finite q, n => ofRat (q / n)
  | x, _ => x

/-- `math.fsum`: the exact sum, rounded once. What is not finite is added up apart, and the sum
begun again after it. -/
def fsumFrom (total : ℚ) (special infinite : Number) : List Number → Except SumError Number
  | [] =>
    if special = finite 0 then .ok (finite (double total))
    else if infinite = nan then .error .bothInfinite else .ok special
  | finite q :: xs =>
    if 2 ^ 1024 ≤ |double (total + q)| then .error .tooLarge
      else fsumFrom (total + q) special infinite xs
  | nan :: xs => fsumFrom 0 (special.add nan) infinite xs
  | infinity n :: xs => fsumFrom 0 (special.add (infinity n)) (infinite.add (infinity n)) xs

def fsum (xs : List Number) : Except SumError Number := fsumFrom 0 (finite 0) (finite 0) xs

/-- `statistics.fmean`, of some numbers. -/
def fmean (xs : List Number) : Except SumError Number := (fsum xs).map (·.divNat xs.length)

/-- In order; there is none where one is not a number. -/
def sorted (xs : List Number) : List Number := xs.insertionSort fun x y => x.le y

/-- `statistics.median`, of some numbers. -/
def median (xs : List Number) : Number :=
  let middle := xs.length / 2
  if xs.length % 2 = 1 then (sorted xs).getD middle nan
  else (((sorted xs).getD (middle - 1) nan).add ((sorted xs).getD middle nan)).divNat 2

/-- The least of the numbers that so large a part of them does not exceed. -/
def percentile (xs : List Number) (part : ℚ) : Option Number :=
  (sorted xs)[(⌈double (part * xs.length)⌉ - 1).toNat]?

/-! ## When they are there -/

def magnitude : Number → ℚ
  | finite q => |q|
  | nan | infinity _ => 0

theorem magnitude_nonneg (x : Number) : 0 ≤ x.magnitude := by
  cases x with
  | finite q => exact abs_nonneg q
  | nan => exact le_rfl
  | infinity n => exact le_rfl

/-- The magnitudes add up to a double, and no two are infinite to different sides. -/
structure Addable (xs : List Number) : Prop where
  fits : double (xs.map magnitude).sum < 2 ^ 1024
  oneSided : infinity true ∉ xs ∨ infinity false ∉ xs

theorem Addable.perm {xs ys : List Number} (h : Addable xs) (hperm : xs.Perm ys) : Addable ys where
  fits := by
    rw [← (hperm.map magnitude).sum_eq]
    exact h.fits
  oneSided := h.oneSided.imp (mt hperm.mem_iff.mpr) (mt hperm.mem_iff.mpr)

/-- What the infinite ones so far add up to. -/
def Sided (n : Bool) (x : Number) : Prop := x = finite 0 ∨ x = infinity n

theorem Sided.add {n : Bool} {x : Number} (h : Sided n x) : Sided n (x.add (infinity n)) := by
  rcases h with rfl | rfl
  · exact .inr rfl
  · exact .inr (if_pos rfl)

theorem Sided.ne_nan {n : Bool} {x : Number} (h : Sided n x) : x ≠ nan := by
  rcases h with rfl | rfl <;> exact Number.noConfusion

/-- **A sum is there** where the magnitudes fit and the infinite ones are on one side: by induction
on what is still to be added. -/
theorem fsumFrom_exists {n : Bool} {xs : List Number} {total : ℚ} {special infinite : Number}
    (hfits : double (|total| + (xs.map magnitude).sum) < 2 ^ 1024) (hside : infinity (!n) ∉ xs)
    (hinfinite : Sided n infinite) :
    ∃ found, fsumFrom total special infinite xs = .ok found := by
  induction xs generalizing total special infinite with
  | nil =>
    unfold fsumFrom
    split
    · exact ⟨_, rfl⟩
    · rw [if_neg hinfinite.ne_nan]
      exact ⟨_, rfl⟩
  | cons x xs ih =>
    have hside' : infinity (!n) ∉ xs := mt (List.mem_cons_of_mem x) hside
    have hsum : 0 ≤ (xs.map magnitude).sum := by
      refine List.sum_nonneg fun y hy => ?_
      obtain ⟨x, -, rfl⟩ := List.mem_map.mp hy
      exact x.magnitude_nonneg
    rw [List.map_cons, List.sum_cons] at hfits
    -- what is not finite starts the sum again
    have hrest : double (|(0 : ℚ)| + (xs.map magnitude).sum) < 2 ^ 1024 := by
      refine lt_of_le_of_lt (le_trans (le_abs_self _) (abs_double_le ?_)) hfits
      rw [abs_zero, zero_add, abs_of_nonneg hsum]
      have htotal := abs_nonneg total
      have hhead := x.magnitude_nonneg
      linarith
    cases x with
    | finite q =>
      change double (|total| + (|q| + (xs.map magnitude).sum)) < 2 ^ 1024 at hfits
      have hadd := abs_add_le total q
      have hnext : ¬ 2 ^ 1024 ≤ |double (total + q)| :=
        not_le.mpr (lt_of_le_of_lt (abs_double_le (by linarith)) hfits)
      unfold fsumFrom
      rw [if_neg hnext]
      refine ih (lt_of_le_of_lt (le_trans (le_abs_self _) (abs_double_le ?_)) hfits)
        hside' hinfinite
      rw [abs_of_nonneg (add_nonneg (abs_nonneg _) hsum)]
      linarith
    | nan => exact ih hrest hside' hinfinite
    | infinity m =>
      have hsame : m = n := by
        cases m <;> cases n <;> simp_all
      subst hsame
      exact ih hrest hside' hinfinite.add

theorem Addable.fmean_exists {xs : List Number} (h : Addable xs) : ∃ mean, fmean xs = .ok mean := by
  have hfits : double (|(0 : ℚ)| + (xs.map magnitude).sum) < 2 ^ 1024 := by
    rw [abs_zero, zero_add]
    exact h.fits
  have hsum : ∃ total, fsum xs = .ok total := by
    rcases h.oneSided with hside | hside
    · exact fsumFrom_exists (n := false) hfits hside (.inl rfl)
    · exact fsumFrom_exists (n := true) hfits hside (.inl rfl)
  obtain ⟨total, htotal⟩ := hsum
  unfold fmean
  rw [htotal]
  exact ⟨_, rfl⟩

end Number

end Double
