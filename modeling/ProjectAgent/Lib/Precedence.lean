/-
Sorting by a list of numbers, the greatest first, and then by a name: one
precedes another if it is greater at the first number at which they differ, or
if they differ in none and its name is smaller. And the first few of a sorted
list, when only a part of it is sorted.
-/
import Mathlib.Data.List.Sort

namespace Precedence

variable {α κ ν : Type} [LinearOrder κ] [LinearOrder ν]

/-! ## Keys -/

/-- The first is greater at the first place at which they differ. -/
def Greater : List κ → List κ → Prop
  | x :: xs, y :: ys => y < x ∨ x = y ∧ Greater xs ys
  | _, _ => False

instance : DecidableRel (Greater (κ := κ)) := fun xs ys => decide_greater xs ys
where
  decide_greater : (xs ys : List κ) → Decidable (Greater xs ys)
    | x :: xs, y :: ys =>
      have := decide_greater xs ys
      inferInstanceAs (Decidable (y < x ∨ x = y ∧ Greater xs ys))
    | [], _ => .isFalse id
    | _ :: _, [] => .isFalse id

theorem Greater.irrefl (xs : List κ) : ¬ Greater xs xs := by
  induction xs with
  | nil => exact id
  | cons x xs ih =>
    rintro (h | ⟨-, h⟩)
    · exact lt_irrefl x h
    · exact ih h

theorem Greater.trans {xs ys zs : List κ} (h : Greater xs ys) (h' : Greater ys zs) :
    Greater xs zs := by
  induction xs generalizing ys zs with
  | nil => cases h
  | cons x xs ih =>
    cases ys with
    | nil => cases h
    | cons y ys =>
      cases zs with
      | nil => cases h'
      | cons z zs =>
        rcases h with h | ⟨rfl, h⟩
        · rcases h' with h' | ⟨rfl, -⟩
          · exact .inl (h'.trans h)
          · exact .inl h
        · rcases h' with h' | ⟨rfl, h'⟩
          · exact .inl h'
          · exact .inr ⟨rfl, ih h h'⟩

theorem greater_total {xs ys : List κ} (hlength : xs.length = ys.length) :
    Greater xs ys ∨ xs = ys ∨ Greater ys xs := by
  induction xs generalizing ys with
  | nil => exact .inr (.inl (List.length_eq_zero_iff.mp hlength.symm).symm)
  | cons x xs ih =>
    cases ys with
    | nil => cases hlength
    | cons y ys =>
      rcases lt_trichotomy x y with h | rfl | h
      · exact .inr (.inr (.inl h))
      · rcases ih (Nat.succ.inj hlength) with h | rfl | h
        · exact .inl (.inr ⟨rfl, h⟩)
        · exact .inr (.inl rfl)
        · exact .inr (.inr (.inr ⟨rfl, h⟩))
      · exact .inl (.inl h)

/-! ## The order -/

variable (key : α → List κ) (name : α → ν)

/-- Greater at the first number at which they differ, or of a smaller name if they differ in
none. -/
def Precedes (a b : α) : Prop := Greater (key a) (key b) ∨ key a = key b ∧ name a < name b

theorem precedes_cons {x y : κ} {xs ys : List κ} {p : Prop} :
    (Greater (x :: xs) (y :: ys) ∨ x :: xs = y :: ys ∧ p) ↔
      y < x ∨ x = y ∧ (Greater xs ys ∨ xs = ys ∧ p) := by
  rw [List.cons.injEq]
  constructor
  · rintro ((h | ⟨heq, h⟩) | ⟨⟨heq, heqs⟩, hp⟩)
    · exact .inl h
    · exact .inr ⟨heq, .inl h⟩
    · exact .inr ⟨heq, .inr ⟨heqs, hp⟩⟩
  · rintro (h | ⟨heq, h | ⟨heqs, hp⟩⟩)
    · exact .inl (.inl h)
    · exact .inl (.inr ⟨heq, h⟩)
    · exact .inr ⟨⟨heq, heqs⟩, hp⟩

theorem not_greater_nil : ¬ Greater ([] : List κ) [] := Greater.irrefl []

/-- What is sorted by. -/
def Before (a b : α) : Prop := Greater (key a) (key b) ∨ key a = key b ∧ name a ≤ name b

instance : DecidableRel (Before key name) := fun _ _ => inferInstanceAs (Decidable (_ ∨ _))

variable {key name} {a b : α} {l l' : List α}

theorem before_total (hlength : ∀ a b, (key a).length = (key b).length) :
    Std.Total (Before key name) := by
  constructor
  intro a b
  rcases greater_total (hlength a b) with h | h | h
  · exact .inl (.inl h)
  · rcases le_total (name a) (name b) with hname | hname
    · exact .inl (.inr ⟨h, hname⟩)
    · exact .inr (.inr ⟨h.symm, hname⟩)
  · exact .inr (.inl h)

theorem before_trans : IsTrans α (Before key name) := by
  constructor
  rintro a b c (h | ⟨heq, hname⟩) (h' | ⟨heq', hname'⟩)
  · exact .inl (h.trans h')
  · exact .inl (heq' ▸ h)
  · exact .inl (heq ▸ h')
  · exact .inr ⟨heq.trans heq', hname.trans hname'⟩

/-- What comes before each other has one name. -/
theorem before_antisymm (h : Before key name a b) (h' : Before key name b a) : name a = name b := by
  rcases h with h | ⟨heq, hname⟩
  · rcases h' with h' | ⟨heq', -⟩
    · exact absurd (h.trans h') (Greater.irrefl _)
    · exact absurd (heq' ▸ h) (Greater.irrefl _)
  · rcases h' with h' | ⟨-, hname'⟩
    · exact absurd (heq ▸ h') (Greater.irrefl _)
    · exact le_antisymm hname hname'

theorem before_iff_precedes (hne : name a ≠ name b) : Before key name a b ↔ Precedes key name a b :=
  or_congr_right (and_congr_right fun _ => le_iff_lt_or_eq.trans (or_iff_left hne))

/-! ## Sorting -/

section Sorting

variable (hlength : ∀ a b : α, (key a).length = (key b).length)

include hlength

theorem sorted_before : (l.insertionSort (Before key name)).Pairwise (Before key name) := by
  have : Std.Total (Before key name) := before_total hlength
  have : IsTrans α (Before key name) := before_trans
  exact List.pairwise_insertionSort _ _

/-- **The sorted list is in the order of precedence**, of elements with different names. -/
theorem sorted_precedes (hnames : (l.map name).Nodup) :
    (l.insertionSort (Before key name)).Pairwise (Precedes key name) := by
  have hnames' : ((l.insertionSort (Before key name)).map name).Nodup :=
    ((List.perm_insertionSort _ l).map name).nodup_iff.mpr hnames
  refine ((sorted_before hlength).and (List.pairwise_map.mp hnames')).imp fun h => ?_
  exact (before_iff_precedes h.2).mp h.1

/-- A sorted list of these elements is the sorted one. -/
theorem eq_sorted (hnames : (l.map name).Nodup) (hperm : l'.Perm l)
    (hsorted : l'.Pairwise (Before key name)) :
    l' = l.insertionSort (Before key name) := by
  have hperm' := hperm.trans (List.perm_insertionSort (Before key name) l).symm
  refine List.Perm.eq_of_pairwise (fun a b ha hb hab hba => ?_) hsorted
    (sorted_before hlength) hperm'
  exact List.inj_on_of_nodup_map hnames (hperm.mem_iff.mp ha)
    ((List.perm_insertionSort _ l).mem_iff.mp hb) (before_antisymm hab hba)

/-- The order of the elements does not matter. -/
theorem sorted_perm (hnames : (l.map name).Nodup) (hperm : l'.Perm l) :
    l'.insertionSort (Before key name) = l.insertionSort (Before key name) :=
  eq_sorted hlength hnames ((List.perm_insertionSort _ l').trans hperm) (sorted_before hlength)

/-- The part of the sorted list that is sorted alone. -/
theorem sorted_filter (hnames : (l.map name).Nodup) (p : α → Bool) :
    (l.filter p).insertionSort (Before key name) =
      (l.insertionSort (Before key name)).filter p := by
  refine (eq_sorted hlength ?_ ((List.perm_insertionSort _ l).filter p)
    ((sorted_before hlength).filter p)).symm
  exact hnames.sublist (List.filter_sublist.map name)

end Sorting

/-- The first few of a part are the first few of all exactly if these are of the part. -/
theorem take_filter_eq {p : α → Bool} {n : Nat} :
    (l.filter p).take n = l.take n ↔ ∀ a ∈ l.take n, p a = true := by
  constructor
  · intro h a ha
    rw [← h] at ha
    exact (List.mem_filter.mp (List.mem_of_mem_take ha)).2
  · intro h
    have hsplit : l.filter p = l.take n ++ (l.drop n).filter p := by
      have hall := List.filter_eq_self.mpr h
      calc l.filter p = (l.take n ++ l.drop n).filter p := by rw [List.take_append_drop]
        _ = l.take n ++ (l.drop n).filter p := by rw [List.filter_append, hall]
    rw [hsplit, List.take_append, List.take_take, Nat.min_self]
    by_cases hlen : l.length ≤ n
    · rw [List.drop_eq_nil_of_le hlen, List.filter_nil, List.take_nil, List.append_nil]
    · have hfull : (l.take n).length = n := List.length_take_of_le (Nat.le_of_not_le hlen)
      rw [hfull, Nat.sub_self, List.take_zero, List.append_nil]

end Precedence
