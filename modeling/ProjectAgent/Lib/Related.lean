/-
Lists that are related element by element stay so when they are sorted and
numbered, and give the same for whatever related elements have in common.
-/
import Mathlib.Data.List.Forall2
import Mathlib.Data.List.Sort

namespace Related

variable {α β γ : Type} {R : α → β → Prop} {l : List α} {l' : List β}

theorem map_eq {f : α → γ} {g : β → γ} (hfg : ∀ a b, R a b → f a = g b) (h : List.Forall₂ R l l') :
    l.map f = l'.map g := by
  induction h with
  | nil => rfl
  | cons hab _ ih => rw [List.map_cons, List.map_cons, hfg _ _ hab, ih]

theorem filterMap_eq {f : α → Option γ} {g : β → Option γ} (hfg : ∀ a b, R a b → f a = g b)
    (h : List.Forall₂ R l l') :
    l.filterMap f = l'.filterMap g := by
  induction h with
  | nil => rfl
  | cons hab _ ih => rw [List.filterMap_cons, List.filterMap_cons, hfg _ _ hab, ih]

theorem filter {p : α → Bool} {q : β → Bool} (hpq : ∀ a b, R a b → p a = q b)
    (h : List.Forall₂ R l l') :
    List.Forall₂ R (l.filter p) (l'.filter q) := by
  induction h with
  | nil => exact .nil
  | cons hab _ ih =>
    rw [List.filter_cons, List.filter_cons, hpq _ _ hab]
    split
    · exact .cons hab ih
    · exact ih

theorem zipIdx (h : List.Forall₂ R l l') (n : Nat) :
    List.Forall₂ (fun a b => R a.1 b.1 ∧ a.2 = b.2) (l.zipIdx n) (l'.zipIdx n) := by
  induction h generalizing n with
  | nil => exact .nil
  | cons hab _ ih => exact .cons ⟨hab, rfl⟩ (ih (n + 1))

theorem mem_left (h : List.Forall₂ R l l') {a : α} (ha : a ∈ l) : ∃ b ∈ l', R a b := by
  induction h with
  | nil => cases ha
  | cons hab _ ih =>
    rcases List.mem_cons.mp ha with rfl | ha
    · exact ⟨_, List.mem_cons_self, hab⟩
    · obtain ⟨b, hb, hab⟩ := ih ha
      exact ⟨b, List.mem_cons_of_mem _ hb, hab⟩

section Sorting

variable {r : α → α → Prop} [DecidableRel r] {s : β → β → Prop} [DecidableRel s]

theorem orderedInsert (hrs : ∀ a b, R a b → ∀ a' b', R a' b' → (r a a' ↔ s b b')) {a : α} {b : β}
    (hab : R a b) (h : List.Forall₂ R l l') :
    List.Forall₂ R (l.orderedInsert r a) (l'.orderedInsert s b) := by
  induction h with
  | nil => exact .cons hab .nil
  | @cons c d l l' hcd hrest ih =>
    rw [List.orderedInsert_cons, List.orderedInsert_cons]
    by_cases hle : r a c
    · rw [if_pos hle, if_pos ((hrs a b hab c d hcd).mp hle)]
      exact .cons hab (.cons hcd hrest)
    · rw [if_neg hle, if_neg fun hle' => hle ((hrs a b hab c d hcd).mpr hle')]
      exact .cons hcd ih

/-- **Lists are sorted alike by orders that agree.** -/
theorem insertionSort (hrs : ∀ a b, R a b → ∀ a' b', R a' b' → (r a a' ↔ s b b'))
    (h : List.Forall₂ R l l') :
    List.Forall₂ R (l.insertionSort r) (l'.insertionSort s) := by
  induction h with
  | nil => exact .nil
  | cons hab _ ih => exact orderedInsert hrs hab ih

end Sorting

end Related
