/-
A dictionary as the list of its items, in the order their keys were first
assigned: assigning to a key that is there replaces its value where it stands.
-/
import Mathlib.Data.List.Nodup

namespace Assigned

variable {κ α : Type} [DecidableEq κ] {items entries : List (κ × α)} {key other : κ} {value : α}
  {entry : κ × α}

/-- `items[key] = value`. -/
def assign : List (κ × α) → κ → α → List (κ × α)
  | [], key, value => [(key, value)]
  | entry :: items, key, value =>
    if entry.1 = key then (key, value) :: items else entry :: assign items key value

/-- Assigned one after another. -/
def collect (entries : List (κ × α)) : List (κ × α) :=
  entries.foldl (fun items entry => assign items entry.1 entry.2) []

theorem mem_assign (h : entry ∈ assign items key value) : entry ∈ items ∨ entry = (key, value) := by
  induction items with
  | nil => exact .inr (List.mem_singleton.mp h)
  | cons first items ih =>
    unfold assign at h
    split at h
    · rcases List.mem_cons.mp h with h | h
      · exact .inr h
      · exact .inl (List.mem_cons_of_mem _ h)
    · rcases List.mem_cons.mp h with h | h
      · exact .inl (h ▸ List.mem_cons_self)
      · exact (ih h).imp_left (List.mem_cons_of_mem _)

theorem assign_new (h : key ∉ items.map Prod.fst) :
    assign items key value = items ++ [(key, value)] := by
  induction items with
  | nil => rfl
  | cons first items ih =>
    rw [List.map_cons, List.mem_cons, not_or] at h
    unfold assign
    rw [if_neg (Ne.symm h.1), ih h.2, List.cons_append]

theorem keys_assign : (assign items key value).map Prod.fst =
    if key ∈ items.map Prod.fst then items.map Prod.fst else items.map Prod.fst ++ [key] := by
  induction items with
  | nil => rfl
  | cons first items ih =>
    unfold assign
    by_cases hfirst : first.1 = key
    · rw [if_pos hfirst, List.map_cons, List.map_cons, hfirst, if_pos List.mem_cons_self]
    · have hmem : key ∈ (first :: items).map Prod.fst ↔ key ∈ items.map Prod.fst := by
        rw [List.map_cons, List.mem_cons, or_iff_right (Ne.symm hfirst)]
      rw [if_neg hfirst, List.map_cons, ih]
      by_cases hkey : key ∈ items.map Prod.fst
      · rw [if_pos hkey, if_pos (hmem.mpr hkey), List.map_cons]
      · rw [if_neg hkey, if_neg fun h => hkey (hmem.mp h), List.map_cons, List.cons_append]

theorem nodup_assign (h : (items.map Prod.fst).Nodup) :
    ((assign items key value).map Prod.fst).Nodup := by
  rw [keys_assign]
  split
  · exact h
  · next hnew => exact List.nodup_append.mpr ⟨h, List.nodup_singleton _, fun a ha b hb heq =>
      hnew (List.mem_singleton.mp hb ▸ heq ▸ ha)⟩

/-- What is in the dictionary was assigned. -/
theorem mem_collect (h : entry ∈ collect entries) : entry ∈ entries := by
  have hfold : ∀ (entries items : List (κ × α)),
      entry ∈ entries.foldl (fun items entry => assign items entry.1 entry.2) items →
        entry ∈ items ∨ entry ∈ entries := by
    intro entries
    induction entries with
    | nil => exact fun _ h => .inl h
    | cons first entries ih =>
      intro items h
      rcases ih _ h with h | h
      · rcases mem_assign h with h | rfl
        · exact .inl h
        · exact .inr List.mem_cons_self
      · exact .inr (List.mem_cons_of_mem _ h)
  exact (hfold entries [] h).resolve_left List.not_mem_nil

theorem nodup_collect : ((collect entries).map Prod.fst).Nodup := by
  have hfold : ∀ (entries items : List (κ × α)), (items.map Prod.fst).Nodup →
      ((entries.foldl (fun items entry => assign items entry.1 entry.2) items).map Prod.fst).Nodup
        := by
    intro entries
    induction entries with
    | nil => exact fun _ h => h
    | cons first entries ih => exact fun _ h => ih _ (nodup_assign h)
  exact hfold entries [] List.nodup_nil

/-- **Items with different keys are assigned as they are**. -/
theorem collect_eq (h : (entries.map Prod.fst).Nodup) : collect entries = entries := by
  have hfold : ∀ (entries items : List (κ × α)), ((items ++ entries).map Prod.fst).Nodup →
      entries.foldl (fun items entry => assign items entry.1 entry.2) items = items ++ entries := by
    intro entries
    induction entries with
    | nil => exact fun items _ => (List.append_nil items).symm
    | cons first entries ih =>
      intro items h
      have hnew : first.1 ∉ items.map Prod.fst := by
        rw [List.map_append, List.map_cons] at h
        exact fun hmem => (List.nodup_append.mp h).2.2 _ hmem _ List.mem_cons_self rfl
      rw [List.foldl_cons, assign_new hnew]
      rw [List.append_cons] at h
      rw [ih _ h, ← List.append_cons]
  exact (hfold entries [] h).trans (List.nil_append _)

end Assigned
