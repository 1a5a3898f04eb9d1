/-
A list without repetitions, each element where it is first: what is appended
to it, filtering it, and taking the repetitions out twice.
-/
import Mathlib.Data.List.Induction

namespace FirstSeen

variable {α : Type} [BEq α] [LawfulBEq α] {l m : List α} {a : α}

theorem eraseDups_concat :
    (l ++ [a]).eraseDups = if l.contains a then l.eraseDups else l.eraseDups ++ [a] := by
  rw [List.eraseDups_append]
  unfold List.removeAll
  by_cases ha : l.contains a = true
  · have hnone : [a].filter (fun b => !l.elem b) = [] := List.filter_cons_of_neg (by simpa using ha)
    rw [if_pos ha, hnone, List.eraseDups_nil, List.append_nil]
  · have hone : [a].filter (fun b => !l.elem b) = [a] := List.filter_cons_of_pos (by simpa using ha)
    rw [if_neg ha, hone]
    rfl

theorem eraseDups_filter {p : α → Bool} : (l.filter p).eraseDups = l.eraseDups.filter p := by
  induction l using List.reverseRecOn with
  | nil => rfl
  | append_singleton l a ih =>
    rw [List.filter_append, eraseDups_concat]
    by_cases hp : p a = true
    · have hcontains : (l.filter p).contains a = l.contains a := by
        rw [Bool.eq_iff_iff, List.contains_iff_mem, List.contains_iff_mem, List.mem_filter,
          and_iff_left hp]
      rw [List.filter_cons_of_pos hp, List.filter_nil, eraseDups_concat, hcontains, ih]
      split
      · rfl
      · rw [List.filter_append, List.filter_cons_of_pos hp, List.filter_nil]
    · rw [List.filter_cons_of_neg hp, List.filter_nil, List.append_nil, ih]
      split
      · rfl
      · rw [List.filter_append, List.filter_cons_of_neg hp, List.filter_nil, List.append_nil]

theorem eraseDups_twice : l.eraseDups.eraseDups = l.eraseDups := by
  induction l using List.reverseRecOn with
  | nil => rfl
  | append_singleton l a ih =>
    rw [eraseDups_concat]
    split
    · exact ih
    · next ha =>
      have hcontains : ¬ l.eraseDups.contains a = true := by
        rwa [List.contains_iff_mem, List.mem_eraseDups, ← List.contains_iff_mem]
      rw [eraseDups_concat, if_neg hcontains, ih]

theorem eraseDups_append_left : (l.eraseDups ++ m).eraseDups = (l ++ m).eraseDups := by
  induction m using List.reverseRecOn with
  | nil => rw [List.append_nil, List.append_nil, eraseDups_twice]
  | append_singleton m a ih =>
    have hcontains : (l.eraseDups ++ m).contains a = (l ++ m).contains a := by
      rw [Bool.eq_iff_iff, List.contains_iff_mem, List.contains_iff_mem, List.mem_append,
        List.mem_append, List.mem_eraseDups]
    rw [← List.append_assoc, ← List.append_assoc, eraseDups_concat, eraseDups_concat, hcontains, ih]

end FirstSeen
