/-
The first few of a list in an order, without sorting it: an element is among
them exactly if fewer than so many come before it. And the first of each group
of a sorted list: the ones that none of their group comes before.
-/
import Mathlib.Data.List.Sort

namespace Interleave.Ranking

variable {α : Type} (r : α → α → Prop) [DecidableRel r]

/-- What comes before the element. -/
def before (l : List α) (a : α) : List α := l.filter fun b => r b a ∧ ¬ r a b

variable {r} {l : List α} {a : α} {n : Nat}

/-- In a sorted list without repetitions, what comes before an element is the part of it that
does. -/
theorem before_of_sorted {pre post : List α} (hsorted : (pre ++ a :: post).Pairwise r)
    (hanti : ∀ b ∈ pre, r a b → b = a) (hnodup : (pre ++ a :: post).Nodup) (hrefl : r a a) :
    before r (pre ++ a :: post) a = pre := by
  obtain ⟨-, hpost, hpre⟩ := List.pairwise_append.mp hsorted
  obtain ⟨-, -, hapart⟩ := List.nodup_append.mp hnodup
  unfold before
  rw [List.filter_append]
  have hkeep : pre.filter (fun b => r b a ∧ ¬ r a b) = pre := by
    refine List.filter_eq_self.mpr fun b hb => ?_
    rw [decide_eq_true_eq]
    exact ⟨hpre b hb a List.mem_cons_self, fun hab =>
      hapart b hb a List.mem_cons_self (hanti b hb hab)⟩
  have hdrop : (a :: post).filter (fun b => r b a ∧ ¬ r a b) = [] := by
    refine List.filter_eq_nil_iff.mpr fun b hb => ?_
    rw [decide_eq_true_eq]
    rintro ⟨-, hnot⟩
    rcases List.mem_cons.mp hb with rfl | hb
    · exact hnot hrefl
    · exact hnot ((List.pairwise_cons.mp hpost).1 b hb)
  rw [hkeep, hdrop, List.append_nil]

/-- **An element is among the first `n` exactly if fewer than `n` come before it.** -/
theorem mem_take_sorted [Std.Total r] [IsTrans α r]
    (hanti : ∀ b ∈ l, ∀ c ∈ l, r b c → r c b → b = c) (hnodup : l.Nodup) (ha : a ∈ l) :
    a ∈ (l.insertionSort r).take n ↔ (before r l a).length < n := by
  have hperm := List.perm_insertionSort r l
  have hcount : (before r l a).length = (before r (l.insertionSort r) a).length :=
    (hperm.symm.filter _).length_eq
  have hsorted := List.pairwise_insertionSort r l
  have hnodup' := hperm.nodup_iff.mpr hnodup
  rw [hcount]
  obtain ⟨pre, post, hsplit⟩ := List.append_of_mem (hperm.mem_iff.mpr ha)
  have hrefl : r a a := (Std.Total.total a a).elim id id
  have hmem : ∀ b ∈ pre, b ∈ l := fun b hb => hperm.mem_iff.mp (hsplit ▸ List.mem_append_left _ hb)
  rw [hsplit] at hsorted hnodup' ⊢
  have hbefore := before_of_sorted hsorted (fun b hb hab => hanti b (hmem b hb) a ha
    ((List.pairwise_append.mp hsorted).2.2 b hb a List.mem_cons_self) hab) hnodup' hrefl
  rw [hbefore, List.take_append]
  constructor
  · intro hin
    by_contra hnot
    rcases List.mem_append.mp hin with hin | hin
    · exact (List.nodup_append.mp hnodup').2.2 a (List.mem_of_mem_take hin) a List.mem_cons_self rfl
    · have hzero : n - pre.length = 0 := by omega
      rw [hzero] at hin
      cases hin
  · intro hlt
    obtain ⟨k, hk⟩ : ∃ k, n - pre.length = k + 1 := ⟨n - pre.length - 1, by omega⟩
    rw [hk]
    exact List.mem_append_right _ List.mem_cons_self

/-! ## Without repetitions -/

omit [DecidableRel r] in
theorem nodup_eraseDups [BEq α] [LawfulBEq α] (l : List α) : l.eraseDups.Nodup := by
  match l with
  | [] => exact .nil
  | a :: l =>
    rw [List.eraseDups_cons]
    refine List.nodup_cons.mpr ⟨fun h => ?_, nodup_eraseDups (l.filter fun b => !b == a)⟩
    have hne := (List.mem_filter.mp (List.mem_eraseDups.mp h)).2
    rw [beq_self_eq_true] at hne
    cases hne
termination_by l.length
decreasing_by exact Nat.lt_succ_of_le (List.length_filter_le _ _)

/-! ## The first of each group -/

section Groups

variable {κ : Type} [DecidableEq κ]

/-- The elements whose key is neither among these nor one before them. -/
def firsts (key : α → κ) : List κ → List α → List α
  | _, [] => []
  | seen, a :: l => if key a ∈ seen then firsts key seen l else a :: firsts key (key a :: seen) l

variable {key : α → κ} {seen : List κ}

theorem mem_firsts : a ∈ firsts key seen l ↔
    key a ∉ seen ∧ ∃ pre post, l = pre ++ a :: post ∧ ∀ b ∈ pre, key b ≠ key a := by
  induction l generalizing seen with
  | nil => simp [firsts]
  | cons c l ih =>
    unfold firsts
    split
    · next hseen =>
      rw [ih]
      constructor
      · rintro ⟨ha, pre, post, rfl, hpre⟩
        refine ⟨ha, c :: pre, post, rfl, fun b hb => ?_⟩
        rcases List.mem_cons.mp hb with rfl | hb
        · exact fun hkey => ha (hkey ▸ hseen)
        · exact hpre b hb
      · rintro ⟨ha, pre, post, heq, hpre⟩
        cases pre with
        | nil =>
          obtain ⟨rfl, -⟩ := List.cons.inj heq
          exact absurd hseen ha
        | cons d pre =>
          obtain ⟨rfl, rfl⟩ := List.cons.inj heq
          exact ⟨ha, pre, post, rfl, fun b hb => hpre b (List.mem_cons_of_mem _ hb)⟩
    · next hseen =>
      rw [List.mem_cons, ih]
      constructor
      · rintro (rfl | ⟨ha, pre, post, rfl, hpre⟩)
        · exact ⟨hseen, [], l, rfl, fun b hb => nomatch hb⟩
        · rw [List.mem_cons, not_or] at ha
          refine ⟨ha.2, c :: pre, post, rfl, fun b hb => ?_⟩
          rcases List.mem_cons.mp hb with rfl | hb
          · exact fun hkey => ha.1 hkey.symm
          · exact hpre b hb
      · rintro ⟨ha, pre, post, heq, hpre⟩
        cases pre with
        | nil =>
          obtain ⟨rfl, -⟩ := List.cons.inj heq
          exact .inl rfl
        | cons d pre =>
          obtain ⟨rfl, rfl⟩ := List.cons.inj heq
          refine .inr ⟨?_, pre, post, rfl, fun b hb => hpre b (List.mem_cons_of_mem _ hb)⟩
          rw [List.mem_cons, not_or]
          exact ⟨fun hkey => hpre c List.mem_cons_self hkey.symm, ha⟩

theorem mem_of_mem_firsts (h : a ∈ firsts key seen l) : a ∈ l := by
  obtain ⟨-, pre, post, rfl, -⟩ := mem_firsts.mp h
  exact List.mem_append_right _ List.mem_cons_self

/-- Each group has its first. -/
theorem exists_firsts {k : κ} (hk : k ∉ seen) (hin : k ∈ l.map key) :
    ∃ a ∈ firsts key seen l, key a = k := by
  induction l generalizing seen with
  | nil => exact nomatch hin
  | cons c l ih =>
    unfold firsts
    rw [List.map_cons, List.mem_cons] at hin
    split
    · next hseen =>
      rcases hin with rfl | hin
      · exact absurd hseen hk
      · exact ih hk hin
    · by_cases hc : key c = k
      · exact ⟨c, List.mem_cons_self, hc⟩
      · have hnot : k ∉ key c :: seen := fun h => (List.mem_cons.mp h).elim (fun h => hc h.symm) hk
        obtain ⟨a, ha, hkey⟩ := ih hnot (hin.resolve_left fun h => hc h.symm)
        exact ⟨a, List.mem_cons_of_mem _ ha, hkey⟩

/-- And no other. -/
theorem nodup_firsts (seen : List κ) (l : List α) : ((firsts key seen l).map key).Nodup := by
  induction l generalizing seen with
  | nil => exact .nil
  | cons c l ih =>
    unfold firsts
    split
    · exact ih seen
    · rw [List.map_cons]
      refine List.nodup_cons.mpr ⟨fun h => ?_, ih _⟩
      obtain ⟨a, ha, hkey⟩ := List.mem_map.mp h
      exact (mem_firsts.mp ha).1 (hkey ▸ List.mem_cons_self)

omit [DecidableRel r] in
/-- **The first of a group in a sorted list is the one before all of its group.** -/
theorem mem_firsts_sorted (hsorted : l.Pairwise r)
    (hanti : ∀ b ∈ l, ∀ c ∈ l, key b = key c → r b c → r c b → b = c) (hrefl : ∀ b ∈ l, r b b) :
    a ∈ firsts key [] l ↔ a ∈ l ∧ ∀ b ∈ l, key b = key a → r a b := by
  rw [mem_firsts]
  constructor
  · rintro ⟨-, pre, post, rfl, hpre⟩
    refine ⟨List.mem_append_right _ List.mem_cons_self, fun b hb hkey => ?_⟩
    obtain ⟨-, hpost, -⟩ := List.pairwise_append.mp hsorted
    rcases List.mem_append.mp hb with hb | hb
    · exact absurd hkey (hpre b hb)
    · rcases List.mem_cons.mp hb with rfl | hb
      · exact hrefl b (List.mem_append_right _ List.mem_cons_self)
      · exact (List.pairwise_cons.mp hpost).1 b hb
  · rintro ⟨ha, hfirst⟩
    obtain ⟨pre, post, rfl, hpre⟩ := List.eq_append_cons_of_mem ha
    refine ⟨List.not_mem_nil, pre, post, rfl, fun b hb hkey => ?_⟩
    -- one of its group that stood before it would be before it and after it
    have hbl : b ∈ pre ++ a :: post := List.mem_append_left _ hb
    have hba : r b a := (List.pairwise_append.mp hsorted).2.2 b hb a List.mem_cons_self
    exact hpre (hanti b hbl a ha hkey hba (hfirst b hbl hkey) ▸ hb)

omit [DecidableRel r] in
/-- The groups together are the list. -/
theorem flatMap_groups_perm {keys : List κ} (hnodup : keys.Nodup) (hkeys : ∀ a ∈ l, key a ∈ keys) :
    (keys.flatMap fun k => l.filter (key · = k)).Perm l := by
  induction keys generalizing l with
  | nil =>
    obtain rfl : l = [] := List.eq_nil_iff_forall_not_mem.mpr fun a ha => nomatch hkeys a ha
    exact .nil
  | cons k keys ih =>
    obtain ⟨hk, hnodup⟩ := List.nodup_cons.mp hnodup
    have hrest : (keys.flatMap fun k' => (l.filter (!key · = k)).filter (key · = k')).Perm
        (l.filter (!key · = k)) := by
      refine ih hnodup fun a ha => ?_
      obtain ⟨ha, hne⟩ := List.mem_filter.mp ha
      rw [Bool.not_eq_true', decide_eq_false_iff_not] at hne
      exact (List.mem_cons.mp (hkeys a ha)).resolve_left hne
    have hsame : (keys.flatMap fun k' => (l.filter (!key · = k)).filter (key · = k')) =
        keys.flatMap fun k' => l.filter (key · = k') := by
      refine List.flatMap_congr fun k' hk' => ?_
      rw [List.filter_filter]
      refine List.filter_congr fun a _ => ?_
      by_cases h : key a = k'
      · have hne : k' ≠ k := fun heq => hk (heq ▸ hk')
        simp [h, hne]
      · simp [h]
    rw [List.flatMap_cons, ← hsame]
    exact (hrest.append_left _).trans (List.filter_append_perm _ l)

end Groups

end Interleave.Ranking
