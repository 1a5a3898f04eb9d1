/-
An append-only log whose entries are numbered upwards, and one who reads it in
pages past a cursor: what lies past a number and what lies between two, and
what becomes of that as entries are read and as the log grows.
-/
import Mathlib.Data.List.Sort

namespace Interleave.Log

variable {α : Type} (num : α → Nat)

def Ascending (log : List α) : Prop := log.Pairwise fun e e' => num e < num e'

/-- The entries past a number. -/
def past (cursor : Nat) (log : List α) : List α := log.filter fun e => cursor < num e

/-- The entries past one number, as far as another. -/
def between (lower upper : Nat) (log : List α) : List α :=
  (past num lower log).filter fun e => num e ≤ upper

/-- The number is where the reading began, or an entry's. -/
def Known (start cursor : Nat) (log : List α) : Prop := cursor = start ∨ ∃ e ∈ log, num e = cursor

variable {num} {log log' rest tail : List α} {e : α} {start lower upper cursor : Nat}

theorem mem_past : e ∈ past num cursor log ↔ e ∈ log ∧ cursor < num e := by simp [past]

theorem mem_between :
    e ∈ between num lower upper log ↔ e ∈ log ∧ lower < num e ∧ num e ≤ upper := by
  simp [between, mem_past, and_assoc]

theorem Ascending.past (h : Ascending num log) : Ascending num (past num cursor log) :=
  List.Pairwise.filter _ h

/-- Sorting what is past a number of the log's rows, in whatever order they are, gives it as the log
has it. -/
theorem sorted_past {rows : List α} (hlog : Ascending num log) (hrows : rows.Perm log)
    (cursor : Nat) :
    (rows.filter fun e => cursor < num e).insertionSort (fun e e' => num e ≤ num e') =
      past num cursor log := by
  have hperm : ((rows.filter fun e => cursor < num e).insertionSort fun e e' => num e ≤ num e').Perm
      (past num cursor log) :=
    (List.perm_insertionSort _ _).trans (hrows.filter _)
  have htotal : Std.Total fun e e' : α => num e ≤ num e' := ⟨fun e e' => Nat.le_total _ _⟩
  have htrans : IsTrans α fun e e' : α => num e ≤ num e' := ⟨fun _ _ _ => Nat.le_trans⟩
  refine hperm.eq_of_pairwise (fun e e' he he' hle hle' => ?_) (List.pairwise_insertionSort _ _)
    (hlog.past.imp Nat.le_of_lt)
  -- Two entries of one number are one.
  have hmem := (hperm.mem_iff.mp he)
  have heq : num e = num e' := Nat.le_antisymm hle hle'
  exact List.inj_on_of_nodup_map (f := num)
    (List.Pairwise.map _ (fun _ _ => Nat.ne_of_lt) hlog.past) hmem he' heq

theorem between_self (lower : Nat) (log : List α) : between num lower lower log = [] := by
  refine List.filter_eq_nil_iff.mpr fun e he => ?_
  have hlt := (mem_past.mp he).2
  simp only [decide_eq_true_eq]
  omega

/-- Nothing is past the cursor: what is read is all there is. -/
theorem between_eq_past (h : past num upper log = []) :
    between num lower upper log = past num lower log := by
  refine List.filter_eq_self.mpr fun e he => ?_
  have hnot : ¬ upper < num e := fun hlt => by
    have hmem : e ∈ past num upper log := mem_past.mpr ⟨(mem_past.mp he).1, hlt⟩
    rw [h] at hmem
    cases hmem
  simp only [decide_eq_true_eq]
  omega

/-- A log splits at a number. -/
theorem split_at (h : Ascending num log) (cursor : Nat) :
    log = log.filter (fun e => num e ≤ cursor) ++ past num cursor log := by
  induction log with
  | nil => rfl
  | cons e log ih =>
    obtain ⟨hhead, htail⟩ := List.pairwise_cons.mp h
    by_cases hle : num e ≤ cursor
    · have hpast : past num cursor (e :: log) = past num cursor log :=
        List.filter_cons_of_neg (by simp only [decide_eq_true_eq]; omega)
      rw [hpast, List.filter_cons_of_pos (by simpa using hle), List.cons_append]
      exact congrArg _ (ih htail)
    · have hall : past num cursor (e :: log) = e :: log := by
        refine List.filter_eq_self.mpr fun e' he' => ?_
        simp only [decide_eq_true_eq]
        rcases List.mem_cons.mp he' with rfl | he'
        · omega
        · have hlt := hhead e' he'
          omega
      have hnone : (e :: log).filter (fun e => num e ≤ cursor) = [] := by
        refine List.filter_eq_nil_iff.mpr fun e' he' => ?_
        simp only [decide_eq_true_eq]
        rcases List.mem_cons.mp he' with rfl | he'
        · exact hle
        · have hlt := hhead e' he'
          omega
      rw [hall, hnone, List.nil_append]

/-- Reading on from the next entry past the cursor. -/
theorem past_next (h : Ascending num log) (hnext : past num cursor log = e :: tail) :
    past num (num e) log = tail ∧ log.filter (fun e' => num e' ≤ num e) =
      log.filter (fun e' => num e' ≤ cursor) ++ [e] := by
  have hsplit := split_at h cursor
  have hpast : Ascending num (past num cursor log) := h.past
  rw [hnext] at hsplit hpast
  obtain ⟨hhead, -⟩ := List.pairwise_cons.mp hpast
  have hlt : cursor < num e := (mem_past.mp (hnext ▸ List.mem_cons_self)).2
  have hlow : ∀ e' ∈ log.filter (fun e' => num e' ≤ cursor), num e' ≤ cursor := by
    intro e' he'
    simpa using (List.mem_filter.mp he').2
  generalize hl : log.filter (fun e' => num e' ≤ cursor) = low at hsplit hlow
  subst hsplit
  have hlow' : past num (num e) low = [] := by
    refine List.filter_eq_nil_iff.mpr fun e' he' => ?_
    have hle := hlow e' he'
    simp only [decide_eq_true_eq]
    omega
  have htail : past num (num e) tail = tail := by
    refine List.filter_eq_self.mpr fun e' he' => ?_
    simpa using hhead e' he'
  have hlow'' : low.filter (fun e' => num e' ≤ num e) = low := by
    refine List.filter_eq_self.mpr fun e' he' => ?_
    have hle := hlow e' he'
    simp only [decide_eq_true_eq]
    omega
  have htail' : tail.filter (fun e' => num e' ≤ num e) = [] := by
    refine List.filter_eq_nil_iff.mpr fun e' he' => ?_
    have hle := hhead e' he'
    simp only [decide_eq_true_eq]
    omega
  constructor
  · unfold past at hlow' htail ⊢
    rw [List.filter_append, hlow', List.filter_cons_of_neg (by simp), htail]
    rfl
  · rw [List.filter_append, hlow'', List.filter_cons_of_pos (by simp), htail']

theorem between_eq_filter (lower upper : Nat) (log : List α) :
    between num lower upper log = past num lower (log.filter fun e => num e ≤ upper) := by
  unfold between past
  rw [List.filter_comm]

/-- One entry more is read. -/
theorem between_next (h : Ascending num log) (hnext : past num cursor log = e :: tail)
    (hle : lower ≤ cursor) :
    between num lower (num e) log = between num lower cursor log ++ [e] := by
  have hlt : cursor < num e := (mem_past.mp (hnext ▸ List.mem_cons_self)).2
  have hpast : past num lower [e] = [e] := List.filter_eq_self.mpr fun e' he' => by
    rw [List.mem_singleton.mp he']
    simp only [decide_eq_true_eq]
    omega
  rw [between_eq_filter, between_eq_filter, (past_next h hnext).2]
  unfold past at hpast ⊢
  rw [List.filter_append, hpast]

/-- What lies between, taken from its first entry on. -/
theorem between_cons (h : Ascending num log) (hbetween : between num lower upper log = e :: tail) :
    between num (num e) upper log = tail ∧ ∀ {start : Nat}, start ≤ lower →
      between num start (num e) log = between num start lower log ++ [e] := by
  have hmem : e ∈ between num lower upper log := hbetween ▸ List.mem_cons_self
  obtain ⟨-, hlt, hle⟩ := mem_between.mp hmem
  obtain ⟨first, tail', hpast⟩ : ∃ first tail', past num lower log = first :: tail' := by
    cases hp : past num lower log with
    | nil =>
      unfold between at hbetween
      rw [hp] at hbetween
      cases hbetween
    | cons first tail' => exact ⟨first, tail', rfl⟩
  have hfirst : first = e := by
    have hle' : num first ≤ upper := by
      by_contra hnot
      have hascending : Ascending num (past num lower log) := h.past
      rw [hpast] at hascending
      have hmem' : e ∈ first :: tail' := hpast ▸ (List.mem_filter.mp hmem).1
      rcases List.mem_cons.mp hmem' with rfl | hmem'
      · exact hnot hle
      · have hlt' := (List.pairwise_cons.mp hascending).1 e hmem'
        omega
    unfold between at hbetween
    rw [hpast, List.filter_cons_of_pos (by simpa using hle')] at hbetween
    exact (List.cons.inj hbetween).1
  subst hfirst
  refine ⟨?_, fun hstart => between_next h hpast hstart⟩
  unfold between at hbetween ⊢
  rw [hpast, List.filter_cons_of_pos (by simpa using hle)] at hbetween
  rw [(past_next h hpast).1]
  exact (List.cons.inj hbetween).2

/-! ## Growth -/

theorem past_append (cursor : Nat) (log rest : List α) :
    past num cursor (log ++ rest) = past num cursor log ++ past num cursor rest :=
  List.filter_append ..

theorem Known.append (h : Known num start cursor log) (rest : List α) :
    Known num start cursor (log ++ rest) :=
  h.imp id fun ⟨e, he, hnum⟩ => ⟨e, List.mem_append_left _ he, hnum⟩

/-- What is read stays as it is while the log grows. -/
theorem between_append (h : Ascending num (log ++ rest)) (hknown : Known num lower upper log) :
    between num lower upper (log ++ rest) = between num lower upper log := by
  rcases hknown with rfl | ⟨e, he, rfl⟩
  · rw [between_self, between_self]
  · have hrest : rest.filter (fun e' => num e' ≤ num e) = [] := by
      refine List.filter_eq_nil_iff.mpr fun e' he' => ?_
      have hlt := (List.pairwise_append.mp h).2.2 e he e' he'
      simp only [decide_eq_true_eq]
      omega
    rw [between_eq_filter, between_eq_filter, List.filter_append, hrest, List.append_nil]

end Interleave.Log
