/-
A table under READ COMMITTED transactions. Committed rows are everyone's; a
row that a session has inserted is its own until the session commits, and is
gone when it rolls back. A session reads the committed rows and its own
(`view`).

A unique index ranges over all of it: a session that would insert a key some
other session has inserted and not yet committed waits for that session, so no
two rows of the table, committed or not, ever share a key (`Unique`).
-/
import Mathlib.Data.List.Pairwise
import Mathlib.Data.List.Perm.Basic

namespace Interleave

structure Table (α : Type) where
  committed : List α
  pending : List (Nat × α)

namespace Table

variable {α κ : Type}

/-- Every row, whoever can see it. -/
def rows (t : Table α) : List α := t.committed ++ t.pending.map (·.2)

def own (t : Table α) (pid : Nat) : List α := (t.pending.filter (·.1 == pid)).map (·.2)

/-- The rows the session reads. -/
def view (t : Table α) (pid : Nat) : List α := t.committed ++ t.own pid

def insert (t : Table α) (pid : Nat) (a : α) : Table α :=
  { t with pending := (pid, a) :: t.pending }

def rollback (t : Table α) (pid : Nat) : Table α :=
  { t with pending := t.pending.filter (!·.1 == pid) }

def commit (t : Table α) (pid : Nat) : Table α :=
  ⟨t.own pid ++ t.committed, t.pending.filter (!·.1 == pid)⟩

variable {t : Table α} {pid q : Nat} {a b : α}

@[simp] theorem mem_own : a ∈ t.own pid ↔ (pid, a) ∈ t.pending := by
  simp [own]

@[simp] theorem mem_view : a ∈ t.view pid ↔ a ∈ t.committed ∨ (pid, a) ∈ t.pending := by
  simp [view]

@[simp] theorem mem_rows : a ∈ t.rows ↔ a ∈ t.committed ∨ ∃ p, (p, a) ∈ t.pending := by
  simp [rows]

@[simp] theorem committed_insert : (t.insert pid a).committed = t.committed := rfl

@[simp] theorem mem_pending_insert :
    (q, b) ∈ (t.insert pid a).pending ↔ q = pid ∧ b = a ∨ (q, b) ∈ t.pending := by
  simp [insert]

@[simp] theorem rows_insert : (t.insert pid a).rows.Perm (a :: t.rows) := by
  simp [insert, rows, List.perm_middle]

@[simp] theorem committed_rollback : (t.rollback pid).committed = t.committed := rfl

@[simp] theorem mem_pending_rollback :
    (q, b) ∈ (t.rollback pid).pending ↔ (q, b) ∈ t.pending ∧ q ≠ pid := by
  simp [rollback]

@[simp] theorem mem_committed_commit :
    b ∈ (t.commit pid).committed ↔ (pid, b) ∈ t.pending ∨ b ∈ t.committed := by
  simp [commit]

@[simp] theorem mem_pending_commit :
    (q, b) ∈ (t.commit pid).pending ↔ (q, b) ∈ t.pending ∧ q ≠ pid := by
  simp [commit]

theorem view_subset_rows (h : a ∈ t.view pid) : a ∈ t.rows := by
  rw [mem_view] at h
  exact mem_rows.mpr (h.imp_right fun h => ⟨pid, h⟩)

/-- A commit moves rows, it makes and loses none. -/
theorem mem_rows_commit : a ∈ (t.commit pid).rows ↔ a ∈ t.rows := by
  simp only [mem_rows, mem_committed_commit, mem_pending_commit]
  constructor
  · rintro ((h | h) | ⟨q, h, -⟩)
    · exact .inr ⟨pid, h⟩
    · exact .inl h
    · exact .inr ⟨q, h⟩
  · rintro (h | ⟨q, h⟩)
    · exact .inl (.inr h)
    · by_cases hq : q = pid
      · exact .inl (.inl (hq ▸ h))
      · exact .inr ⟨q, h, hq⟩

theorem rows_commit : (t.commit pid).rows.Perm t.rows := by
  have hsplit := (List.filter_append_perm (fun r : Nat × α => r.1 == pid) t.pending).map (·.2)
  rw [List.map_append] at hsplit
  have hcomm : (t.own pid ++ t.committed).Perm (t.committed ++ t.own pid) := List.perm_append_comm
  have hrest := (hcomm.append_right ((t.pending.filter (!·.1 == pid)).map (·.2))).trans
    (by rw [List.append_assoc])
  exact hrest.trans (hsplit.append_left t.committed)

/-! ## Unique indexes -/

/-- Two rows with the same key; a row without a key clashes with none. -/
def Clash (key : α → Option κ) (a b : α) : Prop := ∃ k, key a = some k ∧ key b = some k

instance [DecidableEq κ] (key : α → Option κ) (a b : α) : Decidable (Clash key a b) :=
  decidable_of_iff ((key a).isSome ∧ key a = key b) (by
    unfold Clash
    cases key a <;> cases key b <;> simp [eq_comm])

theorem Clash.symm {key : α → Option κ} (h : Clash key a b) : Clash key b a :=
  let ⟨k, ha, hb⟩ := h
  ⟨k, hb, ha⟩

def Unique (key : α → Option κ) (t : Table α) : Prop := t.rows.Pairwise fun a b => ¬ Clash key a b

/-- Another session has inserted the key and is still open: the insert waits. -/
def Waits [DecidableEq κ] (key : α → Option κ) (t : Table α) (pid : Nat) (a : α) : Prop :=
  ∃ r ∈ t.pending, r.1 ≠ pid ∧ Clash key a r.2

/-- The key is taken by a row the session sees. -/
def Taken [DecidableEq κ] (key : α → Option κ) (t : Table α) (pid : Nat) (a : α) : Prop :=
  ∃ b ∈ t.view pid, Clash key a b

instance [DecidableEq κ] (key : α → Option κ) (t : Table α) (pid : Nat) (a : α) :
    Decidable (Waits key t pid a) :=
  inferInstanceAs (Decidable (∃ r ∈ t.pending, r.1 ≠ pid ∧ Clash key a r.2))

instance [DecidableEq κ] (key : α → Option κ) (t : Table α) (pid : Nat) (a : α) :
    Decidable (Taken key t pid a) :=
  inferInstanceAs (Decidable (∃ b ∈ t.view pid, Clash key a b))

namespace Unique

variable {key : α → Option κ}

theorem eq (h : Unique key t) (ha : a ∈ t.rows) (hb : b ∈ t.rows) (hc : Clash key a b) : a = b := by
  have : Std.Symm fun a b : α => ¬ Clash key a b := ⟨fun _ _ hn hc => hn hc.symm⟩
  by_contra hne
  exact List.Pairwise.forall h ha hb hne hc

/-- No uncommitted row has the key of a committed one. -/
theorem not_clash (h : Unique key t) (ha : a ∈ t.committed) (hb : (pid, b) ∈ t.pending) :
    ¬ Clash key a b :=
  (List.pairwise_append.mp h).2.2 a ha b (List.mem_map.mpr ⟨(pid, b), hb, rfl⟩)

theorem insert [DecidableEq κ] (h : Unique key t) (hw : ¬ Waits key t pid a)
    (ht : ¬ Taken key t pid a) :
    Unique key (t.insert pid a) := by
  refine (rows_insert.pairwise_iff fun hn hc => hn hc.symm).mpr (List.pairwise_cons.mpr ⟨?_, h⟩)
  intro b hb hc
  rcases mem_rows.mp hb with hb | ⟨p, hb⟩
  · exact ht ⟨b, mem_view.mpr (.inl hb), hc⟩
  · by_cases hp : p = pid
    · exact ht ⟨b, mem_view.mpr (.inr (hp ▸ hb)), hc⟩
    · exact hw ⟨(p, b), hb, hp, hc⟩

theorem commit (h : Unique key t) : Unique key (t.commit pid) :=
  (rows_commit.pairwise_iff fun hn hc => hn hc.symm).mpr h

theorem rollback (h : Unique key t) : Unique key (t.rollback pid) := by
  refine h.sublist (List.Sublist.append_left ?_ _)
  exact List.filter_sublist.map _

end Unique

end Table

end Interleave
