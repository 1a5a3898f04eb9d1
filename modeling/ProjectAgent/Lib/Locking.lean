/-
Sessions over the rows of a database, read committed: what a session has
written it alone sees, until it commits; a row it has locked no other session
locks before it commits or rolls back. Which statements lock and which write is
the user's; this says what holds of those that lock before they write.

`T` is the type of the committed tables, `W` of the writes (`apply` says what
one does to the tables), `K` of what is locked.
-/
import Mathlib.Logic.Function.Basic

namespace Interleave

structure Db (T W K : Type) where
  committed : T
  /-- What each session has written and not committed, the earliest first. -/
  pending : Nat → List W
  locked : K → Option Nat

namespace Db

variable {T W K : Type} (apply : W → T → T)

/-- The tables as a session sees them. -/
def view (pid : Nat) (db : Db T W K) : T :=
  (db.pending pid).foldl (fun t w => apply w t) db.committed

def write (pid : Nat) (w : W) (db : Db T W K) : Db T W K :=
  { db with pending := Function.update db.pending pid (db.pending pid ++ [w]) }

/-- `FOR UPDATE`: waits while another session has the lock. -/
def lock [DecidableEq K] (pid : Nat) (k : K) (db : Db T W K) : Option (Db T W K) :=
  match db.locked k with
  | none => some { db with locked := Function.update db.locked k (some pid) }
  | some owner => if owner = pid then some db else none

/-- The session's writes are gone, and its locks. -/
def rollback (pid : Nat) (db : Db T W K) : Db T W K where
  committed := db.committed
  pending := Function.update db.pending pid []
  locked k := if db.locked k = some pid then none else db.locked k

/-- The session's writes are everyone's, and its locks gone. -/
def commit (pid : Nat) (db : Db T W K) : Db T W K :=
  { db.rollback pid with committed := db.view apply pid }

section
variable {apply} {db : Db T W K} {pid q : Nat} {w : W}

theorem view_write_self : (db.write pid w).view apply pid = apply w (db.view apply pid) := by
  show (Function.update db.pending pid (db.pending pid ++ [w]) pid).foldl _ _ = _
  rw [Function.update_self, List.foldl_append]
  rfl

theorem view_write_of_ne (hq : q ≠ pid) : (db.write pid w).view apply q = db.view apply q := by
  show (Function.update db.pending pid _ q).foldl _ _ = _
  rw [Function.update_of_ne hq]
  rfl

theorem view_rollback_self : (db.rollback pid).view apply pid = db.committed := by
  show (Function.update db.pending pid [] pid).foldl _ _ = _
  rw [Function.update_self]
  rfl

theorem view_rollback_of_ne (hq : q ≠ pid) : (db.rollback pid).view apply q = db.view apply q := by
  show (Function.update db.pending pid [] q).foldl _ _ = _
  rw [Function.update_of_ne hq]
  rfl

theorem view_commit_self : (db.commit apply pid).view apply pid = db.view apply pid := by
  show (Function.update db.pending pid [] pid).foldl _ _ = _
  rw [Function.update_self]
  rfl

end

/-! ## Writes under locks -/

/-- What a write touches, and what it means that a write has not touched it:
`same k` relates tables that agree on what `k` locks. -/
structure Guard (apply : W → T → T) where
  touches : W → K → Prop
  same : K → T → T → Prop
  refl : ∀ k t, same k t t
  trans : ∀ {k t t' t''}, same k t t' → same k t' t'' → same k t t''
  apply : ∀ {w k} t, ¬ touches w k → same k t (apply w t)

/-- No session has written what it has not locked. -/
def Guarded {apply : W → T → T} (G : Guard (K := K) apply) (db : Db T W K) : Prop :=
  ∀ pid w, w ∈ db.pending pid → ∀ k, G.touches w k → db.locked k = some pid

/-- What may happen around a session: what it has written and locked stays so,
and what it has locked is as it was. -/
structure Stays {apply : W → T → T} (G : Guard (K := K) apply) (pid : Nat)
    (db db' : Db T W K) : Prop where
  pending : db'.pending pid = db.pending pid
  locked : ∀ k, db'.locked k = some pid ↔ db.locked k = some pid
  same : ∀ k, db.locked k = some pid → G.same k db.committed db'.committed

variable {apply} {G : Guard (K := K) apply} {db db' : Db T W K} {pid q : Nat} {w w' : W} {k : K}

theorem Stays.refl (pid : Nat) (db : Db T W K) : Stays G pid db db :=
  ⟨rfl, fun _ => Iff.rfl, fun k _ => G.refl k _⟩

theorem Stays.trans {db'' : Db T W K} (h : Stays G pid db db') (h' : Stays G pid db' db'') :
    Stays G pid db db'' :=
  ⟨h'.pending.trans h.pending, fun k => (h'.locked k).trans (h.locked k),
    fun k hk => G.trans (h.same k hk) (h'.same k ((h.locked k).mpr hk))⟩

theorem mem_pending_write :
    w ∈ (db.write pid w').pending q ↔ w ∈ db.pending q ∨ q = pid ∧ w = w' := by
  unfold write
  by_cases hq : q = pid
  · subst hq
    simp
  · simp [hq]

theorem Guarded.write (h : Guarded G db) (hw : ∀ k, G.touches w k → db.locked k = some pid) :
    Guarded G (db.write pid w) := by
  intro q w' hw' k hk
  rcases mem_pending_write.mp hw' with hw' | ⟨rfl, rfl⟩
  · exact h q w' hw' k hk
  · exact hw k hk

theorem stays_write (hq : q ≠ pid) : Stays G q db (db.write pid w) :=
  ⟨Function.update_of_ne hq .., fun _ => Iff.rfl, fun k _ => G.refl k _⟩

section
variable [DecidableEq K]

theorem lock_of_free (h : db.locked k = none) :
    db.lock pid k = some { db with locked := Function.update db.locked k (some pid) } := by
  unfold lock
  rw [h]

/-- A lock that is granted was free, or the session's own. -/
theorem lock_eq_some (h : db.lock pid k = some db') :
    db'.committed = db.committed ∧ db'.pending = db.pending ∧ db'.locked k = some pid ∧
      (∀ k', k' ≠ k → db'.locked k' = db.locked k') ∧
        (db.locked k = none ∨ db.locked k = some pid) := by
  unfold lock at h
  split at h
  · next hfree =>
    cases h
    exact ⟨rfl, rfl, Function.update_self .., fun k' hk' => Function.update_of_ne hk' ..,
      .inl hfree⟩
  · next owner howner =>
    split at h
    · next hown =>
      cases h
      exact ⟨rfl, rfl, hown ▸ howner, fun _ _ => rfl, .inr (hown ▸ howner)⟩
    · cases h

theorem Guarded.lock (h : Guarded G db) (hl : db.lock pid k = some db') : Guarded G db' := by
  obtain ⟨-, hpending, hk, hother, hwas⟩ := lock_eq_some hl
  intro q w hw k' hk'
  have hold := h q w (hpending ▸ hw) k' hk'
  by_cases heq : k' = k
  · subst heq
    rcases hwas with hfree | hown
    · rw [hfree] at hold
      cases hold
    · rw [hk, ← hold, hown]
  · rw [hother k' heq, hold]

theorem stays_lock (hl : db.lock pid k = some db') (hq : q ≠ pid) : Stays G q db db' := by
  obtain ⟨hcommitted, hpending, hk, hother, hwas⟩ := lock_eq_some hl
  refine ⟨congrFun hpending q, fun k' => ?_, fun k' _ => hcommitted ▸ G.refl k' _⟩
  by_cases heq : k' = k
  · subst heq
    have hne : (some pid : Option Nat) ≠ some q := fun h => hq (Option.some.inj h).symm
    rw [hk]
    rcases hwas with hfree | hown
    · rw [hfree]
      simp [hne]
    · rw [hown]
  · rw [hother k' heq]

end

theorem mem_pending_rollback : w ∈ (db.rollback pid).pending q ↔ q ≠ pid ∧ w ∈ db.pending q := by
  unfold rollback
  by_cases hq : q = pid
  · subst hq
    simp
  · simp [hq]

theorem locked_rollback : (db.rollback pid).locked k = some q ↔ q ≠ pid ∧ db.locked k = some q := by
  unfold rollback
  by_cases hp : db.locked k = some pid
  · simp only [hp, if_true]
    constructor
    · nofun
    · rintro ⟨hq, h⟩
      exact absurd (Option.some.inj h).symm hq
  · simp only [hp, if_false]
    constructor
    · intro h
      exact ⟨fun hq => hp (hq ▸ h), h⟩
    · exact fun h => h.2

theorem Guarded.rollback (h : Guarded G db) (pid : Nat) : Guarded G (db.rollback pid) := by
  intro q w hw k hk
  obtain ⟨hq, hw⟩ := mem_pending_rollback.mp hw
  exact locked_rollback.mpr ⟨hq, h q w hw k hk⟩

theorem Guarded.commit (h : Guarded G db) (pid : Nat) : Guarded G (db.commit apply pid) :=
  h.rollback pid

theorem stays_rollback (hq : q ≠ pid) : Stays G q db (db.rollback pid) :=
  ⟨Function.update_of_ne hq .., fun _ => locked_rollback.trans (and_iff_right hq), fun k _ =>
    G.refl k _⟩

/-- Writes that do not touch it leave what is locked as it was. -/
theorem same_foldl {ws : List W} (h : ∀ w ∈ ws, ¬ G.touches w k) (t : T) :
    G.same k t (ws.foldl (fun t w => apply w t) t) := by
  induction ws generalizing t with
  | nil => exact G.refl k t
  | cons w ws ih =>
    exact G.trans (G.apply t (h w List.mem_cons_self))
      (ih (fun w' hw' => h w' (List.mem_cons_of_mem w hw')) _)

/-- **What a session has locked no other session's commit changes.** -/
theorem stays_commit (h : Guarded G db) (hq : q ≠ pid) : Stays G q db (db.commit apply pid) := by
  obtain ⟨hpending, hlocked, -⟩ : Stays G q db (db.rollback pid) := stays_rollback hq
  refine ⟨hpending, hlocked, fun k hk => same_foldl (fun w hw ht => ?_) _⟩
  have howner := h pid w hw k ht
  rw [hk] at howner
  exact hq (Option.some.inj howner)

end Db

end Interleave
