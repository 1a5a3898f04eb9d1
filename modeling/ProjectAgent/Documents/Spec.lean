/-
What the document sessions keep. A status is written only under its version's
lock, decided on the status the version is committed with, along the table of
transitions; a session that commits a publication supersedes what the
published version names and writes no other status; and what is raised as a
rejection is raised before any status has been committed.
-/
import ProjectAgent.Documents.Rows

namespace ProjectAgent.Documents

open Interleave

/-- A version's lock guards its status. -/
def guard : Db.Guard (K := Row) Write.apply where
  touches
    | .status versionId _ _ _, .version id => versionId = id
    | _, _ => False
  same
    | .version id, t, t' => ∀ row ∈ t.versions, row.id = id → row ∈ t'.versions
    | .document _, _, _ => True
  refl k t := by
    cases k with
    | document => trivial
    | version id => exact fun row hrow _ => hrow
  trans {k t t' t''} h h' := by
    cases k with
    | document => trivial
    | version id => exact fun row hrow hid => h' row (h row hrow hid) hid
  apply {w k} t hw := by
    cases k with
    | document => trivial
    | version id =>
      intro row hrow hid
      cases w with
      | document | audit => exact hrow
      | version => exact List.mem_cons_of_mem _ hrow
      | status versionId =>
        have hne : row.id ≠ versionId := fun heq => hw (heq.symm.trans hid)
        refine List.mem_map.mpr ⟨row, hrow, ?_⟩
        rw [if_neg hne]

structure Inv (σ : Store) : Prop where
  guarded : Db.Guarded guard σ.toDb
  ids : σ.committed.ids.Nodup
  committedDrawn : ∀ id ∈ σ.committed.ids, id ∈ σ.drawn
  pendingDrawn : ∀ pid, ∀ id ∈ versionIds (σ.pending pid), id ∈ σ.drawn
  /-- What is inserted is new, and each session's its own. -/
  fresh : ∀ pid, ∀ id ∈ versionIds (σ.pending pid), id ∉ σ.committed.ids
  inserted : ∀ pid, (versionIds (σ.pending pid)).Nodup
  apart : ∀ pid q id, id ∈ versionIds (σ.pending pid) → id ∈ versionIds (σ.pending q) → pid = q
  drafts : ∀ pid row, .version row ∈ σ.pending pid →
    row.lifecycleStatus = .DRAFT ∧ row.sourceUri.isSome ∧ row.contentHash.isSome
  complete : ∀ row ∈ σ.committed.versions, row.sourceUri.isSome ∧ row.contentHash.isSome
  /-- A status that is written is decided on what is committed. -/
  statuses : ∀ pid id seen target publishedAt, .status id seen target publishedAt ∈ σ.pending pid →
    canTransitionDocument seen target = true ∧ σ.committed.statusOf id = some seen
  once : ∀ pid, (statusIds (σ.pending pid)).Nodup
  /-- No operation is there for it. -/
  notDeleted : ∀ pid id seen publishedAt, .status id seen .DELETED publishedAt ∉ σ.pending pid

/-- What may happen around a session. -/
structure Rely (pid : Nat) (σ σ' : Store) : Prop where
  stays : Db.Stays guard pid σ.toDb σ'.toDb
  changed : σ'.changed pid = σ.changed pid
  grows : Grows σ.committed σ'.committed

theorem Rely.refl (pid : Nat) (σ : Store) : Rely pid σ σ := ⟨.refl pid _, rfl, .refl _⟩

theorem Rely.trans {pid : Nat} {σ σ' σ'' : Store} (h : Rely pid σ σ') (h' : Rely pid σ' σ'') :
    Rely pid σ σ'' :=
  ⟨h.stays.trans h'.stays, h'.changed.trans h.changed, h.grows.trans h'.grows⟩

/-- Where a version's publication is among the writes, the others supersede what it names. -/
def Publication (ws : List Write) (t : Tables) : Prop :=
  ∀ v seen publishedAt, .status v seen .PUBLISHED publishedAt ∈ ws →
    ∃ row ∈ t.versions, row.id = v ∧
    (∀ id seen' target publishedAt', Write.status id seen' target publishedAt' ∈ ws → id ≠ v →
      row.supersedesVersionId = some id ∧ target = .SUPERSEDED) ∧
    ∀ id, row.supersedesVersionId = some id → ∃ seen' publishedAt',
      Write.status id seen' .SUPERSEDED publishedAt' ∈ ws

/-- What an operation that is refused raises; what else is raised is a failure on its way. -/
def DocumentError.rejects : DocumentError → Prop
  | .permissionDenied _ | .valueError _ | .invalidTransition _ _ | .publishFailed _
      | .publishPending _
  | .integrityError => True
  | .lookupError text =>
    ∃ versionId : UUID, text = "document version " ++ versionId.str ++ " does not exist"
  | .runtimeError _ | .multipleResultsFound | .raised _ => False

/-- What is known when a session issues a statement. -/
def permit (pid : Nat) (s : Stmt) (σ : Store) : Prop :=
  match s with
  | .insertVersion row =>
    row.lifecycleStatus = .DRAFT ∧ row.sourceUri.isSome ∧ row.contentHash.isSome
  | .setStatus versionId seen target _ => σ.locked (.version versionId) = some pid ∧
      versionId ∉ statusIds (σ.pending pid) ∧ canTransitionDocument seen target = true ∧
      σ.committed.statusOf versionId = some seen ∧ target ≠ .DELETED
  | .commit => Publication (σ.pending pid) σ.committed
  | .rollback e => e.rejects → σ.changed pid = []
  | .deleteDocument request =>
    ∃ versionId, request.documentVersionId = versionId.str ∧ versionId ∈ σ.changed pid
  | _ => True

def spec : Spec Stmt Store where
  inv := Inv
  rely := Rely
  permit := permit
  refl := Rely.refl
  trans _ _ _ _ := Rely.trans

/-! ## What a statement does to the store -/

inductive Effect (pid : Nat) (c : Choice) (σ : Store) : Stmt → Store → Prop where
  | none (s : Stmt) : Effect pid c σ s σ
  | insertDocument (row : Document) (drawn : c.uuid ∉ σ.drawn) :
      Effect pid c σ (.insertDocument row)
      { σ.write pid (.document { row with id := c.uuid }) with drawn := c.uuid :: σ.drawn }
  | insertVersion (row : DocumentVersion) (drawn : c.uuid ∉ σ.drawn) :
      Effect pid c σ (.insertVersion row)
      { σ.write pid (.version { row with id := c.uuid }) with drawn := c.uuid :: σ.drawn }
  | lock (versionId : UUID) (document : Document) (version : DocumentVersion)
      (db db' : Db Tables Write Row)
      (load : (σ.view pid).load versionId = some (document, version))
      (lockDocument : σ.toDb.lock pid (.document document.id) = some db)
      (lockVersion : db.lock pid (.version version.id) = some db') :
      Effect pid c σ (.lockVersion versionId) { σ with toDb := db' }
  | setStatus (versionId : UUID) (seen target : DocumentLifecycleStatus)
      (publishedAt : Option Nat) :
      Effect pid c σ (.setStatus versionId seen target publishedAt)
        (σ.write pid (.status versionId seen target publishedAt))
  | insertAudit (record : DocumentAuditRecord) : Effect pid c σ (.insertAudit record)
      (σ.write pid (.audit record))
  | commit (taken : σ.numberTaken pid = false) : Effect pid c σ .commit (σ.commit pid)
  | failedCommit : Effect pid c σ .commit (σ.rollback pid)
  | rollback (e : DocumentError) : Effect pid c σ (.rollback e) (σ.rollback pid)

variable {pid q : Nat} {c : Choice} {σ σ' : Store} {s : Stmt}

theorem perform_effect {r : Except DocumentError s.Res} (h : perform pid c σ s = some (r, σ')) :
    Effect pid c σ s σ' := by
  cases s with
  | now | getDocument | maxVersionNo | loadVersion | selectProjectCode | selectKnowledgeSpaceId
      | putObject | ingest
  | getIngestionStatus | deleteDocument =>
    cases h
    exact .none _
  | insertDocument row =>
    simp only [perform] at h
    split at h
    · cases h
    · next hd =>
      cases h
      exact .insertDocument row hd
  | insertVersion row =>
    simp only [perform] at h
    split at h
    · cases h
    · next hd =>
      split at h <;> cases h
      · exact .none _
      · exact .insertVersion row hd
  | lockVersion versionId =>
    simp only [perform] at h
    split at h
    · cases h
      exact .none _
    · next document version hload =>
      obtain ⟨db, hdocument, h⟩ := Option.bind_eq_some_iff.mp h
      obtain ⟨db', hversion, h⟩ := Option.bind_eq_some_iff.mp h
      cases h
      exact .lock versionId document version db db' hload hdocument hversion
  | setStatus versionId seen target publishedAt =>
    cases h
    exact .setStatus versionId seen target publishedAt
  | insertAudit record =>
    cases h
    exact .insertAudit record
  | commit =>
    simp only [perform] at h
    split at h <;> cases h
    · exact .failedCommit
    · next ht => exact .commit (Bool.eq_false_iff.mpr ht)
  | rollback e =>
    cases h
    exact .rollback e

/-- What is answered was done; what is lost was not, a commit apart. -/
theorem exec_cases {r : Except DocumentError s.Res} (h : exec pid s c σ = some (r, σ')) :
    perform pid c σ s = some (r, σ') ∨
    (∃ e, r = .error (.raised e) ∧
      (σ' = σ ∨ s = .commit ∧ ∃ r', perform pid c σ s = some (r', σ'))) := by
  unfold exec at h
  cases hf : c.fault with
  | none =>
    rw [hf] at h
    exact .inl h
  | some fault =>
    obtain ⟨done, e⟩ := fault
    rw [hf] at h
    refine .inr ⟨e, ?_⟩
    by_cases hs : done = true ∧ s = .commit
    · obtain ⟨rfl, rfl⟩ := hs
      obtain ⟨⟨r', σ₁⟩, hp, heq⟩ := Option.map_eq_some_iff.mp h
      cases heq
      exact ⟨rfl, .inr ⟨rfl, r', hp⟩⟩
    · have hlost : some ((.error (.raised e), σ) : Except DocumentError s.Res × Store) =
          some (r, σ') := by
        cases done with
        | false => exact h
        | true =>
          cases s with
          | commit => exact absurd ⟨rfl, rfl⟩ hs
          | _ => exact h
      cases hlost
      exact ⟨rfl, .inl rfl⟩

theorem exec_effect {r : Except DocumentError s.Res} (h : exec pid s c σ = some (r, σ')) :
    Effect pid c σ s σ' := by
  rcases exec_cases h with h | ⟨e, -, rfl | ⟨-, r', h⟩⟩
  · exact perform_effect h
  · exact .none s
  · exact perform_effect h

/-! ## The others' view of it -/

theorem write_rely (w : Write) (hq : q ≠ pid) : Rely q σ (σ.write pid w) :=
  ⟨Db.stays_write hq, rfl, .refl _⟩

theorem rollback_rely (hq : q ≠ pid) : Rely q σ (σ.rollback pid) :=
  ⟨Db.stays_rollback hq, rfl, .refl _⟩

theorem commit_rely (hi : Inv σ) (hq : q ≠ pid) : Rely q σ (σ.commit pid) :=
  ⟨Db.stays_commit hi.guarded hq, Function.update_of_ne hq .., grows_foldl _ _⟩

theorem Effect.rely (hi : Inv σ) (h : Effect pid c σ s σ') (hq : q ≠ pid) : Rely q σ σ' := by
  cases h with
  | none => exact .refl q σ
  | insertDocument | insertVersion =>
    exact ⟨Db.stays_write hq, rfl, .refl _⟩
  | lock versionId document version db db' _ hdocument hversion =>
    have hcommitted : db'.committed = σ.committed :=
      (Db.lock_eq_some hversion).1.trans (Db.lock_eq_some hdocument).1
    refine ⟨(Db.stays_lock hdocument hq).trans (Db.stays_lock hversion hq), rfl, ?_⟩
    show Grows σ.committed db'.committed
    rw [hcommitted]
    exact .refl _
  | setStatus | insertAudit => exact write_rely _ hq
  | commit => exact commit_rely hi hq
  | failedCommit | rollback => exact rollback_rely hq

end ProjectAgent.Documents
