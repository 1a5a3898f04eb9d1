/-
Every session issues only what the specification permits: a lemma for each
method and use case, saying what the session has written when it is through;
`fits` puts it together.
-/
import ProjectAgent.Documents.Kept

namespace ProjectAgent.Documents

open Interleave

variable {pid : Nat} {c : Choice} {σ σ' σ₀ : Store} {s : Stmt} {v : UUID}

abbrev SafeTo {α : Type} (pid : Nat) (post : Except DocumentError α → Store → Prop) (p : Session α)
    (σ : Store) : Prop :=
  Safe machine spec pid post p σ

/-- Nothing is written but audits and documents, and no status was. -/
structure Idle (pid : Nat) (σ : Store) : Prop where
  statuses : statusIds (σ.pending pid) = []
  versions : versionIds (σ.pending pid) = []
  changed : σ.changed pid = []

/-- The version's status is written, and nothing is committed. -/
structure Written (v : UUID) (pid : Nat) (σ : Store) : Prop where
  status : v ∈ statusIds (σ.pending pid)
  versions : versionIds (σ.pending pid) = []
  publication : Publication (σ.pending pid) σ.committed
  changed : σ.changed pid = []

/-- What a session with nothing written may issue without further ado. -/
def Plain : Stmt → Prop
  | .insertVersion _ | .setStatus _ _ _ _ | .rollback _ | .deleteDocument _ => False
  | _ => True

/-! ## What stays -/

theorem publication_of_nil {ws : List Write} {t : Tables} (h : statusIds ws = []) :
    Publication ws t := by
  intro v seen publishedAt hw
  have hmem : v ∈ statusIds ws := mem_statusIds.mpr ⟨_, _, _, hw⟩
  rw [h] at hmem
  cases hmem

theorem Publication.grow {ws : List Write} {t t' : Tables} (h : Publication ws t)
    (hg : Grows t t') : Publication ws t' := by
  intro v seen publishedAt hw
  obtain ⟨row, hrow, hid, honly, hall⟩ := h v seen publishedAt hw
  obtain ⟨row', hrow', hs⟩ := hg row hrow
  refine ⟨row', hrow', hs.id.trans hid, ?_⟩
  rw [hs.supersedesVersionId]
  exact ⟨honly, hall⟩

/-- Only the statuses matter. -/
theorem Publication.append {ws : List Write} {t : Tables} (h : Publication ws t) {w : Write}
    (hw : statusIds [w] = []) :
    Publication (ws ++ [w]) t := by
  have hold : ∀ {id seen target publishedAt}, Write.status id seen target publishedAt ∈ ws ++ [w] →
      Write.status id seen target publishedAt ∈ ws := by
    intro id seen target publishedAt hmem
    rcases List.mem_append.mp hmem with hmem | hmem
    · exact hmem
    · have hid : id ∈ statusIds [w] := mem_statusIds.mpr ⟨_, _, _, hmem⟩
      rw [hw] at hid
      cases hid
  intro v seen publishedAt hv
  obtain ⟨row, hrow, hid, honly, hall⟩ := h v seen publishedAt (hold hv)
  refine ⟨row, hrow, hid, fun id seen' target publishedAt' hw' =>
    honly id seen' target publishedAt' (hold hw'), ?_⟩
  intro id hs
  obtain ⟨seen', publishedAt', hmem⟩ := hall id hs
  exact ⟨seen', publishedAt', List.mem_append_left _ hmem⟩

theorem Idle.rely (h : Idle pid σ) (hr : Rely pid σ σ') : Idle pid σ' := by
  obtain ⟨hstatuses, hversions, hchanged⟩ := h
  exact ⟨by rw [hr.stays.pending]; exact hstatuses, by rw [hr.stays.pending]; exact hversions,
    hr.changed.trans hchanged⟩

theorem Written.rely (h : Written v pid σ) (hr : Rely pid σ σ') : Written v pid σ' := by
  obtain ⟨hstatus, hversions, hpublication, hchanged⟩ := h
  refine ⟨?_, ?_, ?_, hr.changed.trans hchanged⟩
  · rw [hr.stays.pending]
    exact hstatus
  · rw [hr.stays.pending]
    exact hversions
  · rw [hr.stays.pending]
    exact hpublication.grow hr.grows

theorem Idle.rollback (h : σ.changed pid = []) : Idle pid (σ.rollback pid) :=
  ⟨by rw [pending_rollback_self]; rfl, by rw [pending_rollback_self]; rfl, h⟩

theorem pending_commit_self : (σ.commit pid).pending pid = [] := Function.update_self ..

theorem changed_commit_self :
    (σ.commit pid).changed pid = statusIds (σ.pending pid) ++ σ.changed pid :=
  Function.update_self ..

theorem Idle.commit (h : Idle pid σ) : Idle pid (σ.commit pid) := by
  refine ⟨by rw [pending_commit_self]; rfl, by rw [pending_commit_self]; rfl, ?_⟩
  rw [changed_commit_self, h.statuses, h.changed]
  rfl

theorem Idle.write (h : Idle pid σ) {w : Write} (hs : statusIds [w] = [])
    (hv : versionIds [w] = []) :
    Idle pid (σ.write pid w) := by
  refine ⟨?_, ?_, h.changed⟩
  · rw [pending_write_self, statusIds_append, h.statuses, hs]
    rfl
  · rw [pending_write_self, versionIds_append, h.versions, hv]
    rfl

theorem Idle.effect (h : Idle pid σ) (hs : Plain s) (hx : Effect pid c σ s σ') : Idle pid σ' := by
  cases hx with
  | none => exact h
  | insertDocument row =>
    have hw := h.write (w := .document { row with id := c.uuid }) rfl rfl
    exact ⟨hw.statuses, hw.versions, hw.changed⟩
  | insertVersion | setStatus | rollback => exact hs.elim
  | lock versionId document version db db' _ hdocument hversion =>
    have hpending : db'.pending = σ.pending :=
      (Db.lock_eq_some hversion).2.1.trans (Db.lock_eq_some hdocument).2.1
    refine ⟨?_, ?_, h.changed⟩
    · show statusIds (db'.pending pid) = []
      rw [hpending]
      exact h.statuses
    · show versionIds (db'.pending pid) = []
      rw [hpending]
      exact h.versions
  | insertAudit record => exact h.write rfl rfl
  | commit => exact h.commit
  | failedCommit => exact .rollback h.changed

theorem Idle.permit (h : Idle pid σ) (hs : Plain s) : permit pid s σ := by
  cases s with
  | commit => exact publication_of_nil h.statuses
  | insertVersion | setStatus | rollback | deleteDocument => exact hs.elim
  | _ => trivial

theorem idle_safe {α : Type} {p : Session α} (hp : p.Only Plain) (h : Idle pid σ₀) :
    SafeTo pid (fun _ σ => Idle pid σ) p σ₀ :=
  Safe.only (fun _ _ h hr => Idle.rely h hr)
    (fun _ _ hs h _ => ⟨h.permit hs, fun _ _ _ hx => h.effect hs (exec_effect hx)⟩) hp h

theorem Written.audit (h : Written v pid σ) (record : DocumentAuditRecord) :
    Written v pid (σ.write pid (.audit record)) := by
  refine ⟨?_, ?_, ?_, h.changed⟩
  · rw [pending_write_self, statusIds_append]
    exact List.mem_append_left _ h.status
  · rw [pending_write_self, versionIds_append, h.versions]
    rfl
  · rw [pending_write_self]
    exact h.publication.append rfl

theorem addAudit_written (record : DocumentAuditRecord) (h : Written v pid σ₀) :
    SafeTo pid (fun _ σ => Written v pid σ) (addAudit record) σ₀ := by
  refine Safe.stmt fun σ hr _ => ⟨trivial, fun c r σ' hx _ => ?_⟩
  have hw : Written v pid σ := h.rely hr
  have he := exec_effect hx
  cases he with
  | none => exact hw
  | insertAudit => exact hw.audit record

/-! ## Reading and locking versions -/

/-- The version is there, with what it is to supersede. -/
def Named (v : UUID) (supersedesVersionId : Option UUID) (t : Tables) : Prop :=
  ∃ row ∈ t.versions, row.id = v ∧ row.supersedesVersionId = supersedesVersionId

/-- The session has the version's lock, and the version is as it has seen it. -/
structure Locked (version : DocumentVersion) (pid : Nat) (σ : Store) : Prop where
  row : version ∈ σ.committed.versions
  lock : σ.locked (.version version.id) = some pid

theorem Named.grow {supersedesVersionId : Option UUID} {t t' : Tables}
    (h : Named v supersedesVersionId t) (hg : Grows t t') : Named v supersedesVersionId t' := by
  obtain ⟨row, hrow, hid, hs⟩ := h
  obtain ⟨row', hrow', hsame⟩ := hg row hrow
  exact ⟨row', hrow', hsame.id.trans hid, hsame.supersedesVersionId.trans hs⟩

theorem Locked.rely {version : DocumentVersion} (h : Locked version pid σ) (hr : Rely pid σ σ') :
    Locked version pid σ' :=
  ⟨hr.stays.same (.version version.id) h.lock version h.row rfl, (hr.stays.locked _).mpr h.lock⟩

theorem Locked.status {version : DocumentVersion} (h : Locked version pid σ) (hi : Inv σ) :
    σ.committed.statusOf version.id = some version.lifecycleStatus := by
  unfold Tables.statusOf
  rw [Tables.version_of_mem hi.ids h.row]
  rfl

/-- A session's own writes and locks leave it its locks. -/
theorem Locked.effect {version : DocumentVersion} (h : Locked version pid σ)
    (hx : Effect pid c σ s σ') (hc : s ≠ .commit) (hr : ∀ e, s ≠ .rollback e) :
    Locked version pid σ' := by
  cases hx with
  | none | insertDocument | insertVersion | setStatus | insertAudit => exact ⟨h.row, h.lock⟩
  | lock versionId document version' db db' _ hdocument hversion =>
    obtain ⟨hcommitted, -, -, hother, -⟩ := Db.lock_eq_some hdocument
    obtain ⟨hcommitted', -, hk, hother', -⟩ := Db.lock_eq_some hversion
    refine ⟨?_, ?_⟩
    · show version ∈ db'.committed.versions
      rw [hcommitted', hcommitted]
      exact h.row
    · show db'.locked (.version version.id) = some pid
      by_cases hid : Row.version version.id = .version version'.id
      · rw [hid]
        exact hk
      · rw [hother' _ hid, hother _ (by nofun)]
        exact h.lock
  | commit | failedCommit => exact absurd rfl hc
  | rollback e => exact absurd rfl (hr e)

/-- Statements that end no transaction. -/
def Within (s : Stmt) : Prop := s ≠ .commit ∧ ∀ e, s ≠ .rollback e

theorem Effect.grows (hx : Effect pid c σ s σ') : Grows σ.committed σ'.committed := by
  cases hx with
  | lock versionId document version db db' _ hdocument hversion =>
    show Grows σ.committed db'.committed
    rw [(Db.lock_eq_some hversion).1, (Db.lock_eq_some hdocument).1]
    exact .refl _
  | commit => exact grows_foldl _ _
  | none | insertDocument | insertVersion | setStatus | insertAudit | failedCommit | rollback =>
    exact .refl _

theorem only_lockSuperseded (document : Document) (supersedesVersionId : Option UUID) :
    (lockSuperseded document supersedesVersionId).Only Within := by
  cases supersedesVersionId with
  | none => trivial
  | some versionId =>
    refine Prog.Only.bind (.exec ⟨fun h => (nomatch h), fun _ h => nomatch h⟩) fun found => ?_
    cases found with
    | none => trivial
    | some row =>
      obtain ⟨oldDocument, old⟩ := row
      show Prog.Only Within (if oldDocument.id ≠ document.id then throw _ else
        if old.lifecycleStatus ≠ .PUBLISHED then throw _ else pure (some old))
      split
      · trivial
      · split <;> trivial

/-- Beside a program that ends no transaction, versions stay locked. -/
theorem SafeTo.locked {α : Type} {post : Except DocumentError α → Store → Prop} {p : Session α}
    {versions : List DocumentVersion} (h : SafeTo pid post p σ₀) (hp : p.Only Within)
    (hl : ∀ version ∈ versions, Locked version pid σ₀) :
    SafeTo pid (fun r σ => post r σ ∧ ∀ version ∈ versions, Locked version pid σ) p σ₀ :=
  Safe.frame h (fun _ _ h hr version hv => (h version hv).rely hr)
    (fun _ _ _ _ _ hs h hx version hv => (h version hv).effect (exec_effect hx) hs.1 hs.2) hp hl

/-- Beside any program, a version stays there. -/
theorem SafeTo.named {α : Type} {post : Except DocumentError α → Store → Prop} {p : Session α}
    {supersedesVersionId : Option UUID} (h : SafeTo pid post p σ₀)
    (hn : Named v supersedesVersionId σ₀.committed) :
    SafeTo pid (fun r σ => post r σ ∧ Named v supersedesVersionId σ.committed) p σ₀ :=
  Safe.frame h (fun _ _ h hr => h.grow hr.grows)
    (fun _ _ _ _ _ _ h hx => h.grow (exec_effect hx).grows) (.all p) hn

theorem versions_foldl {ws : List Write} (hs : statusIds ws = []) (hv : versionIds ws = [])
    (t : Tables) :
    (ws.foldl (fun t w => w.apply t) t).versions = t.versions := by
  induction ws generalizing t with
  | nil => rfl
  | cons w ws ih =>
    cases w with
    | document | audit => exact ih hs hv _
    | version => cases hv
    | status => cases hs

theorem load_eq_some {t : Tables} {document : Document} {version : DocumentVersion}
    (h : t.load v = some (document, version)) :
    version ∈ t.versions ∧ version.id = v ∧ t.document version.documentId = some document := by
  obtain ⟨row, hrow, h⟩ := Option.bind_eq_some_iff.mp h
  obtain ⟨document', hdocument, h⟩ := Option.bind_eq_some_iff.mp h
  cases h
  exact ⟨(Tables.version_mem hrow).1, (Tables.version_mem hrow).2, hdocument⟩

/-- What a session with nothing written reads is committed. -/
theorem Idle.load {document : Document} {version : DocumentVersion} (h : Idle pid σ)
    (hl : (σ.view pid).load v = some (document, version)) :
    version ∈ σ.committed.versions ∧ version.id = v := by
  obtain ⟨hmem, hid, -⟩ := load_eq_some hl
  have hversions : (σ.view pid).versions = σ.committed.versions :=
    versions_foldl h.statuses h.versions _
  exact ⟨hversions ▸ hmem, hid⟩

/-- Statements other than these raise only as they are lost. -/
theorem exec_error {e : DocumentError} (h : exec pid s c σ = some (.error e, σ')) (hc : s ≠ .commit)
    (hv : ∀ row, s ≠ .insertVersion row) : ∃ typeName, e = .raised typeName := by
  rcases exec_cases h with h | ⟨typeName, heq, -⟩
  · cases s with
    | commit => exact absurd rfl hc
    | insertVersion row => exact absurd rfl (hv row)
    | insertDocument =>
      simp only [perform] at h
      split at h <;> cases h
    | lockVersion =>
      simp only [perform] at h
      split at h
      · cases h
      · obtain ⟨db, -, h⟩ := Option.bind_eq_some_iff.mp h
        obtain ⟨db', -, h⟩ := Option.bind_eq_some_iff.mp h
        cases h
    | _ => cases h
  · cases heq
    exact ⟨typeName, rfl⟩

/-- It is not raised that a publication is pending. -/
def NotPending {α : Type} (r : Except DocumentError α) : Prop :=
  ∀ ingestionJobId, r ≠ .error (.publishPending ingestionJobId)

theorem exec_notPending {r : Except DocumentError s.Res} (h : exec pid s c σ = some (r, σ'))
    (hc : s ≠ .commit) (hv : ∀ row, s ≠ .insertVersion row) : NotPending r := by
  rintro ingestionJobId rfl
  obtain ⟨typeName, heq⟩ := exec_error h hc hv
  cases heq

theorem getVersion_safe (versionId : UUID) (h : Idle pid σ₀) :
    SafeTo pid (fun r σ => Idle pid σ ∧ NotPending r ∧ ∀ record, r = .ok record →
      record.versionId = versionId ∧
      Named versionId record.supersedesVersionId σ.committed) (getVersion versionId) σ₀ := by
  have hload : SafeTo pid (fun r σ => Idle pid σ ∧ NotPending r ∧ ∀ document version,
      r = .ok (some (document, version)) → version ∈ σ.committed.versions ∧ version.id = versionId)
      (Prog.exec (Stmt.loadVersion versionId)) σ₀ := by
    refine Safe.stmt fun σ hr _ => ⟨trivial, fun c r σ' hx _ => ?_⟩
    have hidle := h.rely hr
    refine ⟨hidle.effect (s := .loadVersion versionId) trivial (exec_effect hx),
      exec_notPending hx (fun h => by cases h) (fun _ h => (by cases h)),
      fun document version hv => ?_⟩
    subst hv
    rcases exec_cases hx with hx | ⟨e, he, -⟩
    · simp only [perform, Option.some.injEq, Prod.mk.injEq, Except.ok.injEq] at hx
      obtain ⟨hl, rfl⟩ := hx
      exact hidle.load hl
    · cases he
  refine Safe.andThen hload (fun found σ hσ => ?_) fun e σ hσ => ⟨hσ.1, ?_, fun _ h => (by cases h)⟩
  · cases found with
    | none => exact ⟨hσ.1, fun _ h => (by cases h), fun _ h => (by cases h)⟩
    | some row =>
      obtain ⟨document, version⟩ := row
      obtain ⟨hidle, -, hrow⟩ := hσ
      obtain ⟨hmem, hid⟩ := hrow document version rfl
      show SafeTo pid _ (ofExcept (toRecord document version)) σ
      unfold toRecord
      split
      · refine ⟨hidle, fun _ h => (by cases h), fun record heq => ?_⟩
        cases heq
        exact ⟨hid, version, hmem, hid, rfl⟩
      · exact ⟨hidle, fun _ h => (by cases h), fun _ h => (by cases h)⟩
  · intro ingestionJobId heq
    cases heq
    exact hσ.2.1 ingestionJobId rfl

/-- The version is locked, or the statement says it is not there or is lost. -/
theorem lockVersion_safe (versionId : UUID) (h : Idle pid σ₀) :
    SafeTo pid (fun r σ => Idle pid σ ∧ NotPending r ∧
      ∀ document version, r = .ok (some (document, version)) →
      Locked version pid σ ∧ version.id = versionId)
        (Prog.exec (Stmt.lockVersion versionId)) σ₀ := by
  refine Safe.stmt fun σ hr _ => ⟨trivial, fun c r σ' hx _ => ?_⟩
  have hidle := h.rely hr
  refine ⟨hidle.effect (s := .lockVersion versionId) trivial (exec_effect hx),
    exec_notPending hx (fun h => nomatch h) (fun _ h => nomatch h),
    fun document version hv => ?_⟩
  subst hv
  rcases exec_cases hx with hx | ⟨e, he, -⟩
  · simp only [perform] at hx
    split at hx
    · cases hx
    · next document' version' hload =>
      obtain ⟨db, hdocument, hx⟩ := Option.bind_eq_some_iff.mp hx
      obtain ⟨db', hversion, hx⟩ := Option.bind_eq_some_iff.mp hx
      cases hx
      obtain ⟨hmem, hid⟩ := hidle.load hload
      obtain ⟨hcommitted, -⟩ := Db.lock_eq_some hdocument
      obtain ⟨hcommitted', -, hk, -⟩ := Db.lock_eq_some hversion
      refine ⟨⟨?_, hk⟩, hid⟩
      show version ∈ db'.committed.versions
      rw [hcommitted', hcommitted]
      exact hmem
  · cases he

/-- What the writing of statuses ends in: they are written, or nothing is committed. -/
def Writes (v : UUID) (pid : Nat) {α : Type} (r : Except DocumentError α) (σ : Store) : Prop :=
  NotPending r ∧ match r with
    | .ok _ => Written v pid σ
    | .error _ => σ.changed pid = []

theorem toRecord_safe {document : Document} {version : DocumentVersion} (h : Written v pid σ₀) :
    SafeTo pid (Writes v pid) (ofExcept (toRecord document version)) σ₀ := by
  unfold toRecord
  split
  · exact ⟨fun _ h => (nomatch h), h⟩
  · exact ⟨fun _ h => (nomatch h), h.changed⟩

/-- A status is written where its version is locked. -/
theorem setStatus_safe {version : DocumentVersion} {target : DocumentLifecycleStatus}
    {publishedAt : Option Nat} (ht : canTransitionDocument version.lifecycleStatus target = true)
    (hd : target ≠ .DELETED) (h : Idle pid σ₀) (hl : Locked version pid σ₀) :
    SafeTo pid (fun r σ => NotPending r ∧ σ.changed pid = [] ∧ Locked version pid σ ∧
      (∀ a, r = .ok a →
      ∃ ws, statusIds ws = [] ∧ versionIds ws = [] ∧
        σ.pending pid = ws ++ [.status version.id version.lifecycleStatus target publishedAt]))
      (Prog.exec (Stmt.setStatus version.id version.lifecycleStatus target publishedAt)) σ₀ := by
  refine Safe.stmt fun σ hr hi => ?_
  have hidle := h.rely hr
  have hlocked := hl.rely hr
  refine ⟨⟨hlocked.lock, ?_, ht, hlocked.status hi, hd⟩, fun c r σ' hx _ => ?_⟩
  · rw [hidle.statuses]
    exact List.not_mem_nil
  · refine ⟨exec_notPending hx (fun h => nomatch h) (fun _ h => nomatch h), ?_,
      hlocked.effect (exec_effect hx) (fun h => nomatch h) (fun _ h => nomatch h), fun a ha => ?_⟩
    · cases exec_effect hx with
      | none | setStatus => exact hidle.changed
    · subst ha
      rcases exec_cases hx with hx | ⟨e, he, -⟩
      · cases hx
        exact ⟨σ.pending pid, hidle.statuses, hidle.versions, pending_write_self⟩
      · cases he

theorem transition_safe (expected : DocumentLifecycleStatus) {target : DocumentLifecycleStatus}
    (ht : target ≠ .PUBLISHED) (hd : target ≠ .DELETED) (h : Idle pid σ₀) :
    SafeTo pid (Writes v pid) (transition v expected target) σ₀ := by
  refine Safe.andThen (lockVersion_safe v h) (fun found σ hσ => ?_) fun e σ hσ => ⟨?_, hσ.1.changed⟩
  · obtain ⟨hidle, -, hrow⟩ := hσ
    cases found with
    | none => exact ⟨fun _ h => (nomatch h), hidle.changed⟩
    | some row =>
      obtain ⟨document, version⟩ := row
      obtain ⟨hlocked, rfl⟩ := hrow document version rfl
      show SafeTo pid (Writes version.id pid) (if version.lifecycleStatus ≠ expected then
        throw _ else
        (ofExcept (transitionDocumentStatus version.lifecycleStatus target)).bind _) σ
      split
      · exact ⟨fun _ h => (nomatch h), hidle.changed⟩
      · unfold transitionDocumentStatus
        split
        · next hallowed =>
          show SafeTo pid _
            ((Prog.exec (Stmt.setStatus version.id version.lifecycleStatus target none)).bind
            fun _ =>
            ofExcept (toRecord document (setRowStatus target none version))) σ
          refine Safe.andThen (setStatus_safe hallowed hd hidle hlocked) (fun _ σ₁ hσ₁ => ?_)
            fun e σ₁ hσ₁ => ⟨?_, hσ₁.2.1⟩
          · obtain ⟨-, hchanged, -, hpending⟩ := hσ₁
            obtain ⟨ws, hstatuses, hversions, hpending⟩ := hpending _ rfl
            refine toRecord_safe ⟨?_, ?_, ?_, hchanged⟩
            · rw [hpending, statusIds_append]
              exact List.mem_append_right _ List.mem_cons_self
            · rw [hpending, versionIds_append, hversions]
              rfl
            · intro v' seen publishedAt hw
              rw [hpending, List.mem_append] at hw
              rcases hw with hw | hw
              · have hmem : v' ∈ statusIds ws := mem_statusIds.mpr ⟨_, _, _, hw⟩
                rw [hstatuses] at hmem
                cases hmem
              · cases List.mem_singleton.mp hw
                exact absurd rfl ht
          · intro ingestionJobId heq
            cases heq
            exact hσ₁.1 ingestionJobId rfl
        · exact ⟨fun _ h => (nomatch h), hidle.changed⟩
  · intro ingestionJobId heq
    cases heq
    exact hσ.2.1 ingestionJobId rfl

/-- The superseded version is locked too, and published. -/
theorem lockSuperseded_safe (document : Document) (supersedesVersionId : Option UUID)
    (h : Idle pid σ₀) :
    SafeTo pid (fun r σ => Idle pid σ ∧ NotPending r ∧ ∀ oldVersion, r = .ok oldVersion →
      oldVersion.map (·.id) = supersedesVersionId ∧
      ∀ old ∈ oldVersion.toList, Locked old pid σ ∧ old.lifecycleStatus = .PUBLISHED)
      (lockSuperseded document supersedesVersionId) σ₀ := by
  cases supersedesVersionId with
  | none =>
    refine ⟨h, fun _ h => (nomatch h), fun oldVersion heq => ?_⟩
    cases heq
    exact ⟨rfl, fun _ h => nomatch h⟩
  | some versionId =>
    refine Safe.andThen (lockVersion_safe versionId h) (fun found σ hσ => ?_)
      fun e σ hσ => ⟨hσ.1, ?_, fun _ h => nomatch h⟩
    · obtain ⟨hidle, -, hrow⟩ := hσ
      cases found with
      | none => exact ⟨hidle, fun _ h => (nomatch h), fun _ h => nomatch h⟩
      | some row =>
        obtain ⟨oldDocument, old⟩ := row
        obtain ⟨hold, hid⟩ := hrow oldDocument old rfl
        show SafeTo pid _ (if oldDocument.id ≠ document.id then throw _ else
          if old.lifecycleStatus ≠ .PUBLISHED then throw _ else pure (some old)) σ
        split
        · exact ⟨hidle, fun _ h => (nomatch h), fun _ h => nomatch h⟩
        · split
          · exact ⟨hidle, fun _ h => (nomatch h), fun _ h => nomatch h⟩
          · next hpublished =>
            refine ⟨hidle, fun _ h => (nomatch h), fun oldVersion heq => ?_⟩
            cases heq
            refine ⟨congrArg some hid, fun old' hmem => ?_⟩
            cases List.mem_singleton.mp hmem
            exact ⟨hold, not_not.mp hpublished⟩
    · intro ingestionJobId heq
      cases heq
      exact hσ.2.1 ingestionJobId rfl

/-- The published version's status, and that of the version it supersedes. -/
theorem publication_of_pending {t : Tables} {ws : List Write} {row : DocumentVersion}
    {seen : DocumentLifecycleStatus} {publishedAt : Option Nat} (hws : statusIds ws = [])
    (hrow : row ∈ t.versions) (old : List Write)
    (hold : ∀ w, w ∈ old ↔ ∃ id, row.supersedesVersionId = some id ∧
      w = .status id .PUBLISHED .SUPERSEDED none) :
    Publication (ws ++ .status row.id seen .PUBLISHED publishedAt :: old) t := by
  have hcases : ∀ {id seen' target publishedAt'},
      Write.status id seen' target publishedAt' ∈ ws ++
        .status row.id seen .PUBLISHED publishedAt :: old →
      (id = row.id ∧ target = .PUBLISHED) ∨ row.supersedesVersionId = some id ∧
        target = .SUPERSEDED := by
    intro id seen' target publishedAt' hw
    rcases List.mem_append.mp hw with hw | hw
    · have hmem : id ∈ statusIds ws := mem_statusIds.mpr ⟨_, _, _, hw⟩
      rw [hws] at hmem
      cases hmem
    · rcases List.mem_cons.mp hw with hw | hw
      · cases hw
        exact .inl ⟨rfl, rfl⟩
      · obtain ⟨id', hid', hw⟩ := (hold _).mp hw
        cases hw
        exact .inr ⟨hid', rfl⟩
  intro v seen' publishedAt' hv
  rcases hcases hv with ⟨rfl, -⟩ | ⟨-, heq⟩
  · refine ⟨row, hrow, rfl, fun id seen'' target publishedAt'' hw hne => ?_, fun id hid => ?_⟩
    · rcases hcases hw with ⟨heq, -⟩ | h
      · exact absurd heq hne
      · exact h
    · exact ⟨.PUBLISHED, none, List.mem_append_right _
        (List.mem_cons_of_mem _ ((hold _).mpr ⟨id, hid, rfl⟩))⟩
  · cases heq

/-- The last statement of a publication: the superseded version's status, where there is one. -/
theorem supersede_safe {version : DocumentVersion} {publishedAt : Option Nat} {ws : List Write}
    {oldVersion : Option DocumentVersion}
    (hws : statusIds ws = []) (hversions : versionIds ws = [])
    (hpending : σ₀.pending pid = ws ++ [.status version.id .APPROVED .PUBLISHED publishedAt])
    (hchanged : σ₀.changed pid = []) (happroved : version.lifecycleStatus = .APPROVED)
    (hnames : version.supersedesVersionId = oldVersion.map (·.id))
    (hversion : Locked version pid σ₀)
    (hold : ∀ old ∈ oldVersion.toList, Locked old pid σ₀ ∧ old.lifecycleStatus = .PUBLISHED) :
    SafeTo pid (fun r σ => NotPending r ∧ σ.changed pid = [] ∧
      (∀ a, r = .ok a → Written version.id pid σ))
      (match oldVersion with
        | none => pure ()
        | some oldVersion =>
          Prog.exec (Stmt.setStatus oldVersion.id oldVersion.lifecycleStatus .SUPERSEDED none)) σ₀
            := by
  have hwritten : ∀ (old : List Write) (σ : Store), Locked version pid σ → σ.changed pid = [] →
      σ.pending pid = ws ++ .status version.id .APPROVED .PUBLISHED publishedAt :: old →
        versionIds old = [] →
      (∀ w, w ∈ old ↔ ∃ id, version.supersedesVersionId = some id ∧
        w = .status id .PUBLISHED .SUPERSEDED none) →
      Written version.id pid σ := by
    intro old σ hlocked hchanged hpending hnone hall
    refine ⟨?_, ?_, ?_, hchanged⟩
    · rw [hpending, statusIds_append]
      exact List.mem_append_right _ List.mem_cons_self
    · rw [hpending, versionIds_append, hversions]
      exact hnone
    · rw [hpending]
      exact publication_of_pending hws hlocked.row old hall
  cases oldVersion with
  | none =>
    refine ⟨fun _ h => (nomatch h), hchanged, fun _ _ =>
      hwritten [] σ₀ hversion hchanged hpending rfl fun w => ?_⟩
    rw [hnames]
    simp
  | some old =>
    obtain ⟨hlocked, hpublished⟩ := hold old List.mem_cons_self
    refine Safe.stmt fun σ hr hi => ?_
    have hversion' := hversion.rely hr
    have hlocked' := hlocked.rely hr
    have hpending' := hr.stays.pending.trans hpending
    have hne : old.id ≠ version.id := by
      intro heq
      have hstatus := hlocked'.status hi
      rw [heq, hversion'.status hi, happroved, hpublished] at hstatus
      cases hstatus
    refine ⟨⟨hlocked'.lock, ?_, ?_, hlocked'.status hi, fun h => nomatch h⟩, fun c r σ' hx _ => ?_⟩
    · show old.id ∉ statusIds (σ.pending pid)
      rw [hpending', statusIds_append, hws]
      exact fun hmem => hne (List.mem_singleton.mp hmem)
    · rw [hpublished]
      rfl
    · refine ⟨exec_notPending hx (fun h => nomatch h) fun _ h => (nomatch h), ?_, fun a ha => ?_⟩
      · cases exec_effect hx with
        | none | setStatus => exact hr.changed.trans hchanged
      · subst ha
        rcases exec_cases hx with hx | ⟨e, he, -⟩
        · cases hx
          refine hwritten [.status old.id .PUBLISHED .SUPERSEDED none] _ ⟨hversion'.row,
            hversion'.lock⟩
            (hr.changed.trans hchanged) ?_ rfl fun w => ?_
          · rw [pending_write_self, hpending', hpublished, List.append_assoc]
            rfl
          · rw [hnames]
            simp
        · cases he

theorem completePublication_safe {supersedesVersionId : Option UUID} (h : Idle pid σ₀)
    (hn : Named v supersedesVersionId σ₀.committed) :
    SafeTo pid (Writes v pid) (completePublication v supersedesVersionId) σ₀ := by
  have hraise : ∀ {α β : Type} {e : DocumentError}, NotPending (.error e : Except DocumentError α) →
      NotPending (.error e : Except DocumentError β) := by
    intro α β e h ingestionJobId heq
    cases heq
    exact h ingestionJobId rfl
  refine Safe.andThen (SafeTo.named (lockVersion_safe v h) hn) (fun found σ hσ => ?_)
    fun e σ hσ => ⟨hraise hσ.1.2.1, hσ.1.1.changed⟩
  obtain ⟨⟨hidle, -, hrow⟩, hn⟩ := hσ
  cases found with
  | none => exact ⟨fun _ h => (nomatch h), hidle.changed⟩
  | some row =>
    obtain ⟨document, version⟩ := row
    obtain ⟨hlocked, rfl⟩ := hrow document version rfl
    show SafeTo pid _ (if version.lifecycleStatus ≠ .APPROVED then throw _ else
      (lockSuperseded document supersedesVersionId).bind _) σ
    split
    · exact ⟨fun _ h => (nomatch h), hidle.changed⟩
    · next happroved =>
      have happroved := not_not.mp happroved
      refine Safe.andThen (SafeTo.named (SafeTo.locked
        (lockSuperseded_safe document supersedesVersionId hidle) (only_lockSuperseded _ _)
        (List.forall_mem_singleton.mpr hlocked)) hn) (fun oldVersion σ₁ hσ₁ => ?_) fun e σ₁ hσ₁ =>
          ⟨hraise hσ₁.1.1.2.1, hσ₁.1.1.1.changed⟩
      obtain ⟨⟨⟨hidle₁, -, hold⟩, hlocked₁⟩, hn₁⟩ := hσ₁
      obtain ⟨hnames, hold⟩ := hold oldVersion rfl
      have hall : ∀ row ∈ version :: oldVersion.toList, Locked row pid σ₁ := by
        intro row hmem
        rcases List.mem_cons.mp hmem with rfl | hmem
        · exact hlocked₁ row List.mem_cons_self
        · exact (hold row hmem).1
      have hnow : SafeTo pid (fun r σ =>
        (Idle pid σ ∧ NotPending r ∧ version.supersedesVersionId = supersedesVersionId) ∧
          ∀ row ∈ version :: oldVersion.toList, Locked row pid σ) (Prog.exec Stmt.now) σ₁ := by
        refine SafeTo.locked (Safe.stmt fun σ₂ hr hi => ⟨trivial, fun c r σ₃ hx _ => ?_⟩)
          (.exec ⟨fun h => (nomatch h), fun _ h => nomatch h⟩) hall
        refine ⟨(hidle₁.rely hr).effect (s := .now) trivial (exec_effect hx),
          exec_notPending hx (fun h => nomatch h) (fun _ h => nomatch h), ?_⟩
        obtain ⟨row, hrow, hid, hnamed⟩ := hn₁.grow hr.grows
        have heq := Tables.version_of_mem hi.ids ((hlocked₁ version List.mem_cons_self).rely hr).row
        rw [← hid, Tables.version_of_mem hi.ids hrow] at heq
        cases heq
        exact hnamed
      refine Safe.andThen hnow (fun now σ₂ hσ₂ => ?_) fun e σ₂ hσ₂ =>
        ⟨hraise hσ₂.1.2.1, hσ₂.1.1.changed⟩
      obtain ⟨⟨hidle₂, -, hnamed⟩, hall₂⟩ := hσ₂
      have hallowed : canTransitionDocument version.lifecycleStatus .PUBLISHED = true := by
        rw [happroved]; rfl
      have hset :=
        SafeTo.locked (@setStatus_safe _ _ version .PUBLISHED (some now) hallowed (fun h =>
        nomatch h) hidle₂
        (hall₂ version List.mem_cons_self))
          (.exec ⟨fun h => (nomatch h), fun _ h => nomatch h⟩) hall₂
      refine Safe.andThen hset (fun _ σ₃ hσ₃ => ?_) fun e σ₃ hσ₃ => ⟨hraise hσ₃.1.1, hσ₃.1.2.1⟩
      obtain ⟨⟨-, hchanged, hlocked₃, hpending⟩, hall₃⟩ := hσ₃
      obtain ⟨ws, hws, hversions, hpending⟩ := hpending _ rfl
      rw [happroved] at hpending
      have hlast := supersede_safe hws hversions hpending hchanged happroved
        (hnamed.trans hnames.symm) hlocked₃
        fun old hmem => ⟨hall₃ old (List.mem_cons_of_mem _ hmem), (hold old hmem).2⟩
      have hend : SafeTo pid (Writes version.id pid) (Prog.bind _ fun _ =>
          ofExcept (toRecord document (setRowStatus .PUBLISHED (some now) version))) σ₃ :=
        Safe.andThen hlast (fun _ σ₄ hσ₄ => toRecord_safe (hσ₄.2.2 _ rfl)) fun e σ₄ hσ₄ =>
          ⟨hraise hσ₄.1, hσ₄.2.1⟩
      cases oldVersion with
      | none => exact hend
      | some old => exact hend

end ProjectAgent.Documents
