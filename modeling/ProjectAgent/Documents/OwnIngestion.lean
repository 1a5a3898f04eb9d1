/-
Whose ingestion a version is published on. A publication asks the provider
after the job its own submission was answered with; a finalization asks after
the job its client names, and nothing compares the two. So what is published
rests on an ingestion of its own exactly as far as clients send back what they
were given.
-/
import ProjectAgent.Documents.Publication
import ProjectAgent.Lib.Recorded

namespace ProjectAgent.Documents

open Interleave

/-- The statements of a run with their answers, the newest first. -/
abbrev Record := List (Answered Stmt Stmt.Res DocumentError)

abbrev RecordedWorld := World Stmt Stmt.Res DocumentError (Store × Record)

/-- The jobs that submissions of this version were answered with. -/
def submittedJobs (record : Record) (versionId : UUID) : List String :=
  record.filterMap fun
    | ⟨.ingest request, .ok ingestionJobId⟩ =>
      if request.documentVersionId = versionId.str then some ingestionJobId else none
    | _ => none

/-- The request is for this version, under the code of the project its document was read to belong
to. -/
def RequestedFor (record : Record) (versionId : UUID)
    (request : KnowledgeIngestionRequest) : Prop :=
  request.documentVersionId = versionId.str ∧ ∃ document version,
    ⟨.loadVersion versionId, .ok (some (document, version))⟩ ∈ record ∧
    ⟨.selectProjectCode document.projectId, .ok (some request.projectId)⟩ ∈ record

/-- An ingestion of this version and its project was submitted, and its job was reported to have
succeeded since. -/
def OwnIngestion (record : Record) (versionId : UUID) : Prop :=
  ∃ later earlier request ingestionJobId status,
    record = later ++ ⟨.ingest request, .ok ingestionJobId⟩ :: earlier ∧
      RequestedFor earlier versionId request ∧
    ⟨.getIngestionStatus ingestionJobId, .ok status⟩ ∈ later ∧ status.state = .SUCCEEDED

/-- What is published was ingested. -/
def PublishedOnOwn (w : RecordedWorld) : Prop :=
  ∀ row ∈ w.shared.1.committed.versions, row.lifecycleStatus = .PUBLISHED →
    OwnIngestion w.shared.2 row.id

/-- A finalization names a job that a submission of its version was answered with. -/
def FinalizesOwn : DocumentAction → RecordedWorld → Prop
  | .start (.finalize versionId ingestionJobId _) _, w =>
    ingestionJobId ∈ submittedJobs w.shared.2 versionId
  | _, _ => True

variable {pid : Nat} {c : Choice} {σ σ' : Store} {s : Stmt} {v versionId : UUID}
  {x x' x₀ : Store × Record}
  {record record' : Record} {ingestionJobId : String}

/-! ## The record -/

theorem mem_submittedJobs : ingestionJobId ∈ submittedJobs record v ↔
    ∃ request, ⟨.ingest request, .ok ingestionJobId⟩ ∈ record ∧
      request.documentVersionId = v.str := by
  unfold submittedJobs
  rw [List.mem_filterMap]
  constructor
  · rintro ⟨⟨s, r⟩, hmem, heq⟩
    cases s with
    | ingest request =>
      cases r with
      | error e => cases heq
      | ok j =>
        by_cases hid : request.documentVersionId = v.str
        · simp only [if_pos hid, Option.some.injEq] at heq
          subst heq
          exact ⟨request, hmem, hid⟩
        · simp only [if_neg hid] at heq
          cases heq
    | _ => cases heq
  · rintro ⟨request, hmem, hid⟩
    exact ⟨_, hmem, if_pos hid⟩

theorem submittedJobs_grow (h : record <:+ record') (hj : ingestionJobId ∈ submittedJobs record v) :
    ingestionJobId ∈ submittedJobs record' v := by
  obtain ⟨request, hmem, hid⟩ := mem_submittedJobs.mp hj
  exact mem_submittedJobs.mpr ⟨request, h.subset hmem, hid⟩

theorem OwnIngestion.grow (h : OwnIngestion record v) (hg : record <:+ record') :
    OwnIngestion record' v := by
  obtain ⟨later, earlier, request, j, status, rfl, hrequest, hstatus, hs⟩ := h
  obtain ⟨newer, rfl⟩ := hg
  exact ⟨newer ++ later, earlier, request, j, status, (List.append_assoc ..).symm, hrequest,
    List.mem_append_right _ hstatus, hs⟩

/-! ## The specification -/

/-- Every submission was made for a version and its project; what is published, or written to be,
was ingested. -/
structure Recorded (x : Store × Record) : Prop where
  submissions : ∀ later earlier request ingestionJobId,
    x.2 = later ++ ⟨.ingest request, .ok ingestionJobId⟩ :: earlier →
      ∃ v, RequestedFor earlier v request
  inserted : ∀ pid row, .version row ∈ x.1.pending pid → row.lifecycleStatus ≠ .PUBLISHED
  written : ∀ pid v seen publishedAt, .status v seen .PUBLISHED publishedAt ∈ x.1.pending pid →
    OwnIngestion x.2 v
  published : ∀ row ∈ x.1.committed.versions, row.lifecycleStatus = .PUBLISHED →
    OwnIngestion x.2 row.id

/-- What a session knows when it issues a statement. -/
def permitRecorded (s : Stmt) (x : Store × Record) : Prop :=
  match s with
  | .setStatus versionId _ target _ => target = .PUBLISHED → OwnIngestion x.2 versionId
  | .insertVersion row => row.lifecycleStatus ≠ .PUBLISHED
  | .ingest request => ∃ v, RequestedFor x.2 v request
  | _ => True

def recordedSpec : Spec Stmt (Store × Record) where
  inv := Recorded
  rely _ x x' := x.2 <:+ x'.2
  permit _ := permitRecorded
  refl _ x := List.suffix_refl x.2
  trans _ _ _ _ := List.IsSuffix.trans

theorem recordedSpec_onRecord : recordedSpec.OnRecord := fun _ _ _ => Iff.rfl

/-! ## What the statements keep -/

/-- What is published once these writes are applied was so before, or one of them makes it so. -/
theorem published_foldl {ws : List Write} {t : Tables} {row : DocumentVersion}
    (h : row ∈ (ws.foldl (fun t w => w.apply t) t).versions)
    (hp : row.lifecycleStatus = .PUBLISHED) :
    (∃ row₀ ∈ t.versions, row₀.id = row.id ∧ row₀.lifecycleStatus = .PUBLISHED) ∨
    (∃ row₀, Write.version row₀ ∈ ws ∧ row₀.lifecycleStatus = .PUBLISHED) ∨
    ∃ seen publishedAt, Write.status row.id seen .PUBLISHED publishedAt ∈ ws := by
  induction ws generalizing t with
  | nil => exact .inl ⟨row, h, rfl, hp⟩
  | cons w ws ih =>
    rcases ih h with ⟨row₁, hmem, hid, hp₁⟩ | ⟨row₁, hmem, hp₁⟩ | ⟨seen, publishedAt, hmem⟩
    · cases w with
      | document | audit => exact .inl ⟨row₁, hmem, hid, hp₁⟩
      | version row' =>
        rcases List.mem_cons.mp hmem with rfl | hmem
        · exact .inr (.inl ⟨row₁, List.mem_cons_self, hp₁⟩)
        · exact .inl ⟨row₁, hmem, hid, hp₁⟩
      | status versionId seen target publishedAt =>
        obtain ⟨row₀, hrow₀, hrow₁⟩ := List.mem_map.mp hmem
        by_cases heq : row₀.id = versionId
        · rw [if_pos heq] at hrow₁
          subst hrow₁
          have htarget : target = .PUBLISHED := hp₁
          have hid : row₀.id = row.id := hid
          rw [← heq, hid, htarget]
          exact .inr (.inr ⟨seen, publishedAt, List.mem_cons_self⟩)
        · rw [if_neg heq] at hrow₁
          subst hrow₁
          exact .inl ⟨row₀, hrow₀, hid, hp₁⟩
    · exact .inr (.inl ⟨row₁, List.mem_cons_of_mem _ hmem, hp₁⟩)
    · exact .inr (.inr ⟨seen, publishedAt, List.mem_cons_of_mem _ hmem⟩)

/-- The store may change in what it says of no publication. -/
theorem Recorded.grow (h : Recorded (σ, record)) {a : Answered Stmt Stmt.Res DocumentError}
    (ha : ∀ request ingestionJobId, a = ⟨.ingest request, .ok ingestionJobId⟩ →
      ∃ v, RequestedFor record v request) :
    Recorded (σ, a :: record) where
  submissions later earlier request j heq := by
    cases later with
    | nil =>
      obtain ⟨hhead, htail⟩ := List.cons.inj heq
      rw [← htail]
      exact ha request j hhead
    | cons b later => exact h.submissions later earlier request j (List.cons.inj heq).2
  inserted := h.inserted
  written p v seen publishedAt hw := (h.written p v seen publishedAt hw).grow (List.suffix_cons ..)
  published row hrow hp := (h.published row hrow hp).grow (List.suffix_cons ..)

theorem Recorded.store (h : Recorded (σ, record)) (hcommitted : σ'.committed = σ.committed)
    (hpending : ∀ p, ∀ w ∈ σ'.pending p, w ∈ σ.pending p) : Recorded (σ', record) where
  submissions := h.submissions
  inserted p row hw := h.inserted p row (hpending p _ hw)
  written p v seen publishedAt hw := h.written p v seen publishedAt (hpending p _ hw)
  published row hrow := h.published row (hcommitted ▸ hrow)

theorem Recorded.write (h : Recorded (σ, record)) {w : Write}
    (hv : ∀ row, w = .version row → row.lifecycleStatus ≠ .PUBLISHED)
    (hs : ∀ v seen publishedAt, w = .status v seen .PUBLISHED publishedAt → OwnIngestion record v) :
    Recorded (σ.write pid w, record) := by
  have hcases : ∀ p, ∀ w' ∈ (σ.write pid w).pending p, w' ∈ σ.pending p ∨ w' = w := by
    intro p w' hw'
    by_cases hp : p = pid
    · subst hp
      rw [pending_write_self] at hw'
      rcases List.mem_append.mp hw' with hw' | hw'
      · exact .inl hw'
      · exact .inr (List.mem_singleton.mp hw')
    · rw [pending_write_of_ne hp] at hw'
      exact .inl hw'
  refine ⟨h.submissions, fun p row hw => ?_, fun p v seen publishedAt hw => ?_, h.published⟩
  · rcases hcases p _ hw with hw | hw
    · exact h.inserted p row hw
    · exact hv row hw.symm
  · rcases hcases p _ hw with hw | hw
    · exact h.written p v seen publishedAt hw
    · exact hs v seen publishedAt hw.symm

theorem Recorded.rollback (h : Recorded (σ, record)) (pid : Nat) :
    Recorded (σ.rollback pid, record) := by
  refine h.store rfl fun p w hw => ?_
  by_cases hp : p = pid
  · subst hp
    rw [pending_rollback_self] at hw
    cases hw
  · rwa [pending_rollback_of_ne hp] at hw

theorem Recorded.commit (h : Recorded (σ, record)) (pid : Nat) :
    Recorded (σ.commit pid, record) := by
  have hpending : ∀ p, ∀ w ∈ (σ.commit pid).pending p, w ∈ σ.pending p := by
    intro p w hw
    by_cases hp : p = pid
    · subst hp
      rw [pending_commit_self] at hw
      cases hw
    · have hsame : (σ.commit pid).pending p = σ.pending p := Function.update_of_ne hp ..
      rwa [hsame] at hw
  refine ⟨h.submissions, fun p row hw => h.inserted p row (hpending p _ hw),
    fun p v seen publishedAt hw => h.written p v seen publishedAt (hpending p _ hw),
      fun row hrow hp => ?_⟩
  rcases published_foldl hrow hp with ⟨row₀, hrow₀, hid, hp₀⟩ | ⟨row₀, hw, hp₀⟩ |
    ⟨seen, publishedAt, hw⟩
  · rw [← hid]
    exact h.published row₀ hrow₀ hp₀
  · exact absurd hp₀ (h.inserted pid row₀ hw)
  · exact h.written pid row.id seen publishedAt hw

theorem Effect.recorded (hx : Effect pid c σ s σ') (h : Recorded (σ, record))
    (hp : permitRecorded s (σ, record)) :
    Recorded (σ', record) := by
  cases hx with
  | none => exact h
  | insertDocument row =>
    have hw : Recorded (σ.write pid (.document { row with id := c.uuid }), record) :=
      h.write (fun _ h => nomatch h) fun _ _ _ h => nomatch h
    exact hw.store rfl fun _ _ hmem => hmem
  | insertVersion row =>
    have hw : Recorded (σ.write pid (.version { row with id := c.uuid }), record) := by
      refine h.write (fun row' heq => ?_) fun _ _ _ h => nomatch h
      cases heq
      exact hp
    exact hw.store rfl fun _ _ hmem => hmem
  | lock versionId document version db db' _ hdocument hversion =>
    refine h.store ?_ fun p w hw => ?_
    · exact (Db.lock_eq_some hversion).1.trans (Db.lock_eq_some hdocument).1
    · have hsame : db'.pending = σ.pending :=
        (Db.lock_eq_some hversion).2.1.trans (Db.lock_eq_some hdocument).2.1
      rwa [← hsame]
  | setStatus versionId seen target publishedAt =>
    refine h.write (fun _ h => nomatch h) fun v seen' publishedAt' heq => ?_
    cases heq
    exact hp rfl
  | insertAudit record' => exact h.write (fun _ h => nomatch h) fun _ _ _ h => nomatch h
  | commit => exact h.commit pid
  | failedCommit | rollback => exact h.rollback pid

theorem recorded_exec_kept {r : Except DocumentError s.Res} (h : Recorded x)
    (hp : permitRecorded s x) (hx : machine.recorded.exec pid s c x = some (r, x')) :
    Recorded x' := by
  obtain ⟨hx, hrecord⟩ := Machine.recorded_exec hx
  obtain ⟨σ', record'⟩ := x'
  obtain rfl : record' = ⟨s, r⟩ :: x.2 := hrecord
  refine ((exec_effect hx).recorded h hp).grow fun request ingestionJobId heq => ?_
  cases heq
  exact hp

/-! ## What the sessions issue -/

/-- What submits nothing and publishes nothing. -/
def Elsewhere : Stmt → Prop
  | .setStatus _ _ target _ => target ≠ .PUBLISHED
  | .insertVersion row => row.lifecycleStatus ≠ .PUBLISHED
  | .ingest _ => False
  | _ => True

theorem Elsewhere.permit (h : Elsewhere s) : permitRecorded s x := by
  cases s with
  | setStatus => exact fun hp => absurd hp h
  | insertVersion => exact h
  | ingest => exact h.elim
  | _ => trivial

/-- Beside any others, a session issues only what is permitted. -/
abbrev KeepsTo {α : Type} (pid : Nat) (x : Store × Record) (p : Session α)
    (Q : α → Store × Record → Prop) : Prop :=
  Keeps machine.recorded recordedSpec pid x p Q

theorem elsewhere_keeps {α : Type} {p : Session α} (h : p.Only Elsewhere) :
    KeepsTo pid x₀ p fun _ _ => True :=
  recordedSpec_onRecord.only h fun _ _ => Elsewhere.permit

/-- A statement of this kind, and that its answer is on record. -/
theorem answered_keeps (hs : Elsewhere s) :
    KeepsTo pid x₀ (Prog.exec s) fun a x => ⟨s, .ok a⟩ ∈ x.2 :=
  recordedSpec_onRecord.stmt (fun _ _ _ => hs.permit) fun _ _ _ _ _ _ _ => List.mem_cons_self

theorem only_getVersion (versionId : UUID) : (getVersion versionId).Only Elsewhere := by
  refine Prog.Only.bind (.exec trivial) fun found => ?_
  cases found with
  | none => trivial
  | some row =>
    show Prog.Only Elsewhere (ofExcept (toRecord row.1 row.2))
    cases toRecord row.1 row.2 <;> trivial

theorem only_transition (versionId : UUID) (expected : DocumentLifecycleStatus)
    {target : DocumentLifecycleStatus} (ht : target ≠ .PUBLISHED) :
    (transition versionId expected target).Only Elsewhere := by
  refine Prog.Only.bind (.exec trivial) fun found => ?_
  cases found with
  | none => trivial
  | some row =>
    obtain ⟨document, version⟩ := row
    show Prog.Only Elsewhere (if version.lifecycleStatus ≠ expected then throw _ else
      (ofExcept (transitionDocumentStatus version.lifecycleStatus target)).bind fun target =>
        (Prog.exec (Stmt.setStatus versionId version.lifecycleStatus target none)).bind fun _ =>
          ofExcept (toRecord document (setRowStatus target none version)))
    split
    · trivial
    · unfold transitionDocumentStatus
      split
      · show Prog.Only Elsewhere
          ((Prog.exec (Stmt.setStatus versionId version.lifecycleStatus target none)).bind fun _ =>
          ofExcept (toRecord document (setRowStatus target none version)))
        refine Prog.Only.bind (.exec ht) fun _ => ?_
        cases toRecord document (setRowStatus target none version) <;> trivial
      · trivial

theorem only_knowledgeSpace (projectId : UUID) : (knowledgeSpaceId projectId).Only Elsewhere := by
  refine Prog.Only.bind (.exec trivial) fun spaces => ?_
  split <;> trivial

theorem only_addAudit (a : DocumentAuditRecord) : (addAudit a).Only Elsewhere := .exec trivial

/-- A use case that asks for a permission and moves the version on, but not to be published. -/
theorem only_moved {versionId : UUID} {denied : DocumentVersionRecord → Prop}
    [∀ current, Decidable (denied current)]
    {text : String} {expected target : DocumentLifecycleStatus} (ht : target ≠ .PUBLISHED)
    (audit : DocumentVersionRecord → DocumentAuditRecord) :
    Prog.Only Elsewhere ((getVersion versionId).bind fun current =>
      if denied current then throw (.permissionDenied text)
      else (transition versionId expected target).bind fun updated =>
        (addAudit (audit current)).bind fun _ => pure updated) := by
  refine Prog.Only.bind (only_getVersion versionId) fun current => ?_
  split
  · trivial
  · exact Prog.Only.bind (only_transition versionId expected ht) fun updated =>
      Prog.Only.bind (only_addAudit _) fun _ => trivial

theorem only_projectCodeOf (projectId : UUID) : (projectCode projectId).Only Elsewhere := by
  refine Prog.Only.bind (.exec trivial) fun code => ?_
  cases code <;> trivial

theorem only_deleteDocument (versionId : UUID) (actor : DocumentActor) :
    (deleteDocument versionId actor).Only Elsewhere := by
  unfold deleteDocument
  split
  · trivial
  · refine Prog.Only.bind (only_getVersion versionId) fun current => ?_
    refine Prog.Only.bind (only_transition versionId current.lifecycleStatus (fun h => nomatch h))
      fun pending => ?_
    refine Prog.Only.bind (only_addAudit _) fun _ => Prog.Only.bind (.exec trivial) fun _ => ?_
    exact Prog.Only.bind (only_projectCodeOf _) fun code =>
      Prog.Only.bind (only_knowledgeSpace _) fun space =>
      Prog.Only.bind (.exec trivial) fun _ => trivial

/-! ## A publication -/

/-- The row that is read or locked is the one that was asked for. -/
theorem answered_row {document : Document} {version : DocumentVersion}
    (hs : exec pid (.loadVersion versionId) c σ = some (.ok (some (document, version)), σ') ∨
      exec pid (.lockVersion versionId) c σ = some (.ok (some (document, version)), σ')) :
    version.id = versionId := by
  rcases hs with hx | hx
  · rcases exec_cases hx with hx | ⟨e, he, -⟩
    · simp only [perform, Option.some.injEq, Prod.mk.injEq, Except.ok.injEq] at hx
      exact (load_eq_some hx.1).2.1
    · cases he
  · rcases exec_cases hx with hx | ⟨e, he, -⟩
    · simp only [perform] at hx
      split at hx
      · cases hx
      · next document' version' hload =>
        obtain ⟨db, -, hx⟩ := Option.bind_eq_some_iff.mp hx
        obtain ⟨db', -, hx⟩ := Option.bind_eq_some_iff.mp hx
        cases hx
        exact (load_eq_some hload).2.1
    · cases he

/-- The version was read to belong to a document of this project. -/
def ReadIn (record : Record) (versionId projectId : UUID) : Prop :=
  ∃ document version, ⟨.loadVersion versionId, .ok (some (document, version))⟩ ∈ record ∧
    document.projectId = projectId

theorem getVersion_keeps (versionId : UUID) : KeepsTo pid x₀ (getVersion versionId) fun current x =>
    current.versionId = versionId ∧ ReadIn x.2 versionId current.projectId := by
  have hload : KeepsTo pid x₀ (Prog.exec (Stmt.loadVersion versionId)) fun found x =>
      ⟨.loadVersion versionId, .ok found⟩ ∈ x.2 ∧ ∀ document version,
        found = some (document, version) →
        version.id = versionId := by
    refine recordedSpec_onRecord.stmt (fun _ _ _ => trivial) fun x c found σ' _ _ hx =>
      ⟨List.mem_cons_self, ?_⟩
    rintro document version rfl
    exact answered_row (.inl hx)
  refine Keeps.bind hload fun found x _ ⟨hmem, hid⟩ => ?_
  cases found with
  | none => exact Keeps.raise _
  | some row =>
    obtain ⟨document, version⟩ := row
    show KeepsTo pid x (ofExcept (toRecord document version)) _
    unfold toRecord
    split
    · exact Keeps.ret ⟨hid document version rfl, document, version, hmem, rfl⟩
    · exact Keeps.raise _

theorem projectCode_keeps (projectId : UUID) : KeepsTo pid x₀ (projectCode projectId) fun code x =>
    ⟨.selectProjectCode projectId, .ok (some code)⟩ ∈ x.2 := by
  refine Keeps.bind (answered_keeps (s := .selectProjectCode projectId) trivial)
    fun code x _ hmem => ?_
  cases code with
  | none => exact Keeps.raise _
  | some code => exact Keeps.ret hmem

theorem RequestedFor.grow {request : KnowledgeIngestionRequest} (h : RequestedFor record v request)
    (hg : record <:+ record') : RequestedFor record' v request := by
  obtain ⟨hid, document, version, hload, hcode⟩ := h
  exact ⟨hid, document, version, hg.subset hload, hg.subset hcode⟩

theorem ingest_keeps {request : KnowledgeIngestionRequest} (h : RequestedFor x₀.2 v request) :
    KeepsTo pid x₀ (Prog.exec (Stmt.ingest request)) fun ingestionJobId x =>
      ingestionJobId ∈ submittedJobs x.2 v := by
  refine recordedSpec_onRecord.stmt (fun x hg _ => ⟨v, h.grow hg⟩)
    fun x c ingestionJobId σ' _ _ _ => ?_
  exact mem_submittedJobs.mpr ⟨request, List.mem_cons_self, h.1⟩

/-- A job the version's own submission was answered with has succeeded. -/
theorem getIngestionStatus_keeps (hj : ingestionJobId ∈ submittedJobs x₀.2 v) :
    KeepsTo pid x₀ (Prog.exec (Stmt.getIngestionStatus ingestionJobId)) fun status x =>
      status.state = .SUCCEEDED → OwnIngestion x.2 v := by
  refine recordedSpec_onRecord.stmt (fun _ _ _ => trivial) fun x c status σ' hg hi _ hs => ?_
  obtain ⟨request, hmem, hid⟩ := mem_submittedJobs.mp (submittedJobs_grow hg hj)
  obtain ⟨later, earlier, hrecord⟩ := List.append_of_mem hmem
  obtain ⟨v', hrequest⟩ := hi.submissions later earlier request ingestionJobId hrecord
  obtain rfl : v' = v := UUID.str_inj (hrequest.1.symm.trans hid)
  refine ⟨_ :: later, earlier, request, ingestionJobId, status, ?_, hrequest,
    List.mem_cons_self, hs⟩
  rw [hrecord, List.cons_append]

theorem lockVersion_keeps (versionId : UUID) :
    KeepsTo pid x₀ (Prog.exec (Stmt.lockVersion versionId)) fun found _ =>
    ∀ document version, found = some (document, version) → version.id = versionId := by
  refine recordedSpec_onRecord.stmt (fun _ _ _ => trivial)
    fun x c found σ' _ _ hx document version heq => ?_
  subst heq
  exact answered_row (.inr hx)

theorem only_supersede (document : Document) (supersedesVersionId : Option UUID) :
    (lockSuperseded document supersedesVersionId).Only Elsewhere := by
  cases supersedesVersionId with
  | none => trivial
  | some versionId =>
    refine Prog.Only.bind (.exec trivial) fun found => ?_
    cases found with
    | none => trivial
    | some row =>
      obtain ⟨oldDocument, old⟩ := row
      show Prog.Only Elsewhere (if oldDocument.id ≠ document.id then throw _ else
        if old.lifecycleStatus ≠ .PUBLISHED then throw _ else pure (some old))
      split
      · trivial
      · split <;> trivial

theorem completePublication_keeps (supersedesVersionId : Option UUID)
    (ho : OwnIngestion x₀.2 versionId) :
    KeepsTo pid x₀ (completePublication versionId supersedesVersionId) fun _ _ => True := by
  refine Keeps.bind (lockVersion_keeps versionId) fun found x hg hid => ?_
  cases found with
  | none => exact Keeps.raise _
  | some row =>
    obtain ⟨document, version⟩ := row
    have hid := hid document version rfl
    dsimp only [requireVersion]
    show KeepsTo pid x (if version.lifecycleStatus ≠ .APPROVED then throw _ else _) _
    split
    · exact Keeps.raise _
    · refine Keeps.bind (elsewhere_keeps (only_supersede document supersedesVersionId))
        fun old x₁ hg₁ _ => ?_
      refine Keeps.bind (answered_keeps (s := .now) trivial) fun now x₂ hg₂ _ => ?_
      have hpublish : KeepsTo pid x₂
        (Prog.exec (Stmt.setStatus version.id version.lifecycleStatus .PUBLISHED (some now)))
          fun _ _ => True := by
        refine recordedSpec_onRecord.stmt (fun x₃ hg₃ _ _ => ?_) fun _ _ _ _ _ _ _ => trivial
        rw [hid]
        exact ho.grow (((hg.trans hg₁).trans hg₂).trans hg₃)
      refine Keeps.bind hpublish fun _ x₃ _ _ => ?_
      have hanswer :
          (ofExcept (toRecord document (setRowStatus .PUBLISHED (some now) version))).Only
          Elsewhere := by
        cases toRecord document (setRowStatus .PUBLISHED (some now) version) <;> trivial
      cases old with
      | none => exact elsewhere_keeps hanswer
      | some old =>
        exact elsewhere_keeps (Prog.Only.bind (.exec fun h => nomatch h) fun _ => hanswer)

theorem finalizePublication_keeps {current : DocumentVersionRecord} (actor : DocumentActor)
    (hj : ingestionJobId ∈ submittedJobs x₀.2 current.versionId) :
    KeepsTo pid x₀ (finalizePublication current ingestionJobId actor) fun _ _ => True := by
  refine Keeps.bind (getIngestionStatus_keeps hj) fun status x _ hown => ?_
  split
  · exact elsewhere_keeps (Prog.Only.bind (only_addAudit _) fun _ =>
      Prog.Only.bind (.exec trivial) fun _ => trivial)
  · split
    · exact Keeps.raise _
    · next hs =>
      have hown := hown (not_not.mp hs)
      refine Keeps.bind (completePublication_keeps current.supersedesVersionId hown)
        fun published x₁ _ _ => ?_
      exact elsewhere_keeps (Prog.Only.bind (only_addAudit _) fun _ => trivial)

theorem publishDocument_keeps (versionId : UUID) (actor : DocumentActor) :
    KeepsTo pid x₀ (publishDocument versionId actor) fun _ _ => True := by
  unfold publishDocument
  split
  · exact Keeps.raise _
  · refine Keeps.bind (getVersion_keeps versionId)
      fun current x _ ⟨hid, document, version, hload, hproject⟩ => ?_
    split
    · exact Keeps.raise _
    · refine Keeps.bind (projectCode_keeps current.projectId) fun code x₁ hg₁ hcode => ?_
      refine Keeps.bind (elsewhere_keeps (only_knowledgeSpace current.projectId))
        fun space x₂ hg₂ _ => ?_
      have hrequest : RequestedFor x₂.2 current.versionId {
          projectId := code
          knowledgeSpaceId := space
          documentVersionId := current.versionId.str
          objectKey := current.sourceUri
          metadata := [("filename", current.title), ("document_category", current.documentCategory),
            ("version_label", current.versionLabel), ("authority_level", current.authorityLevel)] }
              := by
        rw [← hproject] at hcode
        rw [hid]
        exact ⟨rfl, document, version, (hg₁.trans hg₂).subset hload, hg₂.subset hcode⟩
      refine Keeps.bind (ingest_keeps hrequest) fun j x₃ _ hj => ?_
      refine Keeps.bind (elsewhere_keeps (only_addAudit _)) fun _ x₄ hg₄ _ => ?_
      refine Keeps.bind (answered_keeps (s := .commit) trivial) fun _ x₅ hg₅ _ => ?_
      exact finalizePublication_keeps actor (submittedJobs_grow (hg₄.trans hg₅) hj)

theorem finalizeDocument_keeps (actor : DocumentActor)
    (hj : ingestionJobId ∈ submittedJobs x₀.2 versionId) :
    KeepsTo pid x₀ (finalizeDocument versionId ingestionJobId actor) fun _ _ => True := by
  unfold finalizeDocument
  split
  · exact Keeps.raise _
  · refine Keeps.bind (getVersion_keeps versionId) fun current x hg ⟨hid, _⟩ => ?_
    split
    · exact Keeps.raise _
    · refine finalizePublication_keeps actor ?_
      rw [hid]
      exact submittedJobs_grow hg hj

/-! ## Sessions -/

theorem discard_keeps {α : Type} {p : Session α} (h : KeepsTo pid x₀ p fun _ _ => True) :
    KeepsTo pid x₀ (p.bind fun _ => pure ()) fun _ _ => True :=
  Keeps.bind h fun _ _ _ _ => Keeps.ret trivial

theorem answerPending_keeps {p : Session DocumentVersionRecord}
    (h : KeepsTo pid x₀ p fun _ _ => True) :
    KeepsTo pid x₀ (useCase.answerPending p) fun _ _ => True := by
  refine Keeps.handle (discard_keeps h) fun e x _ => ?_
  split
  · exact Keeps.ret trivial
  · exact Keeps.raise _

theorem Uploads.elsewhere (h : Uploads s) : Elsewhere s := by
  cases s with
  | insertVersion row =>
    show row.lifecycleStatus ≠ .PUBLISHED
    rw [h.1]
    exact fun h => nomatch h
  | putObject | insertDocument | getDocument | maxVersionNo | insertAudit => trivial
  | _ => exact h.elim

/-- Every request's session is as permitted, a finalization where it names a job of its
version's. -/
theorem useCase_keeps (request : Request)
    (h : ∀ versionId ingestionJobId actor, request = .finalize versionId ingestionJobId actor →
      ingestionJobId ∈ submittedJobs x₀.2 versionId) :
    KeepsTo pid x₀ (useCase request) fun _ _ => True := by
  cases request with
  | upload command =>
    exact discard_keeps (recordedSpec_onRecord.only (only_uploadDocument command) fun _ _ hs =>
      hs.elsewhere.permit)
  | submitReview versionId actor =>
    refine discard_keeps (elsewhere_keeps ?_)
    unfold submitDocumentReview
    refine only_moved ?_ fun current => ⟨_, current.projectId, versionId, actor.userId, _⟩
    exact fun h => nomatch h
  | approve versionId actor =>
    refine discard_keeps (elsewhere_keeps ?_)
    unfold approveDocument
    refine only_moved ?_ fun current => ⟨_, current.projectId, versionId, actor.userId, _⟩
    exact fun h => nomatch h
  | publish versionId actor => exact answerPending_keeps (publishDocument_keeps versionId actor)
  | finalize versionId ingestionJobId actor =>
    exact answerPending_keeps (finalizeDocument_keeps actor (h versionId ingestionJobId actor rfl))
  | delete versionId actor =>
    exact discard_keeps (elsewhere_keeps (only_deleteDocument versionId actor))

theorem serve_keeps (request : Request)
    (h : ∀ versionId ingestionJobId actor, request = .finalize versionId ingestionJobId actor →
      ingestionJobId ∈ submittedJobs x₀.2 versionId) :
    KeepsTo pid x₀ (serve request) fun _ _ => True := by
  refine Keeps.handle (Keeps.bind (useCase_keeps request h) fun _ x _ _ => ?_) fun e x _ => ?_
  · exact elsewhere_keeps (.exec trivial)
  · exact elsewhere_keeps (Prog.Only.bind (.exec trivial) fun _ => trivial)

theorem Recorded.start (h : Recorded (σ, record)) (pid : Nat) :
    Recorded ({ σ.rollback pid with changed := Function.update σ.changed pid [] }, record) :=
  (h.rollback pid).store rfl fun _ _ hw => hw

/-- Requests other than finalizations fit the specification whatever they ask for. -/
theorem recordedSpec_fits : recordedSpec.Fits machine.recorded
    (fun request => ∀ versionId ingestionJobId actor,
      request ≠ .finalize versionId ingestionJobId actor)
    fun _ _ _ => True where
  start request pid x p x' hr hi h := by
    cases h
    refine ⟨hi.start pid, fun _ _ => List.suffix_refl _, ?_⟩
    exact (serve_keeps request fun versionId j actor heq => absurd heq (hr versionId j actor)).mono
      fun _ _ _ => trivial
  exec pid s c x r x' hi hp _ hx :=
    ⟨recorded_exec_kept hi hp hx, fun q _ => recordedSpec_onRecord.exec hx q⟩
  finish pid r x hi := ⟨Recorded.rollback hi pid, fun _ _ => List.suffix_refl _⟩
  kill pid x hi := ⟨Recorded.rollback hi pid, fun _ _ => List.suffix_refl _⟩
  env e x x' hi hx := by
    obtain ⟨σ', hσ, rfl⟩ := Option.map_eq_some_iff.mp hx
    refine ⟨?_, fun _ => List.suffix_refl _⟩
    cases e <;> cases hσ <;> exact Recorded.store hi rfl fun _ _ hw => hw

theorem recorded_step_good {a : DocumentAction} {w w' : RecordedWorld}
    (hg : recordedSpec.Good machine.recorded w) (ha : FinalizesOwn a w)
    (h : machine.recorded.step a w = some w') :
    recordedSpec.Good machine.recorded w' := by
  by_cases hfinalize : ∃ versionId ingestionJobId actor pid,
    a = .start (.finalize versionId ingestionJobId actor) pid
  · obtain ⟨versionId, ingestionJobId, actor, pid, rfl⟩ := hfinalize
    rcases Machine.step_cases h with ⟨request, q, p, heq, -, hs, hp⟩ | ⟨_, _, _, _, _, heq, -⟩ |
      ⟨_, _, heq, -⟩ |
      ⟨_, _, heq, -⟩ | ⟨_, heq, -⟩
    · cases heq
      obtain ⟨rfl, hw⟩ := Prod.mk.inj (Option.some.inj hs)
      refine hg.others ?_ (fun _ _ => ?_) hp fun p' hp' => ?_
      · rw [← hw]
        exact hg.inv.start pid
      · rw [← hw]
        exact List.suffix_refl _
      · cases hp'
        rw [← hw]
        refine (serve_keeps _ fun versionId' j actor' heq => ?_).mono fun _ _ _ => trivial
        cases heq
        exact ha
    all_goals cases heq
  · refine hg.step recordedSpec_fits ?_ h
    cases a with
    | start request pid =>
      rintro versionId ingestionJobId actor rfl
      exact hfinalize ⟨versionId, ingestionJobId, actor, pid, rfl⟩
    | exec pid c => exact fun _ _ _ => trivial
    | finish | kill | env => trivial

theorem Initial.recorded {w : DocumentWorld} (h : Initial w) :
    recordedSpec.Good machine.recorded w.recording := by
  refine .of_idle ⟨fun later earlier request j heq => ?_, fun pid row hw => ?_,
    fun pid v seen publishedAt hw => ?_,
    fun row hrow => ?_⟩ h.idle
  · cases later <;> cases heq
  · have hw : Write.version row ∈ w.shared.pending pid := hw
    rw [h.pending] at hw
    cases hw
  · have hw : Write.status v seen .PUBLISHED publishedAt ∈ w.shared.pending pid := hw
    rw [h.pending] at hw
    cases hw
  · have hrow : row ∈ w.shared.committed.versions := hrow
    rw [h.versions] at hrow
    cases hrow

/-- **What is published was ingested.** In a run in which every finalization names a job that a
submission of its own version was answered with, a version is published only once an ingestion
submitted for it, and for its project, has been reported to have succeeded. The record changes
nothing of the run. -/
theorem published_on_own {w₀ : DocumentWorld} (h₀ : Initial w₀) {as : List DocumentAction}
    (hc : machine.recorded.EachStep FinalizesOwn as w₀.recording) :
    machine.recorded.Always PublishedOnOwn as w₀.recording ∧
      (machine.recorded.run as w₀.recording).map World.bare = machine.run as w₀ := by
  have hgood : machine.recorded.Always (recordedSpec.Good machine.recorded) as w₀.recording :=
    Machine.always_of_step h₀.recorded hc fun a w₁ w₂ hg ha hs => recorded_step_good hg ha hs
  exact ⟨hgood.mono fun w hg => hg.inv.published, Machine.recorded_run as w₀.recording⟩

/-! ## A publication that is finalized later, and one that is finalized on another's job -/

namespace Sample

/-- One that finds its ingestion still running. -/
def pendingChoice (n : Nat) : Choice := { choice n with ingestion := ⟨.RUNNING, none⟩ }

def approves (pid : Nat) (versionId : UUID) : List DocumentAction :=
  serves pid (.submitReview versionId owner) 5 ++ serves (pid + 1) (.approve versionId owner) 5

/-- Published as it is approved, but for its ingestion; finalized once that has succeeded. -/
def finalizes : List DocumentAction :=
  serves 1 (upload none) 6 ++ approves 2 (.ofNat 19) ++
    .start (.publish (.ofNat 19) owner) 4 ::
      (List.range 8).map (fun i => .exec 4 (pendingChoice i)) ++
    .finish 4 :: serves 5 (.finalize (.ofNat 19) "job" owner) 7

def checkFinalizes (a : DocumentAction) (w : RecordedWorld) : Bool :=
  match a with
  | .start (.finalize versionId ingestionJobId _) _ =>
    decide (ingestionJobId ∈ submittedJobs w.shared.2 versionId)
  | _ => true

theorem finalizes_checked :
    machine.recorded.checks checkFinalizes finalizes world.recording = true := by
  decide +kernel

/-- Of two versions the first is published, and the second finalized on its job. -/
def finalizesOther : List DocumentAction :=
  serves 1 (upload none) 6 ++ serves 2 (upload (some (.ofNat 17))) 6 ++ publishes 3 (.ofNat 19) ++
    approves 6 (.ofNat 35) ++ serves 8 (.finalize (.ofNat 35) "job" owner) 7

theorem finalizesOther_published :
    (machine.recorded.run finalizesOther world.recording).any (fun w =>
    w.shared.1.committed.versions.any (fun row => row.id == .ofNat 35 && row.lifecycleStatus ==
      .PUBLISHED) &&
      submittedJobs w.shared.2 (.ofNat 35) == []) = true := by
  decide +kernel

end Sample

theorem OwnIngestion.submitted (h : OwnIngestion record v) :
    ∃ ingestionJobId, ingestionJobId ∈ submittedJobs record v := by
  obtain ⟨later, earlier, request, j, status, rfl, ⟨hid, -⟩, -⟩ := h
  exact ⟨j, mem_submittedJobs.mpr ⟨request, by simp, hid⟩⟩

/-- So for this version, published by the finalization of its own job. -/
theorem published_on_own_finalized :
    machine.recorded.Always PublishedOnOwn Sample.finalizes Sample.world.recording ∧
      (machine.recorded.run Sample.finalizes Sample.world.recording).map World.bare =
        machine.run Sample.finalizes Sample.world := by
  refine published_on_own Sample.world_initial
    (Machine.eachStep_of_checks (fun a w h => ?_) Sample.finalizes_checked)
  cases a with
  | start request pid =>
    cases request with
    | finalize versionId ingestionJobId actor =>
      show ingestionJobId ∈ submittedJobs w.shared.2 versionId
      exact of_decide_eq_true h
    | _ => trivial
  | _ => trivial

/-- The second version is published, and no ingestion was ever submitted for it. -/
theorem published_on_other : Initial Sample.world ∧
    ¬ machine.recorded.Always PublishedOnOwn Sample.finalizesOther Sample.world.recording := by
  refine ⟨Sample.world_initial, fun halways => ?_⟩
  obtain ⟨w, hr, hw⟩ := (Option.any_eq_true _ _).mp Sample.finalizesOther_published
  obtain ⟨hrow, hnone⟩ := Bool.and_eq_true_iff.mp hw
  obtain ⟨row, hmem, hrow⟩ := List.any_eq_true.mp hrow
  obtain ⟨hid, hp⟩ := Bool.and_eq_true_iff.mp hrow
  obtain ⟨j, hj⟩ := (halways.last hr row hmem (beq_iff_eq.mp hp)).submitted
  rw [beq_iff_eq.mp hid, beq_iff_eq.mp hnone] at hj
  cases hj

end ProjectAgent.Documents
