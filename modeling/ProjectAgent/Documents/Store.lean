/-
Document versions and their lifecycle, and the database the document services
share, one statement at a time. A session reads the committed rows and its own
writes; `SELECT .. FOR UPDATE` locks the version's row and its document's.

What the model adds to watch a run with, and no statement reads: the status a
status update was decided on, and the versions whose status a session has
committed a change of (`changed`).
-/
import ProjectAgent.Basic
import ProjectAgent.Lib.Locking
import ProjectAgent.Lib.Machine

namespace ProjectAgent.Documents

open Interleave

inductive DocumentLifecycleStatus where
  | DRAFT | UNDER_REVIEW | APPROVED | PUBLISHED | SUPERSEDED | ARCHIVED | DELETE_PENDING | DELETED
deriving DecidableEq

namespace DocumentLifecycleStatus

def value : DocumentLifecycleStatus → String
  | DRAFT => "DRAFT"
  | UNDER_REVIEW => "UNDER_REVIEW"
  | APPROVED => "APPROVED"
  | PUBLISHED => "PUBLISHED"
  | SUPERSEDED => "SUPERSEDED"
  | ARCHIVED => "ARCHIVED"
  | DELETE_PENDING => "DELETE_PENDING"
  | DELETED => "DELETED"

/-- `_ALLOWED_TRANSITIONS`. -/
def allowedTransitions : DocumentLifecycleStatus → List DocumentLifecycleStatus
  | DRAFT => [UNDER_REVIEW, DELETE_PENDING]
  | UNDER_REVIEW => [DRAFT, APPROVED, DELETE_PENDING]
  | APPROVED => [DRAFT, PUBLISHED, DELETE_PENDING]
  | PUBLISHED => [SUPERSEDED, ARCHIVED, DELETE_PENDING]
  | SUPERSEDED => [ARCHIVED, DELETE_PENDING]
  | ARCHIVED => [DELETE_PENDING]
  | DELETE_PENDING => [DELETED]
  | DELETED => []

end DocumentLifecycleStatus

def canTransitionDocument (current target : DocumentLifecycleStatus) : Bool :=
  target ∈ current.allowedTransitions

inductive DocumentError where
  | permissionDenied (text : String)
  | valueError (text : String)
  | invalidTransition (current target : DocumentLifecycleStatus)
  | lookupError (text : String)
  | publishFailed (text : String)
  | publishPending (ingestionJobId : String)
  | runtimeError (text : String)
  | integrityError
  | multipleResultsFound
  /-- Raised by the knowledge provider, the object store or the connection. -/
  | raised (typeName : String)
deriving DecidableEq

def transitionDocumentStatus (current target : DocumentLifecycleStatus) :
    Except DocumentError DocumentLifecycleStatus :=
  if canTransitionDocument current target then .ok target
    else .error (.invalidTransition current target)

/-! ## Rows -/

structure Document where
  id : UUID
  companyId : UUID
  projectId : UUID
  documentCategory : String
  title : String
  ownerUserId : Option UUID
deriving DecidableEq

structure DocumentVersion where
  id : UUID
  documentId : UUID
  versionNo : Nat
  versionLabel : String
  authorityLevel : String
  lifecycleStatus : DocumentLifecycleStatus
  effectiveFrom : Option Nat
  effectiveTo : Option Nat
  supersedesVersionId : Option UUID
  sourceUri : Option String
  contentHash : Option String
  publishedAt : Option Nat
  createdBy : UUID
deriving DecidableEq

structure DocumentVersionRecord where
  companyId : UUID
  projectId : UUID
  documentId : UUID
  versionId : UUID
  documentCategory : String
  title : String
  versionNo : Nat
  versionLabel : String
  authorityLevel : String
  lifecycleStatus : DocumentLifecycleStatus
  ownerUserId : Option UUID
  createdBy : UUID
  sourceUri : String
  contentHash : String
  effectiveFrom : Option Nat
  effectiveTo : Option Nat
  supersedesVersionId : Option UUID
  publishedAt : Option Nat

def toRecord (document : Document) (version : DocumentVersion) :
    Except DocumentError DocumentVersionRecord :=
  match version.sourceUri, version.contentHash with
  | some sourceUri, some contentHash => .ok {
      companyId := document.companyId
      projectId := document.projectId
      documentId := document.id
      versionId := version.id
      documentCategory := document.documentCategory
      title := document.title
      versionNo := version.versionNo
      versionLabel := version.versionLabel
      authorityLevel := version.authorityLevel
      lifecycleStatus := version.lifecycleStatus
      ownerUserId := document.ownerUserId
      createdBy := version.createdBy
      sourceUri := sourceUri
      contentHash := contentHash
      effectiveFrom := version.effectiveFrom
      effectiveTo := version.effectiveTo
      supersedesVersionId := version.supersedesVersionId
      publishedAt := version.publishedAt }
  | _, _ => .error (.valueError "document version source metadata is incomplete")

structure DocumentAuditRecord where
  action : String
  projectId : UUID
  versionId : UUID
  userId : UUID
  outcome : String
deriving DecidableEq

structure Tables where
  documents : List Document
  versions : List DocumentVersion
  audits : List DocumentAuditRecord

/-- What a session writes. `seen` is no part of the `UPDATE`. -/
inductive Write where
  | document (row : Document)
  | version (row : DocumentVersion)
  | status (versionId : UUID) (seen target : DocumentLifecycleStatus) (publishedAt : Option Nat)
  | audit (record : DocumentAuditRecord)

def setRowStatus (target : DocumentLifecycleStatus) (publishedAt : Option Nat)
    (row : DocumentVersion) :
    DocumentVersion :=
  { row with lifecycleStatus := target, publishedAt := publishedAt.orElse fun _ => row.publishedAt }

def Write.apply : Write → Tables → Tables
  | .document row, t => { t with documents := row :: t.documents }
  | .version row, t => { t with versions := row :: t.versions }
  | .status versionId _ target publishedAt, t =>
    { t with versions := t.versions.map fun row =>
        if row.id = versionId then setRowStatus target publishedAt row else row }
  | .audit record, t => { t with audits := record :: t.audits }

/-- What `FOR UPDATE` locks. -/
inductive Row where
  | document (id : UUID)
  | version (id : UUID)
deriving DecidableEq

structure Directory where
  /-- `projects.code`. -/
  projectCode : UUID → Option String
  /-- The external ids of a project's active spaces at the provider. -/
  activeSpaces : UUID → List String

structure Store extends Db Tables Write Row where
  directory : Directory
  /-- The ids `uuid4` has drawn, of which it draws none again. -/
  drawn : List UUID
  changed : Nat → List UUID

namespace Tables

def version (t : Tables) (versionId : UUID) : Option DocumentVersion :=
  t.versions.find? (·.id == versionId)

def document (t : Tables) (documentId : UUID) : Option Document :=
  t.documents.find? (·.id == documentId)

/-- `_load_version`'s join. -/
def load (t : Tables) (versionId : UUID) : Option (Document × DocumentVersion) := do
  let version ← t.version versionId
  let document ← t.document version.documentId
  pure (document, version)

/-- `max(version_no)`. -/
def maxVersionNo (t : Tables) (documentId : UUID) : Option Nat :=
  ((t.versions.filter (·.documentId == documentId)).map (·.versionNo)).max?

end Tables

/-! ## Statements -/

inductive IngestionState where
  | PENDING | RUNNING | SUCCEEDED | FAILED
deriving DecidableEq

structure KnowledgeIngestionStatus where
  state : IngestionState
  errorCode : Option String
deriving DecidableEq

structure KnowledgeIngestionRequest where
  projectId : String
  knowledgeSpaceId : String
  documentVersionId : String
  objectKey : String
  metadata : List (String × String)

structure DeleteKnowledgeDocumentRequest where
  projectId : String
  documentVersionId : String
  knowledgeSpaceId : String

structure StoredObject where
  objectKey : String
  sha256 : String
deriving DecidableEq

inductive Stmt where
  | now
  | getDocument (documentId : UUID)
  | maxVersionNo (documentId : UUID)
  /-- The new row's id is drawn. -/
  | insertDocument (row : Document)
  | insertVersion (row : DocumentVersion)
  | loadVersion (versionId : UUID)
  /-- `FOR UPDATE`. -/
  | lockVersion (versionId : UUID)
  | setStatus (versionId : UUID) (seen target : DocumentLifecycleStatus) (publishedAt : Option Nat)
  | insertAudit (record : DocumentAuditRecord)
  | selectProjectCode (projectId : UUID)
  | selectKnowledgeSpaceId (projectId : UUID)
  | commit
  /-- What a session that raises ends with. -/
  | rollback (e : DocumentError)
  /-- Calls of the object store and of the knowledge provider. -/
  | putObject (projectId : String) (mimeType : String)
  | ingest (request : KnowledgeIngestionRequest)
  | getIngestionStatus (ingestionJobId : String)
  | deleteDocument (request : DeleteKnowledgeDocumentRequest)

@[reducible] def Stmt.Res : Stmt → Type
  | .now => Nat
  | .getDocument _ => Option Document
  | .maxVersionNo _ => Option Nat
  | .insertDocument _ => Document
  | .insertVersion _ => DocumentVersion
  | .setStatus _ _ _ _ | .insertAudit _ | .commit | .rollback _ | .deleteDocument _ => Unit
  | .loadVersion _ | .lockVersion _ => Option (Document × DocumentVersion)
  | .selectProjectCode _ => Option String
  | .selectKnowledgeSpaceId _ => List String
  | .putObject _ _ => StoredObject
  | .ingest _ => String
  | .getIngestionStatus _ => KnowledgeIngestionStatus

/-- What the outside decides at a step: whether the statement is lost, and for
a commit whether it was done; the id drawn, the time, the others' answers. -/
structure Choice where
  fault : Option (Bool × String)
  uuid : UUID
  now : Nat
  stored : StoredObject
  ingestionJobId : String
  ingestion : KnowledgeIngestionStatus

section
variable (pid : Nat) (c : Choice) (σ : Store)

def Store.view : Tables := σ.toDb.view Write.apply pid

def Store.write (w : Write) : Store := { σ with toDb := σ.toDb.write pid w }

/-- Another session has committed a version of this number first. -/
def Store.numberTaken : Bool :=
  (σ.pending pid).any fun
    | .version row => σ.committed.versions.any fun row' =>
        row'.documentId == row.documentId && row'.versionNo == row.versionNo
    | _ => false

/-- The versions whose status is written. -/
def statusIds (ws : List Write) : List UUID :=
  ws.filterMap fun
    | .status versionId _ _ _ => some versionId
    | _ => none

def Store.commit : Store :=
  { σ with
    toDb := σ.toDb.commit Write.apply pid
    changed := Function.update σ.changed pid (statusIds (σ.pending pid) ++ σ.changed pid) }

def Store.rollback : Store := { σ with toDb := σ.toDb.rollback pid }

/-- Does the statement; `none` where it waits for another session's lock. -/
def perform : (s : Stmt) → Option (Except DocumentError s.Res × Store)
  | .now => some (.ok c.now, σ)
  | .getDocument documentId => some (.ok ((σ.view pid).document documentId), σ)
  | .maxVersionNo documentId => some (.ok ((σ.view pid).maxVersionNo documentId), σ)
  | .insertDocument row =>
    if c.uuid ∈ σ.drawn then none
    else
      let row := { row with id := c.uuid }
      some (.ok row, { σ.write pid (.document row) with drawn := c.uuid :: σ.drawn })
  | .insertVersion row =>
    if c.uuid ∈ σ.drawn then none
    -- the foreign keys: the document, and the version it is to supersede
    else if ((σ.view pid).document row.documentId).isNone ∨
        row.supersedesVersionId.any (fun id => ((σ.view pid).version id).isNone) then
          some (.error .integrityError, σ)
    else
      let row := { row with id := c.uuid }
      some (.ok row, { σ.write pid (.version row) with drawn := c.uuid :: σ.drawn })
  | .loadVersion versionId => some (.ok ((σ.view pid).load versionId), σ)
  | .lockVersion versionId =>
    match (σ.view pid).load versionId with
    | none => some (.ok none, σ)
    | some (document, version) => do
      let db ← σ.toDb.lock pid (.document document.id)
      let db ← db.lock pid (.version version.id)
      pure (.ok (some (document, version)), { σ with toDb := db })
  | .setStatus versionId seen target publishedAt =>
    some (.ok (), σ.write pid (.status versionId seen target publishedAt))
  | .insertAudit record => some (.ok (), σ.write pid (.audit record))
  | .selectProjectCode projectId => some (.ok (σ.directory.projectCode projectId), σ)
  | .selectKnowledgeSpaceId projectId => some (.ok (σ.directory.activeSpaces projectId), σ)
  | .commit =>
    if σ.numberTaken pid then some (.error .integrityError, σ.rollback pid)
      else some (.ok (), σ.commit pid)
  | .rollback _ => some (.ok (), σ.rollback pid)
  | .putObject _ _ => some (.ok c.stored, σ)
  | .ingest _ => some (.ok c.ingestionJobId, σ)
  | .getIngestionStatus _ => some (.ok c.ingestion, σ)
  | .deleteDocument _ => some (.ok (), σ)

end

/-- A statement under the outside's choice: done, or lost; a commit may be lost once it is done. -/
def exec (pid : Nat) (s : Stmt) (c : Choice) (σ : Store) :
    Option (Except DocumentError s.Res × Store) :=
  match c.fault, s with
  | none, s => perform pid c σ s
  | some (true, e), .commit => (perform pid c σ .commit).map fun (_, σ') => (.error (.raised e), σ')
  | some (_, e), _ => some (.error (.raised e), σ)

/-- Others bind a project's code and its spaces. -/
inductive Outside where
  | bindProjectCode (projectId : UUID) (code : Option String)
  | bindKnowledgeSpaces (projectId : UUID) (spaces : List String)

def outside : Outside → Store → Option Store
  | .bindProjectCode projectId code, σ => some { σ with
      directory := { σ.directory with
        projectCode := Function.update σ.directory.projectCode projectId code } }
  | .bindKnowledgeSpaces projectId spaces, σ => some { σ with
      directory := { σ.directory with
        activeSpaces := Function.update σ.directory.activeSpaces projectId spaces } }

end ProjectAgent.Documents
