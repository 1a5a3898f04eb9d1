/-
The document use cases as sessions, over the repository's methods, and the
machine that runs any number of them side by side.
-/
import ProjectAgent.Documents.Store

namespace ProjectAgent.Documents

open Interleave

abbrev Session := Prog Stmt Stmt.Res DocumentError

def ofExcept {α : Type} : Except DocumentError α → Session α
  | .ok a => pure a
  | .error e => throw e

/-! ## `SqlAlchemyDocumentWorkflowRepository` -/

structure CreateDocumentDraft where
  companyId : UUID
  projectId : UUID
  documentId : Option UUID
  documentCategory : String
  title : String
  versionLabel : String
  authorityLevel : String
  ownerUserId : Option UUID
  createdBy : UUID
  sourceUri : String
  contentHash : String
  effectiveFrom : Option Nat
  effectiveTo : Option Nat
  supersedesVersionId : Option UUID

/-- The document a draft is for: a new one, or the one it names. -/
def draftDocument (draft : CreateDocumentDraft) : Session Document := do
  match draft.documentId with
  | none => Prog.exec (Stmt.insertDocument {
      id := .ofNat 0
      companyId := draft.companyId
      projectId := draft.projectId
      documentCategory := draft.documentCategory
      title := draft.title
      ownerUserId := draft.ownerUserId })
  | some documentId =>
    match ← Prog.exec (Stmt.getDocument documentId) with
    | none => throw (.lookupError ("document " ++ documentId.str ++ " does not exist"))
    | some document =>
      if document.projectId ≠ draft.projectId then
        throw (.valueError "document cannot move across projects")
      else if document.documentCategory ≠ draft.documentCategory then
        throw (.valueError "new version cannot change document category")
      else pure document

def createDraft (draft : CreateDocumentDraft) : Session DocumentVersionRecord := do
  let document ← draftDocument draft
  let maxVersion ← Prog.exec (Stmt.maxVersionNo document.id)
  let version ← Prog.exec (Stmt.insertVersion {
    id := .ofNat 0
    documentId := document.id
    versionNo := maxVersion.getD 0 + 1
    versionLabel := draft.versionLabel
    authorityLevel := draft.authorityLevel
    lifecycleStatus := .DRAFT
    effectiveFrom := draft.effectiveFrom
    effectiveTo := draft.effectiveTo
    supersedesVersionId := draft.supersedesVersionId
    sourceUri := some draft.sourceUri
    contentHash := some draft.contentHash
    publishedAt := none
    createdBy := draft.createdBy })
  ofExcept (toRecord document version)

/-- `_load_version`, as far as the row is there. -/
def requireVersion (versionId : UUID) (found : Option (Document × DocumentVersion)) :
    Session (Document × DocumentVersion) :=
  match found with
  | none => throw (.lookupError ("document version " ++ versionId.str ++ " does not exist"))
  | some row => pure row

def getVersion (versionId : UUID) : Session DocumentVersionRecord := do
  let (document, version) ← requireVersion versionId (← Prog.exec (Stmt.loadVersion versionId))
  ofExcept (toRecord document version)

def transition (versionId : UUID) (expected target : DocumentLifecycleStatus) :
    Session DocumentVersionRecord := do
  let (document, version) ← requireVersion versionId (← Prog.exec (Stmt.lockVersion versionId))
  let current := version.lifecycleStatus
  if current ≠ expected then
    throw (.valueError ("expected " ++ expected.value ++ ", got " ++ current.value))
  else
    let target ← ofExcept (transitionDocumentStatus current target)
    Prog.exec (Stmt.setStatus versionId current target none)
    ofExcept (toRecord document (setRowStatus target none version))

/-- The version that is superseded, locked too. -/
def lockSuperseded (document : Document) : Option UUID → Session (Option DocumentVersion)
  | none => pure none
  | some versionId => do
    let (oldDocument, oldVersion) ← requireVersion versionId
      (← Prog.exec (Stmt.lockVersion versionId))
    if oldDocument.id ≠ document.id then
      throw (.valueError "superseded version must belong to the same document")
    else if oldVersion.lifecycleStatus ≠ .PUBLISHED then
      throw (.valueError "superseded version must still be PUBLISHED")
    else pure (some oldVersion)

def completePublication (versionId : UUID) (supersedesVersionId : Option UUID) :
    Session DocumentVersionRecord := do
  let (document, version) ← requireVersion versionId (← Prog.exec (Stmt.lockVersion versionId))
  if version.lifecycleStatus ≠ .APPROVED then
    throw (.valueError "only APPROVED version can complete publication")
  else
    let oldVersion ← lockSuperseded document supersedesVersionId
    let now ← Prog.exec Stmt.now
    Prog.exec (Stmt.setStatus version.id version.lifecycleStatus .PUBLISHED (some now))
    match oldVersion with
    | none => pure ()
    | some oldVersion =>
      Prog.exec (Stmt.setStatus oldVersion.id oldVersion.lifecycleStatus .SUPERSEDED none)
    ofExcept (toRecord document (setRowStatus .PUBLISHED (some now) version))

def addAudit (record : DocumentAuditRecord) : Session Unit := Prog.exec (Stmt.insertAudit record)

def projectCode (projectId : UUID) : Session String := do
  match ← Prog.exec (Stmt.selectProjectCode projectId) with
  | none => throw (.lookupError ("project " ++ projectId.str ++ " does not exist"))
  | some code => pure code

def knowledgeSpaceId (projectId : UUID) : Session String := do
  match ← Prog.exec (Stmt.selectKnowledgeSpaceId projectId) with
  | [] =>
    throw (.lookupError ("project " ++ projectId.str ++ " has no active RAGFlow knowledge space"))
  | [space] => pure space
  | _ :: _ :: _ => throw .multipleResultsFound

/-! ## Use cases -/

structure DocumentActor where
  userId : UUID
  permissions : List String
deriving DecidableEq

structure UploadDocumentCommand where
  companyId : UUID
  projectId : UUID
  documentId : Option UUID
  documentCategory : String
  title : String
  versionLabel : String
  authorityLevel : String
  mimeType : String
  ownerUserId : Option UUID
  effectiveFrom : Option Nat
  effectiveTo : Option Nat
  supersedesVersionId : Option UUID
  actor : DocumentActor

def uploadDocument (command : UploadDocumentCommand) : Session DocumentVersionRecord := do
  let stored ← Prog.exec (Stmt.putObject command.projectId.str command.mimeType)
  let record ← createDraft {
    companyId := command.companyId
    projectId := command.projectId
    documentId := command.documentId
    documentCategory := command.documentCategory
    title := command.title
    versionLabel := command.versionLabel
    authorityLevel := command.authorityLevel
    ownerUserId := command.ownerUserId
    createdBy := command.actor.userId
    sourceUri := stored.objectKey
    contentHash := stored.sha256
    effectiveFrom := command.effectiveFrom
    effectiveTo := command.effectiveTo
    supersedesVersionId := command.supersedesVersionId }
  if record.lifecycleStatus ≠ .DRAFT then
    throw (.runtimeError "upload repository must create DRAFT only")
  else
    addAudit ⟨"document_metadata_confirmed", command.projectId, record.versionId,
      command.actor.userId, "success"⟩
    pure record

def submitDocumentReview (versionId : UUID) (actor : DocumentActor) :
    Session DocumentVersionRecord := do
  let current ← getVersion versionId
  if actor.userId ≠ current.createdBy ∧ some actor.userId ≠ current.ownerUserId ∧
      "submit_review" ∉ actor.permissions then
    throw (.permissionDenied "actor cannot submit this document for review")
  else
    let updated ← transition versionId .DRAFT .UNDER_REVIEW
    addAudit ⟨"document_submitted_for_review", current.projectId, versionId,
      actor.userId, "success"⟩
    pure updated

def approveDocument (versionId : UUID) (actor : DocumentActor) : Session DocumentVersionRecord := do
  let current ← getVersion versionId
  if current.ownerUserId ≠ some actor.userId then
    throw (.permissionDenied "only the document owner can approve the document")
  else
    let updated ← transition versionId .UNDER_REVIEW .APPROVED
    addAudit ⟨"document_approved", current.projectId, versionId, actor.userId, "success"⟩
    pure updated

/-- `PublishDocumentUseCase._finalize`; its commit barrier is the session. -/
def finalizePublication (current : DocumentVersionRecord) (ingestionJobId : String)
    (actor : DocumentActor) :
    Session DocumentVersionRecord := do
  let status ← Prog.exec (Stmt.getIngestionStatus ingestionJobId)
  if status.state = .FAILED then
    addAudit ⟨"document_publication_failed", current.projectId, current.versionId,
      actor.userId, "failed"⟩
    Prog.exec Stmt.commit
    throw (.publishFailed ((status.errorCode.filter (· ≠ "")).getD "knowledge ingestion failed"))
  else if status.state ≠ .SUCCEEDED then throw (.publishPending ingestionJobId)
  else
    let published ← completePublication current.versionId current.supersedesVersionId
    addAudit ⟨"document_published", current.projectId, current.versionId, actor.userId, "success"⟩
    pure published

def publishDocument (versionId : UUID) (actor : DocumentActor) : Session DocumentVersionRecord := do
  if "publish_document" ∉ actor.permissions then
    throw (.permissionDenied "publish_document permission is required")
  else
    let current ← getVersion versionId
    if current.lifecycleStatus ≠ .APPROVED then
      throw (.valueError "only APPROVED documents can be published")
    else
      let code ← projectCode current.projectId
      let space ← knowledgeSpaceId current.projectId
      let ingestionJobId ← Prog.exec (Stmt.ingest {
        projectId := code
        knowledgeSpaceId := space
        documentVersionId := current.versionId.str
        objectKey := current.sourceUri
        metadata := [("filename", current.title), ("document_category", current.documentCategory),
          ("version_label", current.versionLabel), ("authority_level", current.authorityLevel)] })
      addAudit ⟨"document_publication_submitted", current.projectId, current.versionId,
        actor.userId, "success"⟩
      Prog.exec Stmt.commit
      finalizePublication current ingestionJobId actor

def finalizeDocument (versionId : UUID) (ingestionJobId : String) (actor : DocumentActor) :
    Session DocumentVersionRecord := do
  if "publish_document" ∉ actor.permissions then
    throw (.permissionDenied "publish_document permission is required")
  else
    let current ← getVersion versionId
    if current.lifecycleStatus ≠ .APPROVED then
      throw (.valueError "only APPROVED documents can complete publication")
    else finalizePublication current ingestionJobId actor

def deleteDocument (versionId : UUID) (actor : DocumentActor) : Session DocumentVersionRecord := do
  if "archive_document" ∉ actor.permissions then
    throw (.permissionDenied "archive_document permission is required")
  else
    let current ← getVersion versionId
    let pending ← transition versionId current.lifecycleStatus .DELETE_PENDING
    addAudit ⟨"document_delete_pending", current.projectId, versionId, actor.userId, "success"⟩
    Prog.exec Stmt.commit
    let code ← projectCode current.projectId
    let space ← knowledgeSpaceId current.projectId
    Prog.exec (Stmt.deleteDocument {
      projectId := code
      documentVersionId := current.versionId.str
      knowledgeSpaceId := space })
    pure pending

/-! ## Requests and their sessions -/

inductive Request where
  | upload (command : UploadDocumentCommand)
  | submitReview (versionId : UUID) (actor : DocumentActor)
  | approve (versionId : UUID) (actor : DocumentActor)
  | publish (versionId : UUID) (actor : DocumentActor)
  | finalize (versionId : UUID) (ingestionJobId : String) (actor : DocumentActor)
  | delete (versionId : UUID) (actor : DocumentActor)

/-- The use case a request asks for; that a publication is pending is an answer too. -/
def useCase : Request → Session Unit
  | .upload command => do let _ ← uploadDocument command
  | .submitReview versionId actor => do let _ ← submitDocumentReview versionId actor
  | .approve versionId actor => do let _ ← approveDocument versionId actor
  | .publish versionId actor => answerPending (publishDocument versionId actor)
  | .finalize versionId ingestionJobId actor =>
    answerPending (finalizeDocument versionId ingestionJobId actor)
  | .delete versionId actor => do let _ ← deleteDocument versionId actor
where
  answerPending (x : Session DocumentVersionRecord) : Session Unit :=
    (x.bind fun _ => pure ()).tryCatch fun
      | .publishPending _ => pure ()
      | e => throw e

/-- A request in its session: committed if the use case returns, rolled back if it raises. -/
def serve (request : Request) : Session Unit :=
  ((useCase request).bind fun _ => Prog.exec Stmt.commit).tryCatch fun e =>
    (Prog.exec (Stmt.rollback e)).bind fun _ => throw e

/-- Requests side by side, each in a session with nothing written; a session that ends, or is lost,
is rolled back. -/
def machine : Machine Stmt Stmt.Res DocumentError Store Request Choice Outside where
  start request pid σ :=
    some (serve request, { σ.rollback pid with changed := Function.update σ.changed pid [] })
  exec := exec
  finish pid _ σ := σ.rollback pid
  kill pid σ := σ.rollback pid
  env := outside

abbrev DocumentWorld := World Stmt Stmt.Res DocumentError Store

abbrev DocumentAction := Action Request Choice Outside

/-- No document is there yet. -/
structure Initial (w : DocumentWorld) : Prop where
  idle : ∀ pid, w.procs pid = none
  documents : w.shared.committed.documents = []
  versions : w.shared.committed.versions = []
  pending : ∀ pid, w.shared.pending pid = []
  locked : ∀ k, w.shared.locked k = none

end ProjectAgent.Documents
