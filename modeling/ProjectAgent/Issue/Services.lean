/-
The issue services as programs over the store's statements: the repository
methods, authorization, the confirmation service, the sandbox tracker and the
creation service, each under the source's name. Then the sessions that run
them: a graph invocation's and a reconciliation job's.
-/
import ProjectAgent.Issue.Store

namespace ProjectAgent.Issue

open Interleave
open Jobs (EnqueueJobRequest)

abbrev Session := Prog Stmt Stmt.Res Exc

/-! ## Repositories -/

def mark (event : Event) : Session Unit := Prog.exec (Stmt.mark event)

def clock : Session Nat := Prog.exec Stmt.clock

def uuid4 : Session UUID := Prog.exec Stmt.uuid4

def loadDraft (draftId : UUID) : Session (Option IssueDraft) := Prog.exec (Stmt.getDraft draftId)

def getDraft (draftId : UUID) : Session IssueDraft := do
  match ← loadDraft draftId with
  | none => throw (.lookupError ("issue draft does not exist: " ++ draftId.str))
  | some draft => pure draft

def lockDraft (draftId : UUID) (status : IssueDraftStatus) : Session (Option IssueDraft) :=
  Prog.exec (Stmt.setDraftStatus draftId status)

def setDraftStatus (draftId : UUID) (status : IssueDraftStatus) : Session IssueDraft := do
  match ← lockDraft draftId status with
  | none => throw (.lookupError ("issue draft does not exist: " ++ draftId.str))
  | some draft => pure draft

def listCandidateLinks (draftId : UUID) : Session (List IssueCandidateLink) :=
  Prog.exec (Stmt.listCandidateLinks draftId)

def selectConfirmation (like : ToolConfirmationReceipt) :
    Session (Option ToolConfirmationReceipt) :=
  Prog.exec (Stmt.selectConfirmation like)

def insertConfirmation (receipt : ToolConfirmationReceipt) : Session Unit :=
  Prog.exec (Stmt.insertConfirmation receipt)

def saveConfirmation (receipt : ToolConfirmationReceipt) : Session ToolConfirmationReceipt := do
  match ← selectConfirmation receipt with
  | some existing => pure existing
  | none =>
    insertConfirmation receipt
    pure receipt

def findConfirmation (confirmationId : UUID) : Session (Option ToolConfirmationReceipt) :=
  Prog.exec (Stmt.getConfirmation confirmationId)

def getConfirmation (confirmationId : UUID) : Session ToolConfirmationReceipt := do
  match ← findConfirmation confirmationId with
  | none => throw (.lookupError ("tool confirmation does not exist: " ++ confirmationId.str))
  | some receipt => pure receipt

/-! ## Idempotency -/

def insertIdempotency (ns : String) (requestId projectId : UUID) : Session Bool :=
  Prog.exec (Stmt.insertIdempotency ns requestId projectId)

def getRecord (ns : String) (requestId : UUID) : Session (Option IdempotencyRecord) :=
  Prog.exec (Stmt.selectIdempotency ns requestId)

def reserve (ns : String) (requestId projectId : UUID) : Session (IdempotencyRecord × Bool) := do
  let created ← insertIdempotency ns requestId projectId
  match ← getRecord ns requestId with
  | none => throw (.runtimeError "idempotency reservation disappeared after commit")
  | some record =>
    if record.projectId ≠ projectId then
      throw (.valueError "idempotency key is already bound to another project")
    else pure (record, created)

def updateRecord (ns : String) (requestId : UUID) (resourceType resourceId : String)
    (response : IdempotencyResponse) : Session (Option IdempotencyRecord) :=
  Prog.exec (Stmt.completeIdempotency ns requestId resourceType resourceId response)

def completeRecord (ns : String) (requestId : UUID) (resourceType resourceId : String)
    (response : IdempotencyResponse) : Session IdempotencyRecord := do
  match ← updateRecord ns requestId resourceType resourceId response with
  | none => throw (.lookupError "idempotency reservation is required before completion")
  | some record => pure record

/-! ## Authorization -/

def findActiveMembership (userId projectId : UUID) (t : Nat) :
    Session (Option MembershipAccessRecord) :=
  Prog.exec (Stmt.getActiveMembership userId projectId t)

def listPublishedVersions (projectId : UUID) : Session (List PublishedVersion) :=
  Prog.exec (Stmt.listPublishedVersions projectId)

def listActiveKnowledgeSpaceIds (projectId : UUID) : Session (List String) :=
  Prog.exec (Stmt.listActiveKnowledgeSpaceIds projectId)

/-- `ORDER BY document_id, version_no DESC`, then the first row of each document. -/
def newestOfEach (rows : List PublishedVersion) : List PublishedVersion :=
  ((rows.insertionSort fun a b => a.documentId.int < b.documentId.int ∨
      a.documentId = b.documentId ∧ b.versionNo ≤ a.versionNo).foldl
    (fun (seen, result) row =>
      if row.documentId ∈ seen then (seen, result) else (row.documentId :: seen, result ++ [row]))
    (([] : List UUID), ([] : List PublishedVersion))).2

def listPublishedDocumentAccess (projectId : UUID) : Session (List PublishedVersion) := do
  let rows ← listPublishedVersions projectId
  pure (newestOfEach rows)

def sortedStrings (ss : List String) : List String := ss.dedup.insertionSort (· ≤ ·)

def POLICY_VERSION : String := "project-membership-v1"

/-- `AuthorizationService.authorize_project`. -/
def authorizeProject (userId projectId : UUID) : Session AuthorizedProjectContext := do
  let now ← clock
  match ← findActiveMembership userId projectId now with
  | none => throw (.authorizationDenied "active project membership is required")
  | some membership =>
    let documents ← listPublishedDocumentAccess projectId
    let spaces ← listActiveKnowledgeSpaceIds projectId
    pure {
      companyId := membership.companyId
      userId := userId
      allowedClientIds := [membership.clientId]
      allowedProjectIds := [membership.projectId]
      allowedDocumentVersionIds :=
        (documents.map (·.id)).insertionSort fun a b => a.str ≤ b.str
      allowedDocumentCategories := sortedStrings (documents.map (·.documentCategory))
      roleIds := [membership.role.value]
      maxSecurityLevel := 0
      policyVersion := POLICY_VERSION
      projectCode := membership.projectCode
      knowledgeSpaceIds := sortedStrings spaces }

/-! ## Confirmation -/

def TOOL_NAME : String := "project_tracker.create_issue"

section
variable (deps : Deps)

def prepare (draftId : UUID) : Session ConfirmationRequest := do
  let draft ← getDraft draftId
  let request := deps.buildCreateRequest draft
  let links ← listCandidateLinks draft.id
  pure {
    draftId := draft.id
    toolName := TOOL_NAME
    requestId := request.requestId
    requestPayloadHash := deps.payloadHash request
    expiresAt := draft.createdAt + deps.ttl
    title := request.title
    description := request.description
    issueType := request.issueType
    priority := request.priority
    module := request.module
    errorCode := request.errorCode
    environment := request.environment
    evidenceIds := draft.evidenceIds
    possibleDuplicates := links }

def decisionStatus : ConfirmationAction → ToolConfirmationStatus
  | .CONFIRM => .CONFIRMED
  | .CANCEL => .CANCELLED

def draftStatus : ToolConfirmationStatus → IssueDraftStatus
  | .CONFIRMED => .CONFIRMED
  | .CANCELLED => .CANCELLED

def recordDecision (draftId actorId : UUID) (action : ConfirmationAction)
    (requestPayloadHash : String) :
    Session ToolConfirmationReceipt := do
  let prepared ← prepare deps draftId
  let now ← clock
  if now > prepared.expiresAt then
    throw (.confirmationExpired "issue creation confirmation expired")
  else if requestPayloadHash ≠ prepared.requestPayloadHash then
    throw (.confirmationPayloadMismatch "confirmation payload hash does not match draft")
  else
    let status := decisionStatus action
    let draft ← getDraft draftId
    let receiptId ← uuid4
    let receipt ← saveConfirmation {
      id := receiptId
      runId := draft.runId
      toolName := TOOL_NAME
      requestPayloadHash := prepared.requestPayloadHash
      status := status
      confirmedBy := actorId
      confirmedAt := now
      expiresAt := prepared.expiresAt }
    let _ ← setDraftStatus draftId (draftStatus status)
    pure receipt

/-! ## The tracker -/

def selectIssue (projectId requestId : UUID) : Session (Option SandboxIssue) :=
  Prog.exec (Stmt.selectIssue projectId requestId)

def getIssueByRequestId (projectId requestId : UUID) : Session (Option CreatedIssue) := do
  let model ← selectIssue projectId requestId
  pure (model.map fun model => ⟨model.projectId, requestId, model.issueKey, model.status⟩)

def selectActiveSandboxProjects (projectId : UUID) : Session (List SandboxProject) :=
  Prog.exec (Stmt.selectActiveSandboxProjects projectId)

/-- `scalars(..).one_or_none()`. -/
def oneOrNone {α : Type} : List α → Session (Option α)
  | [] => pure none
  | [a] => pure (some a)
  | _ :: _ :: _ => throw .multipleResultsFound

def insertIssue (issue : SandboxIssue) : Session (Option SandboxIssue) :=
  Prog.exec (Stmt.insertIssue issue)

/-- `f"{model_id.int % 1_000_000:06d}"`. -/
def numericSuffix (modelId : UUID) : String :=
  let digits := Nat.toDigits 10 (modelId.int % 1000000)
  String.ofList (List.replicate (6 - digits.length) '0' ++ digits)

/-- The row `create_issue` inserts for the request. -/
def issueRow (project : SandboxProject) (modelId : UUID) (request : CreateIssueRequest) :
    SandboxIssue where
  id := modelId
  projectId := request.projectId
  sandboxProjectId := project.id
  issueKey := project.externalKey ++ "-" ++ numericSuffix modelId
  title := request.title
  description := request.description
  issueType := request.issueType
  priority := request.priority
  status := "OPEN"
  module := request.module
  errorCode := (orNone request.errorCode).map String.toUpper
  environment := request.environment
  reporterId := request.reporterId
  source := "sandbox"
  clientRequestId := some request.requestId

/-- `SandboxProjectTrackerAdapter.create_issue`. -/
def createIssue (request : CreateIssueRequest) : Session CreatedIssue := do
  mark (.createIssue request)
  match ← getIssueByRequestId request.projectId request.requestId with
  | some existing => pure existing
  | none =>
    match ← oneOrNone (← selectActiveSandboxProjects request.projectId) with
    | none => throw (.lookupError "active sandbox project is required")
    | some sandboxProject =>
      let modelId ← uuid4
      match ← insertIssue (issueRow sandboxProject modelId request) with
      | some inserted =>
        pure ⟨request.projectId, request.requestId, inserted.issueKey, inserted.status⟩
      | none =>
        match ← getIssueByRequestId request.projectId request.requestId with
        | none => throw (.runtimeError "sandbox issue request id conflict could not be reconciled")
        | some existing => pure existing

/-! ## Creation -/

def ALLOWED_ROLES : List ProjectRole :=
  [.PROJECT_MANAGER, .DEVELOPER, .QA, .IMPLEMENTATION, .SUPPORT]

/-- `IssueWritePolicy.assert_can_create`. -/
def assertCanCreate (roleIds : List String) : Session Unit :=
  if (ALLOWED_ROLES.map ProjectRole.value).any (roleIds.contains ·) then mark (.mayCreate roleIds)
  else throw (.issueCreationDenied "current project role cannot create issues")

def IDEMPOTENCY_NAMESPACE : String := "sandbox_issue_create"

def RECONCILE_ISSUE_CREATE : String := "RECONCILE_ISSUE_CREATE"

def insertJob (request : EnqueueJobRequest) : Session Unit := Prog.exec (Stmt.enqueue request)

def enqueue (request : EnqueueJobRequest) : Session Unit :=
  match Jobs.validateEnqueueRequest request with
  | .error text => throw (.valueError text)
  | .ok () => insertJob request

def enqueueReconciliation (draftId : UUID) : Session Unit :=
  enqueue ⟨RECONCILE_ISSUE_CREATE, draftId.str, 5⟩

def outcomeFromRecord (response : Option IdempotencyResponse) (draftId requestId : UUID)
    (status : IssueCreationStatus) : Session IssueCreationOutcome :=
  match response with
  | none => throw (.runtimeError "completed idempotency record has no response")
  | some response => pure ⟨status, draftId, requestId, some response.issueKey, some response.status⟩

/-- `IssueCreationService._complete`. -/
def complete (draftId requestId : UUID) (created : CreatedIssue) (status : IssueCreationStatus) :
    Session IssueCreationOutcome := do
  let response : IdempotencyResponse :=
    ⟨created.projectId, created.requestId, created.issueKey, created.status⟩
  let _ ← completeRecord IDEMPOTENCY_NAMESPACE requestId "sandbox_issue" created.issueKey response
  let _ ← setDraftStatus draftId .CREATED
  pure ⟨status, draftId, requestId, some created.issueKey, some created.status⟩

def pendingReconciliation (draftId requestId : UUID) : Session IssueCreationOutcome := do
  enqueueReconciliation draftId
  pure ⟨.PENDING_RECONCILIATION, draftId, requestId, none, none⟩

/-- The receipt `_execute` goes by, or why there is none. -/
def acceptConfirmation (draft : IssueDraft) (confirmationId actorId : UUID) :
    Session ToolConfirmationReceipt := do
  let confirmation ← (getConfirmation confirmationId).tryCatch fun
    | .lookupError _ => throw (.issueCreationDenied "valid confirmation is required")
    | e => throw e
  if confirmation.status ≠ .CONFIRMED then
    throw (.issueCreationDenied "confirmed tool action is required")
  else if confirmation.confirmedBy ≠ actorId then
    throw (.issueCreationDenied "confirmation belongs to another user")
  else if deps.draftHash draft ≠ confirmation.requestPayloadHash then
    throw (.issueCreationDenied "confirmation does not match current draft payload")
  else if draft.status ≠ .CONFIRMED ∧ draft.status ≠ .CREATED then
    throw (.issueCreationDenied "draft is not confirmed")
  else
    mark (.accepted confirmation)
    pure confirmation

/-- The rest of `_execute`, past the idempotency barrier. -/
def afterReserve (draft : IssueDraft) (request : CreateIssueRequest) (createdReservation : Bool) :
    Session IssueCreationOutcome := do
  match ← getIssueByRequestId request.projectId request.requestId with
  | some existing => complete draft.id request.requestId existing .ALREADY_CREATED
  | none =>
    if createdReservation then
      let created ← (some <$> createIssue request).tryCatch fun
        | .timeoutError | .osError => pure none
        | e => throw e
      match created with
      | none => pendingReconciliation draft.id request.requestId
      | some created => complete draft.id request.requestId created .CREATED
    -- another attempt already crossed the barrier: never a blind write
    else pendingReconciliation draft.id request.requestId

/-- `IssueCreationService._execute`. -/
def execute (draftId confirmationId actorId : UUID) : Session IssueCreationOutcome := do
  let draft ← getDraft draftId
  let confirmation ← acceptConfirmation deps draft confirmationId actorId
  let request := deps.buildCreateRequest draft
  let context ← authorizeProject actorId draft.projectId
  mark (.authorized context)
  assertCanCreate context.roleIds
  let existing ← getRecord IDEMPOTENCY_NAMESPACE request.requestId
  match existing.filter (·.status == .COMPLETED) with
  | some record => outcomeFromRecord record.response draft.id request.requestId .ALREADY_CREATED
  | none =>
    let now ← clock
    if now > confirmation.expiresAt ∧ existing.isNone then
      throw (.issueCreationDenied "confirmation expired")
    else
      let (record, createdReservation) ← reserve IDEMPOTENCY_NAMESPACE request.requestId
        draft.projectId
      if record.status = .COMPLETED then
        outcomeFromRecord record.response draft.id request.requestId .ALREADY_CREATED
      else afterReserve draft request createdReservation

/-- `IssueCreationService.reconcile`. -/
def reconcile (draftId : UUID) : Session IssueCreationOutcome := do
  let draft ← getDraft draftId
  let request := deps.buildCreateRequest draft
  match ← getRecord IDEMPOTENCY_NAMESPACE request.requestId with
  | none =>
    throw (.issueCreationDenied "reconciliation requires a prior confirmed idempotency barrier")
  | some record =>
    if record.status = .COMPLETED then
      outcomeFromRecord record.response draft.id request.requestId .RECONCILED
    else
      match ← getIssueByRequestId request.projectId request.requestId with
      | some existing => complete draft.id request.requestId existing .RECONCILED
      | none =>
        let created ← createIssue request
        complete draft.id request.requestId created .RECONCILED

/-! ## Sessions -/

/-- One operation, as its node or job makes it. The graph's nodes turn the
exceptions a user's decision can cause into a refusal and let every other one
end the session; a job's session ends on any. -/
def runCall (call : Call) : Session Unit := do
  Prog.exec (Stmt.enter call)
  match call with
  | .recordDecision draftId actorId action hash =>
    (do let _ ← recordDecision deps draftId actorId action hash).tryCatch fun
      | .confirmationPayloadMismatch _ | .confirmationExpired _ => pure ()
      | e => throw e
  | .execute draftId confirmationId actorId =>
    (do mark (.answered (← execute deps draftId confirmationId actorId))).tryCatch fun
      | .issueCreationDenied _ => pure ()
      | e => throw e
  | .reconcile draftId => do
    mark (.answered (← reconcile deps draftId))

/-- A session: its operations in order, then the commit. -/
def session (calls : List Call) : Session Unit := do
  Prog.each (runCall deps) calls
  Prog.exec Stmt.commit

/-- What others do to the store between steps: time passes, the directory
changes, a run's draft is created and committed. -/
inductive Outside where
  | tick (seconds : Nat)
  | direct (directory : Directory)
  | createDraft (draft : IssueDraft)

def outside : Outside → Store → Option Store
  | .tick n, σ => some { σ with now := σ.now + n }
  | .direct directory, σ => some { σ with directory := directory }
  | .createDraft draft, σ =>
    if draft.status = .DRAFT ∧ σ.drafts draft.id = none then
      some { σ with drafts := Function.update σ.drafts draft.id (some draft) }
    else none

/-- Sessions side by side. One that ends, by returning, by an exception or by
a crash, rolls back whatever it has not committed. -/
def machine : Machine Stmt Stmt.Res Exc Store (List Call) Choice Outside where
  start calls _ σ := some (session deps calls, σ)
  exec := exec
  finish pid _ σ := σ.close pid
  kill pid σ := σ.close pid
  env := outside

end

abbrev IssueWorld := World Stmt Stmt.Res Exc Store

abbrev IssueAction := Action (List Call) Choice Outside

/-- Nothing has been decided, reserved or created yet; drafts may be there. -/
structure Initial (w : IssueWorld) : Prop where
  idle : ∀ pid, w.procs pid = none
  drafts : ∀ id draft, w.shared.drafts id = some draft → draft.id = id
  loaded : ∀ pid id, w.shared.loaded pid id = none
  rowLocks : w.shared.rowLocks = []
  statusWrites : w.shared.statusWrites = []
  confirmations : w.shared.confirmations = ⟨[], []⟩
  issues : ∃ committed, w.shared.issues = ⟨committed, []⟩ ∧
    ∀ i ∈ committed, i.clientRequestId = none
  idempotency : ∀ k, w.shared.idempotency k = none
  ops : ∀ pid, w.shared.ops pid = none
  trace : w.shared.trace = []

end ProjectAgent.Issue
