/-
The database the issue services share, one statement at a time. A session
reads the committed rows and its own; the idempotency store and the job queue
commit each operation in a session of their own, so their statements are at
once everyone's. A statement may be lost: its exception reaches the caller
with the statement done or not (`Fault`).

What the model adds to watch a run with, and no statement reads: the operation
a session is in (`ops`, `opened`) and the trace of what operations did.
-/
import Mathlib.Logic.Function.Basic
import ProjectAgent.Lib.Machine
import ProjectAgent.Lib.Table
import ProjectAgent.Jobs.Queue
import ProjectAgent.Issue.Drafts

namespace ProjectAgent.Issue

open Interleave
open Jobs (EnqueueJobRequest)

/-! ## Rows -/

structure SandboxIssue where
  id : UUID
  projectId : UUID
  sandboxProjectId : UUID
  issueKey : String
  title : String
  description : String
  issueType : String
  priority : String
  status : String
  module : Option String
  errorCode : Option String
  environment : Option String
  reporterId : UUID
  source : String
  clientRequestId : Option UUID
deriving DecidableEq

/-- `uq_sandbox_issues_project_request`, partial: rows without a request id are outside it. -/
def SandboxIssue.requestKey (i : SandboxIssue) : Option (UUID × UUID) :=
  i.clientRequestId.map (i.projectId, ·)

/-- `uq_sandbox_issues_project_key`. -/
def SandboxIssue.projectKey (i : SandboxIssue) : Option (UUID × String) :=
  some (i.projectId, i.issueKey)

structure SandboxProject where
  id : UUID
  projectId : UUID
  externalKey : String
  status : String
deriving DecidableEq

structure Membership where
  userId : UUID
  projectId : UUID
  role : ProjectRole
  validFrom : Nat
  validTo : Option Nat
deriving DecidableEq

structure Project where
  id : UUID
  companyId : UUID
  clientId : UUID
  code : String
  lifecycleStatus : ProjectLifecycleStatus
deriving DecidableEq

structure MembershipAccessRecord where
  companyId : UUID
  clientId : UUID
  projectId : UUID
  projectCode : String
  role : ProjectRole
  validFrom : Nat
  validTo : Option Nat
deriving DecidableEq

/-- A published document version, joined with its document. -/
structure PublishedVersion where
  documentId : UUID
  id : UUID
  versionNo : Nat
  documentCategory : String

structure AuthorizedProjectContext where
  companyId : UUID
  userId : UUID
  allowedClientIds : List UUID
  allowedProjectIds : List UUID
  allowedDocumentVersionIds : List UUID
  allowedDocumentCategories : List String
  roleIds : List String
  maxSecurityLevel : Nat
  policyVersion : String
  projectCode : String
  knowledgeSpaceIds : List String

/-! ## Operations and their trace -/

/-- An operation of the issue services, as its caller makes it. -/
inductive Call where
  | recordDecision (draftId actorId : UUID) (action : ConfirmationAction)
      (requestPayloadHash : String)
  | execute (draftId confirmationId actorId : UUID)
  | reconcile (draftId : UUID)
deriving DecidableEq

structure Op where
  no : Nat
  call : Call
  openedAt : Nat

inductive Event where
  | membership (userId projectId : UUID) (at_ : Nat) (found : Option MembershipAccessRecord)
  | accepted (receipt : ToolConfirmationReceipt)
  | authorized (context : AuthorizedProjectContext)
  | mayCreate (roleIds : List String)
  | reserved (requestId : UUID)
  | createIssue (request : CreateIssueRequest)
  | inserted (issue : SandboxIssue)
  | completed (requestId : UUID) (issueKey : String)
  | answered (outcome : IssueCreationOutcome)

structure Entry where
  op : Op
  event : Event

/-! ## The store -/

/-- The tables that only others write: memberships and roles, projects,
published documents, knowledge spaces, the sandbox's projects. -/
structure Directory where
  memberships : List Membership
  projects : List Project
  sandboxProjects : List SandboxProject
  publishedVersions : UUID → List PublishedVersion
  activeKnowledgeSpaceIds : UUID → List String
  candidateLinks : UUID → List IssueCandidateLink

structure Store where
  drafts : UUID → Option IssueDraft
  /-- A session's identity map: the drafts it has loaded, which it does not read again. -/
  loaded : Nat → UUID → Option IssueDraft
  /-- The drafts' row locks, each held by a session until it commits or ends. -/
  rowLocks : List (Nat × UUID)
  /-- Uncommitted status updates, the last first. -/
  statusWrites : List (Nat × UUID × IssueDraftStatus)
  confirmations : Table ToolConfirmationReceipt
  issues : Table SandboxIssue
  idempotency : String × UUID → Option IdempotencyRecord
  directory : Directory
  jobs : List EnqueueJobRequest
  now : Nat
  opened : Nat
  ops : Nat → Option Op
  trace : List Entry

namespace Store

/-- Adds the event to the trace, for the operation the session is in. -/
def log (σ : Store) (pid : Nat) (event : Event) : Store :=
  { σ with trace := ((σ.ops pid).map (⟨·, event⟩)).toList ++ σ.trace }

def load (σ : Store) (pid : Nat) (draft : IssueDraft) : Store :=
  { σ with
    loaded := Function.update σ.loaded pid (Function.update (σ.loaded pid) draft.id (some draft)) }

/-- The session's own update of the draft, where it has made one. -/
def ownStatus (σ : Store) (pid : Nat) (draftId : UUID) : Option IssueDraftStatus :=
  (σ.statusWrites.find? fun w => w.1 == pid && w.2.1 == draftId).map (·.2.2)

def commitDraft (σ : Store) (pid : Nat) (draftId : UUID) : Option IssueDraft :=
  (σ.drafts draftId).map fun draft =>
    match σ.ownStatus pid draftId with
    | some status => { draft with status := status }
    | none => draft

def commit (σ : Store) (pid : Nat) : Store :=
  { σ with
    drafts := σ.commitDraft pid
    rowLocks := σ.rowLocks.filter (!·.1 == pid)
    statusWrites := σ.statusWrites.filter (!·.1 == pid)
    confirmations := σ.confirmations.commit pid
    issues := σ.issues.commit pid }

/-- The session ends: what it has not committed is rolled back. -/
def close (σ : Store) (pid : Nat) : Store :=
  { σ with
    loaded := Function.update σ.loaded pid fun _ => none
    rowLocks := σ.rowLocks.filter (!·.1 == pid)
    statusWrites := σ.statusWrites.filter (!·.1 == pid)
    confirmations := σ.confirmations.rollback pid
    issues := σ.issues.rollback pid
    ops := Function.update σ.ops pid none }

end Store

/-! ## Statements -/

inductive Stmt where
  /-- Instrumentation: an operation starts; an operation reports. -/
  | enter (call : Call)
  | mark (event : Event)
  | clock
  | uuid4
  | getDraft (draftId : UUID)
  | setDraftStatus (draftId : UUID) (status : IssueDraftStatus)
  | listCandidateLinks (draftId : UUID)
  | selectConfirmation (like : ToolConfirmationReceipt)
  | insertConfirmation (receipt : ToolConfirmationReceipt)
  | getConfirmation (confirmationId : UUID)
  | getActiveMembership (userId projectId : UUID) (at_ : Nat)
  | listPublishedVersions (projectId : UUID)
  | listActiveKnowledgeSpaceIds (projectId : UUID)
  | insertIdempotency (ns : String) (requestId projectId : UUID)
  | selectIdempotency (ns : String) (requestId : UUID)
  | completeIdempotency (ns : String) (requestId : UUID) (resourceType resourceId : String)
      (response : IdempotencyResponse)
  | selectIssue (projectId requestId : UUID)
  | selectActiveSandboxProjects (projectId : UUID)
  | insertIssue (issue : SandboxIssue)
  | enqueue (request : EnqueueJobRequest)
  | commit

/-- What a statement answers. -/
def Stmt.Res : Stmt → Type
  | .enter _ | .mark _ | .insertConfirmation _ | .enqueue _ | .commit => Unit
  | .clock => Nat
  | .uuid4 => UUID
  | .getDraft _ | .setDraftStatus _ _ => Option IssueDraft
  | .listCandidateLinks _ => List IssueCandidateLink
  | .selectConfirmation _ | .getConfirmation _ => Option ToolConfirmationReceipt
  | .getActiveMembership _ _ _ => Option MembershipAccessRecord
  | .listPublishedVersions _ => List PublishedVersion
  | .listActiveKnowledgeSpaceIds _ => List String
  | .insertIdempotency _ _ _ => Bool
  | .selectIdempotency _ _ | .completeIdempotency _ _ _ _ _ => Option IdempotencyRecord
  | .selectIssue _ _ => Option SandboxIssue
  | .selectActiveSandboxProjects _ => List SandboxProject
  | .insertIssue _ => Option SandboxIssue

/-- Whether the statement goes to the database, and can be lost on the way. -/
def Stmt.remote : Stmt → Bool
  | .enter _ | .mark _ | .clock | .uuid4 => false
  | _ => true

/-- The exception a lost statement raises, before or after it has been done. -/
inductive Lost where
  | timeout | os | database
deriving DecidableEq

def Lost.exc : Lost → Exc
  | timeout => .timeoutError
  | os => .osError
  | database => .databaseError

inductive Fault where
  | before (lost : Lost)
  | after (lost : Lost)
deriving DecidableEq

/-- What the outside decides at a step: whether the statement is lost, the
UUID drawn, the row a `LIMIT 1` without a total order takes. -/
structure Choice where
  fault : Option Fault
  uuid : UUID
  pick : Nat

def pickFrom {α : Type} (c : Choice) (as : List α) : Option α := as[c.pick % as.length]?

theorem pickFrom_mem {α : Type} {c : Choice} {as : List α} {a : α}
    (h : pickFrom c as = some a) : a ∈ as :=
  List.mem_of_getElem? h

theorem pickFrom_none {α : Type} {c : Choice} {as : List α} (h : pickFrom c as = none) :
    as = [] := by
  by_contra hne
  have hpos : 0 < as.length := List.length_pos_iff.mpr hne
  have := List.getElem?_eq_none_iff.mp h
  have := Nat.mod_lt c.pick hpos
  omega

def Membership.activeAt (m : Membership) (t : Nat) : Prop :=
  m.validFrom ≤ t ∧ ∀ e, m.validTo = some e → t < e

instance (m : Membership) (t : Nat) : Decidable (m.activeAt t) :=
  inferInstanceAs (Decidable (_ ∧ ∀ e, m.validTo = some e → _))

/-- The rows `get_active_membership` joins and filters. -/
def Directory.activeMemberships (dir : Directory) (userId projectId : UUID) (t : Nat) :
    List MembershipAccessRecord :=
  dir.memberships.flatMap fun m =>
    (dir.projects.filter fun p => p.id == m.projectId).filterMap fun p =>
      if m.userId = userId ∧ m.projectId = projectId ∧ m.activeAt t ∧
          p.lifecycleStatus ≠ .DELETION_PENDING ∧ p.lifecycleStatus ≠ .DELETED then
        some ⟨p.companyId, p.clientId, p.id, p.code, m.role, m.validFrom, m.validTo⟩
      else none

/-- `save_confirmation` takes two receipts for one if they agree on these. -/
def sameDecision (a b : ToolConfirmationReceipt) : Bool :=
  a.runId == b.runId && a.toolName == b.toolName && a.requestPayloadHash == b.requestPayloadHash &&
    a.status == b.status && a.confirmedBy == b.confirmedBy

/-- Does the statement; `none` where it waits for another session's lock. -/
def perform (pid : Nat) (c : Choice) (σ : Store) : (s : Stmt) → Option (Except Exc s.Res × Store)
  | .enter call =>
    some (.ok (), { σ with
      opened := σ.opened + 1
      ops := Function.update σ.ops pid (some ⟨σ.opened, call, σ.now⟩) })
  | .mark event => some (.ok (), σ.log pid event)
  | .clock => some (.ok σ.now, σ)
  | .uuid4 => some (.ok c.uuid, σ)
  | .getDraft draftId =>
    match σ.loaded pid draftId, σ.drafts draftId with
    | some draft, _ => some (.ok (some draft), σ)
    | none, some draft => some (.ok (some draft), σ.load pid draft)
    | none, none => some (.ok none, σ)
  | .setDraftStatus draftId status =>
    if ∃ l ∈ σ.rowLocks, l.1 ≠ pid ∧ l.2 = draftId then none else
      match σ.drafts draftId, σ.loaded pid draftId with
      | none, _ => some (.ok none, σ)
      | some draft, loaded =>
        let locked := { σ with rowLocks := (pid, draftId) :: σ.rowLocks }
        -- The read under the lock does not refresh a copy loaded before, and a column
        -- that is given the value its copy has is not in the UPDATE.
        if loaded.map (·.status) = some status then some (.ok loaded, locked)
        else
          let draft := { draft with status := status }
          some (.ok (some draft),
            { locked.load pid draft with statusWrites := (pid, draftId, status) :: σ.statusWrites })
  | .listCandidateLinks draftId => some (.ok (σ.directory.candidateLinks draftId), σ)
  | .selectConfirmation like =>
    some (.ok (pickFrom c ((σ.confirmations.view pid).filter (sameDecision like))), σ)
  | .insertConfirmation receipt =>
    if σ.confirmations.Waits (some ·.id) pid receipt then none
    else if σ.confirmations.Taken (some ·.id) pid receipt then some (.error .databaseError, σ)
    else some (.ok (), { σ with confirmations := σ.confirmations.insert pid receipt })
  | .getConfirmation confirmationId =>
    some (.ok ((σ.confirmations.view pid).find? (·.id == confirmationId)), σ)
  | .getActiveMembership userId projectId t =>
    let found := pickFrom c (σ.directory.activeMemberships userId projectId t)
    some (.ok found, σ.log pid (.membership userId projectId t found))
  | .listPublishedVersions projectId => some (.ok (σ.directory.publishedVersions projectId), σ)
  | .listActiveKnowledgeSpaceIds projectId =>
    some (.ok (σ.directory.activeKnowledgeSpaceIds projectId), σ)
  | .insertIdempotency ns requestId projectId =>
    match σ.idempotency (ns, requestId) with
    | some _ => some (.ok false, σ)
    | none =>
      some (.ok true, { σ with
        idempotency := Function.update σ.idempotency (ns, requestId)
          (some ⟨projectId, .IN_PROGRESS, none, none, none⟩) }.log pid (.reserved requestId))
  | .selectIdempotency ns requestId => some (.ok (σ.idempotency (ns, requestId)), σ)
  | .completeIdempotency ns requestId resourceType resourceId response =>
    match σ.idempotency (ns, requestId) with
    | none => some (.ok none, σ)
    | some record =>
      let record := { record with
        status := .COMPLETED, resourceType := some resourceType, resourceId := some resourceId
        response := some response }
      some (.ok (some record), { σ with
        idempotency := Function.update σ.idempotency (ns, requestId) (some record)
        }.log pid (.completed requestId response.issueKey))
  | .selectIssue projectId requestId =>
    some (.ok (pickFrom c ((σ.issues.view pid).filter
      fun i => i.projectId == projectId && i.clientRequestId == some requestId)), σ)
  | .selectActiveSandboxProjects projectId =>
    some (.ok (σ.directory.sandboxProjects.filter
      fun p => p.projectId == projectId && p.status == "active"), σ)
  | .insertIssue issue =>
    if σ.issues.Waits SandboxIssue.requestKey pid issue ∨
      σ.issues.Waits SandboxIssue.projectKey pid issue ∨
        σ.issues.Waits (some ·.id) pid issue then none
    -- ON CONFLICT (project_id, client_request_id) DO NOTHING; the other keys are errors
    else if σ.issues.Taken SandboxIssue.requestKey pid issue then some (.ok none, σ)
    else if σ.issues.Taken SandboxIssue.projectKey pid issue ∨
      σ.issues.Taken (some ·.id) pid issue then
      some (.error .databaseError, σ)
    else some (.ok (some issue), { σ with
      issues := σ.issues.insert pid issue }.log pid (.inserted issue))
  | .enqueue request => some (.ok (), { σ with jobs := request :: σ.jobs })
  | .commit => some (.ok (), σ.commit pid)

/-- A statement under the outside's choice: done, lost before it is done, or done and its answer
lost. -/
def exec (pid : Nat) (s : Stmt) (c : Choice) (σ : Store) : Option (Except Exc s.Res × Store) :=
  match s.remote, c.fault with
  | true, some (.before lost) => some (.error lost.exc, σ)
  | true, some (.after lost) => (perform pid c σ s).map fun (_, σ') => (.error lost.exc, σ')
  | _, _ => perform pid c σ s

end ProjectAgent.Issue
