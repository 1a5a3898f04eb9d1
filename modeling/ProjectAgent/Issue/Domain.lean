/-
The issue workflow's data: drafts, confirmation receipts, idempotency records
and sandbox issues, with their status enumerations, and the exceptions the
services raise.

Timestamps are seconds, as naturals.
-/
import ProjectAgent.Basic

namespace ProjectAgent

/-! ## Enumerations -/

inductive IssueDraftStatus where
  | DRAFT | CONFIRMED | CANCELLED | CREATED
deriving DecidableEq

inductive ConfirmationAction where
  | CONFIRM | CANCEL
deriving DecidableEq

def ConfirmationAction.value : ConfirmationAction → String
  | CONFIRM => "confirm"
  | CANCEL => "cancel"

inductive ToolConfirmationStatus where
  | CONFIRMED | CANCELLED
deriving DecidableEq

inductive IdempotencyStatus where
  | IN_PROGRESS | COMPLETED
deriving DecidableEq

inductive IssueCreationStatus where
  | CREATED | ALREADY_CREATED | PENDING_RECONCILIATION | RECONCILED
deriving DecidableEq

inductive ProjectRole where
  | PROJECT_MANAGER | DEVELOPER | QA | IMPLEMENTATION | SUPPORT | VIEWER
deriving DecidableEq

def ProjectRole.value : ProjectRole → String
  | PROJECT_MANAGER => "project_manager"
  | DEVELOPER => "developer"
  | QA => "qa"
  | IMPLEMENTATION => "implementation"
  | SUPPORT => "support"
  | VIEWER => "viewer"

inductive ProjectLifecycleStatus where
  | ACTIVE | MAINTENANCE | CLOSED | ARCHIVED | DELETION_PENDING | DELETED
deriving DecidableEq

inductive IdentifierType where
  | PROJECT_CODE | REQUIREMENT_ID | ISSUE_KEY | API_PATH | DB_TABLE | DB_COLUMN
      | ERROR_CODE | VERSION
deriving DecidableEq

/-! ## Records -/

structure IssueDraft where
  id : UUID
  runId : UUID
  projectId : UUID
  createdBy : UUID
  title : String
  description : String
  issueType : String
  proposedPriority : String
  module : Option String
  environment : Option String
  reproductionSteps : List String
  expectedBehavior : Option String
  actualBehavior : Option String
  evidenceIds : List String
  status : IssueDraftStatus
  createdAt : Nat
deriving DecidableEq

structure IssueCandidateLink where
  issueKey : String
  rank : Nat
  reasons : List String
deriving DecidableEq

structure CreateIssueRequest where
  projectId : UUID
  requestId : UUID
  title : String
  description : String
  issueType : String
  priority : String
  reporterId : UUID
  module : Option String
  errorCode : Option String
  environment : Option String
deriving DecidableEq

structure CreatedIssue where
  projectId : UUID
  requestId : UUID
  issueKey : String
  status : String
deriving DecidableEq

structure ConfirmationRequest where
  draftId : UUID
  toolName : String
  requestId : UUID
  requestPayloadHash : String
  expiresAt : Nat
  title : String
  description : String
  issueType : String
  priority : String
  module : Option String
  errorCode : Option String
  environment : Option String
  evidenceIds : List String
  possibleDuplicates : List IssueCandidateLink

structure ToolConfirmationReceipt where
  id : UUID
  runId : UUID
  toolName : String
  requestPayloadHash : String
  status : ToolConfirmationStatus
  confirmedBy : UUID
  confirmedAt : Nat
  expiresAt : Nat
deriving DecidableEq

/-- `response_json` of a completed record. -/
structure IdempotencyResponse where
  projectId : UUID
  requestId : UUID
  issueKey : String
  status : String
deriving DecidableEq

structure IdempotencyRecord where
  projectId : UUID
  status : IdempotencyStatus
  resourceType : Option String
  resourceId : Option String
  response : Option IdempotencyResponse
deriving DecidableEq

structure IssueCreationOutcome where
  status : IssueCreationStatus
  draftId : UUID
  requestId : UUID
  issueKey : Option String
  issueStatus : Option String
deriving DecidableEq

/-! ## Exceptions -/

inductive Exc where
  | timeoutError
  | osError
  /-- What the database driver raises: a broken constraint, a lost connection. -/
  | databaseError
  | multipleResultsFound
  | lookupError (message : String)
  | valueError (message : String)
  | runtimeError (message : String)
  | issueCreationDenied (message : String)
  | authorizationDenied (message : String)
  | confirmationExpired (message : String)
  | confirmationPayloadMismatch (message : String)
deriving DecidableEq

end ProjectAgent
