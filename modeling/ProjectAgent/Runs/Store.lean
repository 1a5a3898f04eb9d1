/-
Runs, their events and the queue, and the repository's methods as transactions
over them. A transaction locks its run's row first and holds it until it
commits, so it is one step (`Runs/OneStep` proves it of the worker's); one that
raises leaves the store as it is. Times are microseconds, as naturals.
-/
import ProjectAgent.Jobs.Rows
import ProjectAgent.Issue.Domain

namespace ProjectAgent.Runs

open Jobs (JobTable EnqueueJobRequest)

inductive RunBusinessMode where
  | QA | ISSUE_LOOKUP | ISSUE_CREATE
deriving DecidableEq

inductive RunStatus where
  | QUEUED | RUNNING | WAITING_CONFIRMATION | SUCCEEDED | REFUSED | CANCELLED | FAILED
deriving DecidableEq

/-- `TERMINAL_RUN_STATUSES`. -/
def RunStatus.terminal : RunStatus → Bool
  | SUCCEEDED | REFUSED | CANCELLED | FAILED => true
  | _ => false

inductive AgentEventType where
  | RUN_QUEUED | RUN_STARTED | RUN_PROGRESS | ARTIFACT_AVAILABLE | WAITING_CONFIRMATION
      | RUN_RESUME_QUEUED
  | RUN_RESUMED | RUN_SUCCEEDED | RUN_REFUSED | RUN_CANCELLED | RUN_FAILED
deriving DecidableEq

/-- `TERMINAL_EVENT_TYPES`. -/
def AgentEventType.terminal : AgentEventType → Bool
  | RUN_SUCCEEDED | RUN_REFUSED | RUN_CANCELLED | RUN_FAILED => true
  | _ => false

/-- A JSON value as the services look at it: a string, or something else. -/
inductive Value where
  | str (text : String)
  | other (json : String)
deriving DecidableEq

/-- A `dict[str, object]`. -/
abbrev Payload := List (String × Value)

def Payload.get (payload : Payload) (key : String) : Option Value := payload.lookup key

/-- `isinstance(payload.get(key), str)`. -/
def Payload.text (payload : Payload) (key : String) : Option String :=
  match payload.get key with
  | some (.str text) => some text
  | _ => none

structure Thread where
  id : UUID
  companyId : UUID
  projectId : UUID
  userId : UUID
deriving DecidableEq

/-- A row of `agent_runs`. -/
structure AgentRun where
  id : UUID
  threadId : UUID
  companyId : UUID
  projectId : UUID
  userId : UUID
  businessMode : RunBusinessMode
  status : RunStatus
  startedAt : Option Nat
  finishedAt : Option Nat
deriving DecidableEq

structure AgentEvent where
  sequenceNo : Nat
  eventType : AgentEventType
  payload : Payload
deriving DecidableEq

structure RunRecord where
  id : UUID
  threadId : UUID
  companyId : UUID
  projectId : UUID
  userId : UUID
  businessMode : RunBusinessMode
  status : RunStatus
  startedAt : Option Nat
  finishedAt : Option Nat
  resultRef : Option String
  resultSummary : Option String
deriving DecidableEq

inductive RunError where
  | valueError (text : String)
  | lookupError (runId : UUID)
  | authorizationDenied (text : String)
  | runNotFound (text : String)
  | threadNotFound (text : String)
  | runAccessDenied (text : String)
  | runStateConflict (text : String)
  | resumeInputMismatch (text : String)
  | runExecutionContractError (text : String)
  | runtimeError (text : String)
  | unknownJobType (jobType : String)
  /-- Raised by the queue. -/
  | queue (error : Jobs.QueueError)
  /-- Raised by the graph, the database or the network. -/
  | raised (typeName : String)
deriving DecidableEq

structure RunStore where
  threads : UUID → Option Thread
  runs : UUID → Option AgentRun
  /-- A run's events, the latest first: `ORDER BY sequence_no DESC`. -/
  events : UUID → List AgentEvent
  /-- The latest row first. -/
  jobs : JobTable

abbrev Transaction := StateT RunStore (Except RunError)

/-! ## The repository -/

def toRun (row : AgentRun) (terminal : Option AgentEvent) : RunRecord where
  id := row.id
  threadId := row.threadId
  companyId := row.companyId
  projectId := row.projectId
  userId := row.userId
  businessMode := row.businessMode
  status := row.status
  startedAt := row.startedAt
  finishedAt := row.finishedAt
  resultRef := terminal.bind (·.payload.text "result_ref")
  resultSummary := terminal.bind (·.payload.text "summary")

def getThread (threadId : UUID) : Transaction (Option Thread) := do
  pure ((← get).threads threadId)

/-- The new row's id is drawn; it is free. -/
def createThread (id companyId projectId userId : UUID) : Transaction Thread := do
  let σ ← get
  if (σ.threads id).isSome then throw (.queue .integrityError)
  else
    let thread : Thread := ⟨id, companyId, projectId, userId⟩
    set { σ with threads := Function.update σ.threads id (some thread) }
    pure thread

def createRunRow (id threadId companyId projectId userId : UUID) (businessMode : RunBusinessMode) :
    Transaction RunRecord := do
  let σ ← get
  if (σ.runs id).isSome then throw (.queue .integrityError)
  else
    let row : AgentRun := ⟨id, threadId, companyId, projectId, userId, businessMode, .QUEUED,
      none, none⟩
    set { σ with runs := Function.update σ.runs id (some row) }
    pure (toRun row none)

def latestTerminalEvent (σ : RunStore) (runId : UUID) : Option AgentEvent :=
  (σ.events runId).find? (·.eventType.terminal)

/-- With `for_update` or without: nobody else is at work in the step. -/
def getRun (runId : UUID) : Transaction (Option RunRecord) := do
  let σ ← get
  pure ((σ.runs runId).map (toRun · (latestTerminalEvent σ runId)))

/-- `max(sequence_no) + 1`, from 1. -/
def nextSequence (events : List AgentEvent) : Nat := (events.map (·.sequenceNo)).foldr max 0 + 1

def appendEvent (runId : UUID) (eventType : AgentEventType) (payload : Payload) :
    Transaction AgentEvent := do
  let σ ← get
  match σ.runs runId with
  | none => throw (.lookupError runId)
  | some _ =>
    let event : AgentEvent := ⟨nextSequence (σ.events runId), eventType, payload⟩
    set { σ with events := Function.update σ.events runId (event :: σ.events runId) }
    pure event

def RunStore.latestEvent (σ : RunStore) (runId : UUID) (eventType : AgentEventType) :
    Option AgentEvent :=
  (σ.events runId).find? (·.eventType == eventType)

def latestEventOfType (runId : UUID) (eventType : AgentEventType) :
    Transaction (Option AgentEvent) := do
  pure ((← get).latestEvent runId eventType)

def setStatus (runId : UUID) (status : RunStatus) : Transaction RunRecord := do
  let σ ← get
  match σ.runs runId with
  | none => throw (.lookupError runId)
  | some row =>
    let row := { row with status := status }
    set { σ with runs := Function.update σ.runs runId (some row) }
    pure (toRun row none)

def setLifecycle (runId : UUID) (status : RunStatus) (startedAt finishedAt : Option Nat) :
    Transaction RunRecord := do
  let σ ← get
  match σ.runs runId with
  | none => throw (.lookupError runId)
  | some row =>
    let row := { row with status := status, startedAt := startedAt, finishedAt := finishedAt }
    set { σ with runs := Function.update σ.runs runId (some row) }
    pure (toRun row none)

/-- `SqlAlchemySessionJobEnqueuer.enqueue`: the row is added in the caller's transaction. -/
def enqueue (settings : Jobs.Settings) (request : EnqueueJobRequest) (id : UUID) (now : Nat) :
    Transaction Unit := do
  let σ ← get
  match Jobs.enqueue settings σ.jobs request id now with
  | .error e => throw (.queue e)
  | .ok jobs => set { σ with jobs := jobs }

end ProjectAgent.Runs
