/-
The run services over the repository: creating and resuming a run, and what an
attempt does before and after its graph.
-/
import ProjectAgent.Runs.Store

namespace ProjectAgent.Runs

open Jobs (EnqueueJobRequest)

/-! ## `RunApplicationService` -/

def EXECUTE_AGENT_RUN : String := "EXECUTE_AGENT_RUN"

def RESUME_AGENT_RUN : String := "RESUME_AGENT_RUN"

structure CreateRunCommand where
  projectId : UUID
  businessMode : RunBusinessMode
  queryText : String
  threadId : Option UUID

structure ResumeRunCommand where
  action : ConfirmationAction
  requestPayloadHash : String

/-- What the outside gives a request: its user, whether the user is authorized
for a project (and the company of the scope), the ids it draws, the time. -/
structure Request where
  userId : UUID
  authorizeProject : UUID → Except RunError UUID
  threadId : UUID
  runId : UUID
  jobId : UUID
  now : Nat

def maxAttemptsDefault : Nat := 3

section
variable (settings : Jobs.Settings) (request : Request)

/-- `create_run`'s thread: a new one, or the caller's own. -/
def requireThread (command : CreateRunCommand) (companyId : UUID) : Transaction Thread := do
  match command.threadId with
  | none => createThread request.threadId companyId command.projectId request.userId
  | some threadId =>
    match ← getThread threadId with
    | none => throw (.threadNotFound ("thread " ++ threadId.str ++ " not found"))
    | some thread =>
      if thread.projectId ≠ command.projectId ∨ thread.companyId ≠ companyId ∨
        thread.userId ≠ request.userId then
        throw (.runAccessDenied "thread does not belong to the authorized actor scope")
      else pure thread

def createRun (command : CreateRunCommand) : Transaction RunRecord := do
  let queryText := strip command.queryText
  if queryText = "" then throw (.valueError "query text must not be blank")
  else
    match request.authorizeProject command.projectId with
    | .error e => throw e
    | .ok companyId =>
      let thread ← requireThread request command companyId
      let run ← createRunRow request.runId thread.id companyId command.projectId request.userId
        command.businessMode
      let _ ← appendEvent run.id .RUN_QUEUED [("query_text", .str queryText)]
      enqueue settings ⟨EXECUTE_AGENT_RUN, run.id.str, maxAttemptsDefault⟩ request.jobId request.now
      pure run

/-- The checks `resume_run` makes of the run it was given. -/
def checkResume (run : RunRecord) (companyId : UUID) : Except RunError Unit :=
  if companyId ≠ run.companyId then
    .error (.runAccessDenied "run company does not match current authorization")
  else if request.userId ≠ run.userId then
    .error (.runAccessDenied "only the original run actor may resume this run")
  else if run.businessMode ≠ .ISSUE_CREATE then
    .error (.runStateConflict "run business mode does not accept confirmation resume")
  else if run.status ≠ .WAITING_CONFIRMATION then
    .error (.runStateConflict "run is not waiting for confirmation")
  else .ok ()

/-- The hash the caller confirms is the one the run is waiting for. -/
def checkHash (waiting : Option AgentEvent) (requestPayloadHash : String) : Except RunError Unit :=
  match waiting with
  | none => .error (.runStateConflict "run has no durable waiting confirmation event")
  | some waiting =>
    match waiting.payload.text "request_payload_hash" with
    | none => .error (.runStateConflict "waiting confirmation event has no payload hash")
    | some expected =>
      if requestPayloadHash ≠ expected then
        .error (.resumeInputMismatch "resume payload hash does not match waiting confirmation")
      else .ok ()

def resumeRun (runId : UUID) (command : ResumeRunCommand) : Transaction RunRecord := do
  match ← getRun runId with
  | none => throw (.runNotFound ("run " ++ runId.str ++ " not found"))
  | some run =>
    match request.authorizeProject run.projectId with
    | .error e => throw e
    | .ok companyId =>
      checkResume request run companyId
      checkHash (← latestEventOfType run.id .WAITING_CONFIRMATION) command.requestPayloadHash
      let _ ← appendEvent run.id .RUN_RESUME_QUEUED [("action", .str command.action.value),
        ("request_payload_hash", .str command.requestPayloadHash),
          ("actor_id", .str request.userId.str)]
      let updated ← setStatus run.id .QUEUED
      enqueue settings ⟨RESUME_AGENT_RUN, run.id.str, maxAttemptsDefault⟩ request.jobId request.now
      pure updated

end

/-! ## `RunExecutionService` -/

inductive RunGraphOutcomeKind where
  | SUCCEEDED | REFUSED | CANCELLED | WAITING_CONFIRMATION
deriving DecidableEq

structure RunGraphOutcome where
  kind : RunGraphOutcomeKind
  resultRef : Option String
  summary : Option String
  waitingPayload : Option Payload
deriving DecidableEq

structure RunExecutionPreparation where
  run : RunRecord
  invoke : Bool
  resumePayload : Option Payload

def requireRun (runId : UUID) : Transaction RunRecord := do
  match ← getRun runId with
  | none => throw (.lookupError runId)
  | some run => pure run

/-- `a` is there and later than `b`. -/
def later (a : Option AgentEvent) (b : AgentEvent) : Bool := a.any (b.sequenceNo < ·.sequenceNo)

def prepareExecute (runId : UUID) (now : Nat) : Transaction RunExecutionPreparation := do
  let run ← requireRun runId
  if run.status = .WAITING_CONFIRMATION ∨ run.status.terminal then pure ⟨run, false, none⟩
  else
    match ← latestEventOfType runId .RUN_QUEUED with
    | none => pure ⟨run, false, none⟩
    | some queued =>
      let resumeQueued ← latestEventOfType runId .RUN_RESUME_QUEUED
      let resumed ← latestEventOfType runId .RUN_RESUMED
      if later resumeQueued queued || later resumed queued then pure ⟨run, false, none⟩
      else
        let started ← latestEventOfType runId .RUN_STARTED
        if run.status = .QUEUED then
          let run ← setLifecycle runId .RUNNING (run.startedAt.orElse fun _ => some now) none
          if started.all (·.sequenceNo < queued.sequenceNo) then
            let _ ← appendEvent runId .RUN_STARTED []
            pure ⟨run, true, none⟩
          else pure ⟨run, true, none⟩
        else if run.status ≠ .RUNNING then pure ⟨run, false, none⟩
        else pure ⟨run, true, none⟩

/-- `prepare_resume`, once it is to go on: the run is running and `RUN_RESUMED` is there. -/
def beginResume (runId : UUID) (run : RunRecord) (resumeQueued : AgentEvent) :
    Transaction RunExecutionPreparation := do
  let resumed ← latestEventOfType runId .RUN_RESUMED
  let run ← if run.status = .QUEUED then setLifecycle runId .RUNNING run.startedAt none
    else pure run
  if resumed.all (·.sequenceNo < resumeQueued.sequenceNo) then
    let _ ← appendEvent runId .RUN_RESUMED []
    pure ⟨run, true, some resumeQueued.payload⟩
  else pure ⟨run, true, some resumeQueued.payload⟩

def prepareResume (runId : UUID) : Transaction RunExecutionPreparation := do
  let run ← requireRun runId
  if run.status = .WAITING_CONFIRMATION ∨ run.status.terminal then pure ⟨run, false, none⟩
  else if run.status ≠ .QUEUED ∧ run.status ≠ .RUNNING then pure ⟨run, false, none⟩
  else
    match ← latestEventOfType runId .RUN_RESUME_QUEUED with
    | none => pure ⟨run, false, none⟩
    | some resumeQueued =>
      let started ← latestEventOfType runId .RUN_STARTED
      if started.any (resumeQueued.sequenceNo ≤ ·.sequenceNo) then pure ⟨run, false, none⟩
      else beginResume runId run resumeQueued

def terminalProjection : RunGraphOutcomeKind → Except RunError (RunStatus × AgentEventType)
  | .SUCCEEDED => .ok (.SUCCEEDED, .RUN_SUCCEEDED)
  | .REFUSED => .ok (.REFUSED, .RUN_REFUSED)
  | .CANCELLED => .ok (.CANCELLED, .RUN_CANCELLED)
  | .WAITING_CONFIRMATION =>
    .error (.runExecutionContractError "unsupported terminal graph outcome: WAITING_CONFIRMATION")

/-- The payload of a waiting outcome, which must name its hash. -/
def waitingPayload (outcome : RunGraphOutcome) : Except RunError Payload :=
  match outcome.waitingPayload with
  | none =>
    .error (.runExecutionContractError "WAITING_CONFIRMATION requires string request_payload_hash")
  | some payload =>
    match payload.text "request_payload_hash" with
    | none =>
      .error (.runExecutionContractError
        "WAITING_CONFIRMATION requires string request_payload_hash")
    | some _ => .ok payload

def resultPayload (outcome : RunGraphOutcome) : Payload :=
  (outcome.resultRef.map fun ref => ("result_ref", Value.str ref)).toList ++
    (outcome.summary.map fun summary => ("summary", Value.str summary)).toList

def persistOutcome (runId : UUID) (outcome : RunGraphOutcome) (now : Nat) :
    Transaction RunRecord := do
  let run ← requireRun runId
  if run.status.terminal ∨ run.status = .WAITING_CONFIRMATION then pure run
  else if outcome.kind = .WAITING_CONFIRMATION then
    let payload ← waitingPayload outcome
    let run ← setLifecycle runId .WAITING_CONFIRMATION run.startedAt none
    let _ ← appendEvent runId .WAITING_CONFIRMATION payload
    pure run
  else
    let (status, eventType) ← terminalProjection outcome.kind
    let run ← setLifecycle runId status run.startedAt (some now)
    let _ ← appendEvent runId eventType (resultPayload outcome)
    pure run

def markFinalFailure (runId : UUID) (errorCode : String) (now : Nat) : Transaction RunRecord := do
  let run ← requireRun runId
  if run.status.terminal then pure run
  else
    let run ← setLifecycle runId .FAILED run.startedAt (some now)
    let _ ← appendEvent runId .RUN_FAILED [("error_code", .str errorCode)]
    pure run

end ProjectAgent.Runs
