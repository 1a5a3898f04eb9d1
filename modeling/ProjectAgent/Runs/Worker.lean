/-
Attempts at jobs, as programs of transactions, and the machine that runs them
next to the API's requests and the queue's own steps. A claim hands a worker
its jobs; each of them is taken up once, or never if the worker is lost.

What the model adds to watch a run with, and no transaction reads: the jobs
handed out and not taken up yet (`delivered`), the run each attempt has marked
as finally failed (`marked`), and the run it was prepared for, with the number
of resume requests accepted by then (`prepared`).
-/
import ProjectAgent.Lib.Machine
import ProjectAgent.Runs.Services

namespace ProjectAgent.Runs

open Interleave
open Jobs (QueuedJob)

structure Delivery where
  workerId : String
  job : QueuedJob
deriving DecidableEq

structure WorkStore extends RunStore where
  delivered : List Delivery
  marked : Nat → Option UUID
  prepared : Nat → Option (UUID × Nat)

/-- The resume requests a run has accepted, the latest first. -/
def accepted (events : List AgentEvent) : List AgentEvent :=
  events.filter (·.eventType == .RUN_RESUME_QUEUED)

/-! ## Statements: one transaction each, or a call of the graph -/

inductive Stmt where
  | prepareExecute (runId : UUID)
  | prepareResume (runId : UUID)
  | graphExecute (run : RunRecord)
  | graphResume (run : RunRecord) (resumePayload : Payload)
  | persistOutcome (runId : UUID) (outcome : RunGraphOutcome)
  | markFinalFailure (runId : UUID) (errorCode : String)
  /-- The handler of any other job type. -/
  | otherHandler (job : QueuedJob)
  | complete (jobId : UUID) (workerId : String)
  | fail (jobId : UUID) (workerId errorCode : String)

@[reducible] def Stmt.Res : Stmt → Type
  | .prepareExecute _ | .prepareResume _ => RunExecutionPreparation
  | .graphExecute _ | .graphResume _ _ => RunGraphOutcome
  | .persistOutcome _ _ | .markFinalFailure _ _ => RunRecord
  | .otherHandler _ | .complete _ _ | .fail _ _ _ => Unit

/-- What the outside decides at a step: the time, whether the transaction is
lost (before or after its commit) and with what exception, what the graph does
and which artifacts it leaves in the run's events. -/
structure Choice where
  now : Nat
  lost : Option (Bool × String)
  graph : Except String RunGraphOutcome
  artifacts : List Payload

abbrev Work := Prog Stmt Stmt.Res RunError

/-! ## Handlers -/

/-- `type(exc).__name__`. -/
def RunError.typeName : RunError → String
  | valueError _ => "ValueError"
  | lookupError _ => "LookupError"
  | authorizationDenied _ => "AuthorizationDenied"
  | runNotFound _ => "RunNotFound"
  | threadNotFound _ => "ThreadNotFound"
  | runAccessDenied _ => "RunAccessDenied"
  | runStateConflict _ => "RunStateConflict"
  | resumeInputMismatch _ => "ResumeInputMismatch"
  | runExecutionContractError _ => "RunExecutionContractError"
  | runtimeError _ => "RuntimeError"
  | unknownJobType _ => "UnknownJobType"
  | queue (.valueError _) => "ValueError"
  | queue (.lookupError _) => "LookupError"
  | queue (.jobOwnershipError _) => "JobOwnershipError"
  | queue .integrityError => "IntegrityError"
  | raised typeName => typeName

@[irreducible] def requireUUID (text : String) : Work UUID :=
  match UUID.parse text with
  | none => throw (.valueError "badly formed hexadecimal UUID string")
  | some id => pure id

def handleFailure (job : QueuedJob) (runId : UUID) (e : RunError) : Work Unit :=
  if job.maxAttempts ≤ job.attempts then do
    let _ ← Prog.exec (Stmt.markFinalFailure runId e.typeName)
  else pure ()

def persist (runId : UUID) (outcome : RunGraphOutcome) : Work Unit := do
  let _ ← Prog.exec (Stmt.persistOutcome runId outcome)

/-- The graph's outcome; its exception is handled and goes on. -/
def guardGraph (job : QueuedJob) (runId : UUID) (graph : Work RunGraphOutcome) :
    Work RunGraphOutcome :=
  graph.tryCatch fun e => (handleFailure job runId e).bind fun _ => throw e

def executeAgentRun (job : QueuedJob) : Work Unit := do
  let runId ← requireUUID job.aggregateId
  let preparation ← Prog.exec (Stmt.prepareExecute runId)
  if preparation.invoke then
    let outcome ← guardGraph job runId (Prog.exec (Stmt.graphExecute preparation.run))
    persist runId outcome
  else pure ()

def resumeAgentRun (job : QueuedJob) : Work Unit := do
  let runId ← requireUUID job.aggregateId
  let preparation ← Prog.exec (Stmt.prepareResume runId)
  if preparation.invoke then
    match preparation.resumePayload with
    | none => throw (.runtimeError "resume preparation did not provide durable payload")
    | some payload =>
      let outcome ← guardGraph job runId (Prog.exec (Stmt.graphResume preparation.run payload))
      persist runId outcome
  else pure ()

/-- The handler `resolve` finds. -/
def handler (job : QueuedJob) : Work Unit :=
  if job.jobType = EXECUTE_AGENT_RUN then executeAgentRun job
  else if job.jobType = RESUME_AGENT_RUN then resumeAgentRun job
  else Prog.exec (Stmt.otherHandler job)

/-- `BackgroundWorker._invoke_handler`. -/
def invokeHandler (delivery : Delivery) : Work Unit := do
  match ← (some <$> handler delivery.job).tryCatch fun e => Prog.bind (fail e) fun _ =>
    pure none with
  | some _ => Prog.exec (Stmt.complete delivery.job.jobId delivery.workerId)
  | none => pure ()
where
  fail (e : RunError) : Work Unit :=
    Prog.exec (Stmt.fail delivery.job.jobId delivery.workerId e.typeName)

/-! ## The machine -/

section
variable (settings : Jobs.Settings)

/-- A transaction on the run tables, under the choice's fault. -/
def transact {α : Type} (c : Choice) (σ : WorkStore) (t : Transaction α) :
    Except RunError α × WorkStore :=
  match c.lost, t σ.toRunStore with
  | some (false, e), _ => (.error (.raised e), σ)
  | some (true, e), .ok (_, τ) => (.error (.raised e), { σ with toRunStore := τ })
  | none, .ok (a, τ) => (.ok a, { σ with toRunStore := τ })
  | _, .error e => (.error e, σ)

/-- What is noted once a transaction has answered. -/
def noting {α : Type} (note : WorkStore → WorkStore) :
    Except RunError α × WorkStore → Except RunError α × WorkStore
  | (.ok a, σ) => (.ok a, note σ)
  | (.error e, σ) => (.error e, σ)

def notePrepared (pid : Nat) (runId : UUID) (σ : WorkStore) : WorkStore :=
  { σ with
    prepared := Function.update σ.prepared pid (some (runId, (accepted (σ.events runId)).length)) }

def noteMarked (pid : Nat) (runId : UUID) (σ : WorkStore) : WorkStore :=
  { σ with marked := Function.update σ.marked pid (some runId) }

/-- A call of the queue is a transaction of the queue's. -/
def queueCall (call : Jobs.JobTable → Except Jobs.QueueError Jobs.JobTable) : Transaction Unit := do
  let σ ← get
  match call σ.jobs with
  | .error e => throw (.queue e)
  | .ok jobs => set { σ with jobs := jobs }

/-- What the graph leaves in the run's events. -/
def addArtifacts (runId : UUID) : List Payload → Transaction Unit
  | [] => pure ()
  | payload :: payloads => do
    let _ ← appendEvent runId .ARTIFACT_AVAILABLE payload
    addArtifacts runId payloads

/-- A graph call commits its artifacts with its outcome; one that raises leaves nothing. -/
def graphCall (runId : UUID) (c : Choice) : Transaction RunGraphOutcome := do
  match c.graph with
  | .error e => throw (.raised e)
  | .ok outcome =>
    addArtifacts runId c.artifacts
    pure outcome

def exec (pid : Nat) (s : Stmt) (c : Choice) (σ : WorkStore) :
    Option (Except RunError s.Res × WorkStore) :=
  match s with
  | .prepareExecute runId =>
    some (noting (notePrepared pid runId) (transact c σ (prepareExecute runId c.now)))
  | .prepareResume runId =>
    some (noting (notePrepared pid runId) (transact c σ (prepareResume runId)))
  | .graphExecute run => some (transact c σ (graphCall run.id c))
  | .graphResume run _ => some (transact c σ (graphCall run.id c))
  | .persistOutcome runId outcome => some (transact c σ (persistOutcome runId outcome c.now))
  | .markFinalFailure runId errorCode =>
    some (noting (noteMarked pid runId) (transact c σ (markFinalFailure runId errorCode c.now)))
  | .otherHandler _ => some (match c.graph with
    | .error e => .error (.raised e)
    | .ok _ => .ok (), σ)
  | .complete jobId workerId =>
    some (transact c σ (queueCall fun jobs => Jobs.complete jobs jobId workerId c.now))
  | .fail jobId workerId errorCode =>
    some (transact c σ (queueCall fun jobs =>
      Jobs.fail settings jobs jobId workerId errorCode c.now))

/-- What happens next to the attempts: the API's requests and the queue's own steps. -/
inductive Outside where
  | createRun (request : Request) (command : CreateRunCommand)
  | resumeRun (request : Request) (runId : UUID) (command : ResumeRunCommand)
  | enqueue (request : Jobs.EnqueueJobRequest) (id : UUID) (now : Nat)
  | claim (workerId : String) (limit now selectedAt : Nat) (locked : List UUID)
  | heartbeat (jobId : UUID) (workerId : String) (now : Nat)
  | reap (limit now : Nat) (locked : List UUID)

/-- A request that raises changes nothing; a job that others enqueue is no run's. -/
def outside : Outside → WorkStore → Option WorkStore
  | .createRun request command, σ => run (createRun settings request command) σ
  | .resumeRun request runId command, σ => run (resumeRun settings request runId command) σ
  | .enqueue request id now, σ =>
    if request.jobType = EXECUTE_AGENT_RUN ∨ request.jobType = RESUME_AGENT_RUN then none
    else run (enqueue settings request id now) σ
  | .claim workerId limit now selectedAt locked, σ =>
    let (claimed, jobs) := Jobs.claim settings σ.jobs workerId limit now selectedAt locked
    some { σ with jobs := jobs, delivered := claimed.map (⟨workerId, ·⟩) ++ σ.delivered }
  | .heartbeat jobId workerId now, σ =>
    run (queueCall fun jobs => Jobs.heartbeat settings jobs jobId workerId now) σ
  | .reap limit now locked, σ =>
    some { σ with jobs := (Jobs.reapExpired σ.jobs limit now locked).2 }
where
  run {α : Type} (t : Transaction α) (σ : WorkStore) : Option WorkStore :=
    match t σ.toRunStore with
    | .ok (_, τ) => some { σ with toRunStore := τ }
    | .error _ => some σ

/-- Attempts side by side; one starts where its job has been handed out. -/
def machine : Machine Stmt Stmt.Res RunError WorkStore Delivery Choice Outside where
  start delivery pid σ :=
    if delivery ∈ σ.delivered then
      some (invokeHandler delivery,
        { σ with
          delivered := σ.delivered.erase delivery
          marked := Function.update σ.marked pid none
          prepared := Function.update σ.prepared pid none })
    else none
  exec := exec settings
  finish _ _ σ := σ
  kill _ σ := σ
  env := outside settings

end

abbrev RunWorld := World Stmt Stmt.Res RunError WorkStore

abbrev RunAction := Action Delivery Choice Outside

/-- Nothing has been created yet. -/
structure Initial (w : RunWorld) : Prop where
  idle : ∀ pid, w.procs pid = none
  runs : ∀ runId, w.shared.runs runId = none
  events : ∀ runId, w.shared.events runId = []
  jobs : w.shared.jobs = []
  delivered : w.shared.delivered = []
  marked : ∀ pid, w.shared.marked pid = none
  prepared : ∀ pid, w.shared.prepared pid = none

end ProjectAgent.Runs
