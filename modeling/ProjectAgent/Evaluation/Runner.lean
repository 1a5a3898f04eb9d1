/-
`EvaluationRunner.run`: the manifest is written, and then each selected case is
tried after its protocol and leaves one trial file; and `load_saved_run`, which
reads the directory back.

What the client, the backend and the scenario driver answer to the calls of a
case is given, in the order of the calls of a kind; what they are asked is left
out, for they may answer anything.
-/
import ProjectAgent.Basic
import ProjectAgent.Evaluation.Loader
import ProjectAgent.Lib.Decimal

namespace ProjectAgent.Evaluation

open Json (Value)

deriving instance DecidableEq for Key

/-! ## Frozen cases -/

/-- A text of the gold, which JSON may give lone surrogates. -/
inductive Text where
  | str (text : String)
  | loneStr (text : String)
deriving DecidableEq

namespace Text

def payload : Text → Payload
  | str text => .str text
  | loneStr text => .loneStr text

def raw : Text → Raw
  | str text => .str text
  | loneStr text => .loneStr text

/-- `text or default`. -/
def orElse : Text → String → Text
  | str "", default => .str default
  | text, _ => text

end Text

def RunProtocol.value : RunProtocol → String
  | singleRun => "single_run"
  | authorizationDenial => "authorization_denial"
  | setupThenRun => "setup_then_run"
  | waitingConfirmationResume => "waiting_confirmation_resume"
  | sameRequestReplay => "same_request_replay"
  | responseLossReconcile => "response_loss_reconcile"
  | unscorableRuntimeScope => "unscorable_runtime_scope"

structure GoldExecution where
  businessMode : Text
  runProtocol : RunProtocol
  projectCode : String
  userAlias : String
  setupScenario : Option String
  faultScenario : Option String
  /-- `request_overrides["requested_project_code"]`. -/
  requestedProjectCode : Option String

/-- A case of the catalog with its gold. -/
structure FrozenCase where
  caseId : String
  split : String
  priority : String
  projectCode : String
  userAlias : String
  questionType : String
  question : String
  execution : GoldExecution
  scoring : GoldScoring
  /-- `expected["expected_http_statuses"]`. -/
  expectedHttpStatuses : Option (List ℤ)

structure SetupScenario where
  projectCode : String
  /-- `context["summary"]`. -/
  summary : Option String

/-- The catalog, whose cases are kept by their ids. -/
structure FrozenDataset where
  cases : List FrozenCase
  nodup : (cases.map (·.caseId)).Nodup
  setups : String → Option SetupScenario

structure Selection where
  caseIds : Option (List String)
  split : Option String
  priority : Option String
  businessMode : Option Text

/-- `wanted is None or wanted == value`. -/
def chosen {α : Type} [DecidableEq α] (wanted : Option α) (value : α) : Bool :=
  wanted = none || wanted = some value

def Selection.takes (selection : Selection) (frozen : FrozenCase) : Bool :=
  (match selection.caseIds with | none => true | some caseIds => caseIds.contains frozen.caseId) &&
    chosen selection.split frozen.split && chosen selection.priority frozen.priority &&
    chosen selection.businessMode frozen.execution.businessMode

def selectCases (dataset : FrozenDataset) (selection : Selection) :
    Except Error (List FrozenCase) :=
  let known := dataset.cases.map (·.caseId)
  let unknown := (selection.caseIds.getD []).filter fun caseId => !known.contains caseId
  if unknown ≠ [] then
    .error (.valueError ("unknown frozen evaluation case(s): " ++
      String.intercalate ", " (sortedSet unknown)))
  else if !(selection.caseIds.getD []).Nodup then
    .error (.valueError "duplicate selected evaluation case")
  else
    let result := dataset.cases.filter selection.takes
    if result = [] then .error (.valueError "selection matched zero frozen evaluation cases")
      else .ok result

/-! ## Trials -/

/-- A reading of the clock, in UTC. -/
structure ClockTime where
  year : Nat
  month : Nat
  day : Nat
  hour : Nat
  minute : Nat
  second : Nat
  microsecond : Nat

open Decimal (digits) in
def ClockTime.isoformat (now : ClockTime) : String :=
  let fraction := if now.microsecond = 0 then [] else '.' :: digits 6 now.microsecond
  String.ofList (digits 4 now.year ++ '-' :: digits 2 now.month ++ '-' :: digits 2 now.day ++
    'T' :: digits 2 now.hour ++
    ':' :: digits 2 now.minute ++ ':' :: digits 2 now.second ++ fraction ++ "+00:00".toList)

/-- A trial artifact, whose fields may hold anything. -/
structure Trial where
  caseId : Payload
  trialNo : Payload
  classification : Payload
  businessMode : Payload
  projectCode : Payload
  userAlias : Payload
  query : Payload
  querySha256 : Payload
  httpStatus : Payload := .null
  runId : Payload := .null
  threadId : Payload := .null
  statusTransitions : Payload := .sequence []
  eventTypes : Payload := .sequence []
  startedAt : Payload := .null
  finishedAt : Payload := .null
  latencyMs : Payload := .null
  modelAlias : Payload := .null
  promptVersion : Payload := .null
  promptContentHash : Payload := .null
  inputTokens : Payload := .null
  outputTokens : Payload := .null
  totalTokens : Payload := .null
  retrievalRounds : Payload := .sequence []
  finalRetrievalRound : Payload := .null
  governedEvidence : Payload := .sequence []
  answer : Payload := .null
  refusalReason : Payload := .null
  citations : Payload := .sequence []
  issue : Payload := .null
  errorCategory : Payload := .null
  metadata : Payload := .mapping []

def Trial.payload (trial : Trial) : Payload :=
  .dataclass [("case_id", trial.caseId), ("trial_no", trial.trialNo),
    ("classification", trial.classification),
    ("business_mode", trial.businessMode), ("project_code", trial.projectCode),
      ("user_alias", trial.userAlias),
    ("query", trial.query), ("query_sha256", trial.querySha256), ("http_status", trial.httpStatus),
    ("run_id", trial.runId), ("thread_id", trial.threadId),
      ("status_transitions", trial.statusTransitions),
    ("event_types", trial.eventTypes), ("started_at", trial.startedAt),
      ("finished_at", trial.finishedAt),
    ("latency_ms", trial.latencyMs), ("model_alias", trial.modelAlias),
      ("prompt_version", trial.promptVersion),
    ("prompt_content_hash", trial.promptContentHash), ("input_tokens", trial.inputTokens),
    ("output_tokens", trial.outputTokens), ("total_tokens", trial.totalTokens),
    ("retrieval_rounds", trial.retrievalRounds),
      ("final_retrieval_round", trial.finalRetrievalRound),
    ("governed_evidence", trial.governedEvidence), ("answer", trial.answer),
      ("refusal_reason", trial.refusalReason),
    ("citations", trial.citations), ("issue", trial.issue), ("error_category", trial.errorCategory),
    ("metadata", trial.metadata)]

/-- `None`, or the text of an id. -/
def optionalId : Option UUID → Payload
  | none => .null
  | some id => .str id.str

/-- What is known of a trial that has failed. -/
structure Trace where
  httpStatus : Option ℤ := none
  runId : Option UUID := none
  threadId : Option UUID := none
  startedAt : Option ClockTime := none

def optionalStatus : Option ℤ → Payload
  | none => .null
  | some status => .int status

def optionalTime : Option ClockTime → Payload
  | none => .null
  | some time => .str time.isoformat

/-- `{**entries, **more}`. -/
def merged (entries more : List (Key × Payload)) : List (Key × Payload) :=
  more.foldl (fun entries entry =>
    if entries.any (·.1 = entry.1) then entries.map fun old => if old.1 = entry.1 then
      entry else old
    else entries ++ [entry]) entries

section Fallback

variable (lang : Language)

/-- No fabricated answer, status, telemetry, citations or side effects. -/
def fallbackTrial (frozen : FrozenCase) (classification : TrialClassification)
    (errorCategory : String) (trace : Trace) (metadata : List (Key × Payload))
    (finishedAt : ClockTime) : Trial where
  caseId := .str frozen.caseId
  trialNo := .int 1
  classification := .enum (.str classification.value)
  businessMode := (frozen.execution.businessMode.orElse frozen.questionType).payload
  projectCode := .str frozen.projectCode
  userAlias := .str frozen.userAlias
  query := .str frozen.question
  querySha256 := .str (lang.sha256 frozen.question.toUTF8.toList)
  runId := optionalId trace.runId
  threadId := optionalId trace.threadId
  httpStatus := optionalStatus trace.httpStatus
  errorCategory := .str errorCategory
  startedAt := optionalTime trace.startedAt
  finishedAt := .str finishedAt.isoformat
  metadata := .mapping metadata

end Fallback

/-! ## A case -/

inductive Raised where
  /-- `TimeoutError`, `EvaluationTimeout`, `EvaluationHttpError`, `ConnectionError` or `OSError`. -/
  | infra
  /-- Another `Exception`. -/
  | exception
  /-- None of these, as a cancellation. -/
  | baseException
deriving DecidableEq

structure HttpRunResult where
  httpStatus : ℤ
  runId : Option UUID
  threadId : Option UUID

structure IssueDriver where
  requestId : Except Raised String
  /-- The request and the status of the outcome. -/
  execute : Except Raised (String × Payload)

/-- What the calls of a case come to; those made more than once by their number, from 0. -/
structure Services where
  createRun : Nat → Except Raised HttpRunResult
  /-- The status that the poll ends with. -/
  pollRun : Nat → Except Raised Payload
  /-- The HTTP status. -/
  resumeRun : Except Raised ℤ
  countRuns : Nat → Except Raised ℤ
  waitingHash : Except Raised String
  /-- Absent if the backend has no such method. -/
  requestIdForRun : Option (Except Raised (Option String))
  /-- The count of the snapshot. -/
  captureSideEffects : Nat → Except Raised ℤ
  collect : Except Raised Trial
  issueDriver : Option IssueDriver
  startedAt : ClockTime
  /-- When a fallback is made, by its number. -/
  finishedAt : Nat → ClockTime

/-- What the runner keeps of a case while it is tried. -/
structure Attempt where
  lastResponse : Option HttpRunResult
  setupRunId : Option UUID

/-- Projects and users of the fixture by their names. -/
structure FixtureState where
  projectIds : String → Option UUID
  userIds : String → Option UUID

/-- What an exception ends, keeping what was noted before. -/
abbrev Trying := ExceptT Raised (StateM Attempt)

/-- A call's answer, or its exception. -/
def answer {α : Type} (result : Except Raised α) : Trying α := ExceptT.mk (pure result)

/-- `raise ValueError`, and what else fails between the calls. -/
def fail {α : Type} : Trying α := throw .exception

def orFail {α : Type} : Option α → Trying α
  | some a => pure a
  | none => fail

def ensure (condition : Bool) : Trying Unit := if condition then pure () else fail

def noteSetup (runId : UUID) : Trying Unit :=
  modify fun attempt => { attempt with setupRunId := some runId }

/-- `status == text`. -/
def Payload.isText (status : Payload) (text : String) : Bool :=
  match status with
  | .str value => value = text
  | _ => false

def optionalText : Option String → Payload
  | none => .null
  | some text => .str text

/-- `replace(trial, metadata={**trial.metadata, **more})`. -/
def withMetadata (trial : Trial) (more : List (Key × Payload)) : Trying Trial :=
  match trial.metadata with
  | .mapping entries => return { trial with metadata := .mapping (merged entries more) }
  | _ => fail

section Case

variable (lang : Language) (state : FixtureState) (dataset : FrozenDataset) (services : Services)
  (frozen : FrozenCase)

def createRun (n : Nat) : Trying HttpRunResult := do
  let result ← answer (services.createRun n)
  modify fun attempt => { attempt with lastResponse := some result }
  return result

def findRequestId : Trying Unit :=
  match services.requestIdForRun with
  | none => pure ()
  | some persisted => do let _ ← answer persisted

/-- The scope is frozen, or the gold: a fallback that says so. -/
def unscorable (metadata : List (Key × Payload)) : Trying Trial :=
  match frozen.scoring.status with
  | .unscorableRuntimeScope => do
    ensure (frozen.execution.runProtocol = .unscorableRuntimeScope)
    let reason := match frozen.scoring.reason with
      | none | some "" => "frozen runtime mismatch"
      | some reason => reason
    return fallbackTrial lang frozen .unscorableRuntimeScope "FROZEN_RUNTIME_SCOPE" {}
      (merged metadata [(.str "reason", .str reason)]) (services.finishedAt 0)
  | _ =>
    return fallbackTrial lang frozen .unscorableGold "FROZEN_GOLD_UNSCORABLE" {} metadata
      (services.finishedAt 0)

/-- No run may come of the request. -/
def authorizationDenial (metadata : List (Key × Payload)) : Trying Trial := do
  let target := match frozen.execution.requestedProjectCode with
    | none | some "" => frozen.execution.projectCode
    | some code => code
  let _ ← orFail (state.projectIds target)
  let before ← answer (services.countRuns 0)
  let response ← createRun services 0
  let after ← answer (services.countRuns 1)
  let expected ← orFail frozen.expectedHttpStatuses
  ensure (expected.contains response.httpStatus && response.runId.isNone && after = before)
  let _ ← answer (services.captureSideEffects 0)
  let _ ← answer (services.captureSideEffects 1)
  let trial ← answer services.collect
  withMetadata trial (merged metadata [(.str "run_count_before", .int before),
    (.str "run_count_after", .int after)])

/-- The run that the measured one is to follow; its metadata, and how many runs were created and
polled. -/
def setupContext (metadata : List (Key × Payload)) : Trying (List (Key × Payload)) := do
  let setupId ← orFail frozen.execution.setupScenario
  let setup ← orFail (dataset.setups setupId)
  ensure (setup.projectCode = frozen.projectCode)
  if setupId = "SETUP_ALPHA_VIEWER_CONTEXT" then ensure (dataset.cases.any (·.caseId = "Q001"))
  else if setupId = "SETUP_ALPHA_DATE_DEFECT_CONTEXT" then ensure setup.summary.isSome
  else fail
  let prior ← createRun services 0
  let runId ← orFail prior.runId
  ensure prior.threadId.isSome
  noteSetup runId
  let terminal ← answer (services.pollRun 0)
  ensure (["SUCCEEDED", "REFUSED", "FAILED"].any terminal.isText)
  return merged metadata [(.str "setup_scenario", .str setupId),
    (.str "setup_run_id", .str runId.str)]

def waitingConfirmationResume (metadata : List (Key × Payload)) : Trying Trial := do
  ensure (frozen.execution.setupScenario = some "SETUP_ALPHA_DATE_DRAFT_WAITING")
  ensure (dataset.cases.any (·.caseId = "Q016"))
  let setup ← createRun services 0
  let runId ← orFail setup.runId
  noteSetup runId
  let waiting ← answer (services.pollRun 0)
  ensure (waiting.isText "WAITING_CONFIRMATION")
  let _ ← answer services.waitingHash
  findRequestId services
  let before ← answer (services.captureSideEffects 0)
  ensure (before = 0)
  let _ ← answer services.resumeRun
  let terminal ← answer (services.pollRun 1)
  let _ ← answer (services.captureSideEffects 1)
  let trial ← answer services.collect
  withMetadata trial (merged metadata
    [(.str "setup_scenario", optionalText frozen.execution.setupScenario),
    (.str "setup_run_id", .str runId.str), (.str "resume_terminal_status", terminal),
    (.str "payload_hash_source", .str "persisted_waiting_event")])

/-- The replay of a request, or the reconciliation of one whose response is lost. -/
def faultTrial (metadata : List (Key × Payload)) : Trying Trial := do
  let driver ← orFail services.issueDriver
  let requestId ← answer driver.requestId
  let before ← answer (services.captureSideEffects 0)
  ensure (before = 0)
  let response ← createRun services 0
  let _ ← orFail response.runId
  let outcome ← answer driver.execute
  ensure (outcome.1 = requestId)
  let after ← answer (services.captureSideEffects 1)
  ensure (after = before + 1)
  let trial ← answer services.collect
  withMetadata trial (merged metadata
    [(.str "fault_scenario", optionalText frozen.execution.faultScenario),
    (.str "setup_scenario", optionalText frozen.execution.setupScenario),
      (.str "observed_creation_outcome", outcome.2)])

/-- One run, the first of the case or the one after its setup. -/
def measuredRun (created : Nat) (metadata : List (Key × Payload)) : Trying Trial := do
  let issueCreate := frozen.execution.businessMode = .str "issue_create"
  let _ ← (if issueCreate then pure 0 else answer (services.captureSideEffects 0))
  modify fun attempt => if created = 1 then { attempt with lastResponse := none } else attempt
  let response ← createRun services created
  let _ ← orFail response.runId
  let terminal ← answer (services.pollRun created)
  let _ ← (if issueCreate then
    do findRequestId services; answer (services.captureSideEffects 0) else pure 0)
  let after ← answer (services.captureSideEffects 1)
  ensure (!(issueCreate && after ≠ 0))
  let trial ← answer services.collect
  withMetadata trial (merged metadata [(.str "terminal_observation", terminal)])

/-- `_execute_case`. -/
def executeCase : Trying Trial := do
  let protocol := frozen.execution.runProtocol
  let metadata : List (Key × Payload) := [(.str "run_protocol", .str protocol.value)]
  if frozen.scoring.status ≠ .scorable then unscorable lang services frozen metadata
  else
    let _ ← orFail (state.projectIds frozen.execution.projectCode)
    let _ ← orFail (state.userIds frozen.execution.userAlias)
    match protocol with
    | .authorizationDenial => authorizationDenial state services frozen metadata
    | .setupThenRun =>
      measuredRun services frozen 1 (← setupContext dataset services frozen metadata)
    | .waitingConfirmationResume => waitingConfirmationResume dataset services frozen metadata
    | .sameRequestReplay | .responseLossReconcile => faultTrial services frozen metadata
    | .singleRun => measuredRun services frozen 0 metadata
    | .unscorableRuntimeScope => fail

end Case

/-! ## The run -/

/-- The run directory: the manifest, and the files of the cases' directories. -/
structure RunDirectory where
  manifest : Option Raw
  /-- The case, the name and the document of a file. -/
  cases : List (String × String × Raw)

/-- A file is put in its place. -/
def RunDirectory.put (dir : RunDirectory) (caseId name : String) (document : Raw) : RunDirectory :=
  { dir with
    cases := dir.cases.filter (fun file => !(file.1 = caseId && file.2.1 = name)) ++ [(caseId, name, document)] }

inductive Aborted where
  | raised (raised : Raised)
  | selection (error : Error)
  /-- `FileExistsError`. -/
  | fileExists
  | write (error : WriteError)

/-- `_safe_segment`. -/
def safeSegment (text : String) : Bool :=
  text ≠ "" && text ≠ "." && text ≠ ".." && !text.toList.contains '/' && !text.toList.contains '\\'

section Run

variable (lang : Language) (state : FixtureState) (dataset : FrozenDataset)
  (services : String → Services)

/-- The document of a payload that is let into a file. -/
def written (payload : Payload) : Except WriteError Raw := do
  let _ ← prepared lang payload
  toJsonable payload

/-- `write_json(trial_path(case_id, 1), trial)`, on a disk that takes what is written. -/
def writeTrial (dir : RunDirectory) (frozen : FrozenCase) (trial : Trial) :
    Except WriteError RunDirectory :=
  if safeSegment frozen.caseId then
    do return dir.put frozen.caseId "trial-001.json" (← written lang trial.payload)
  else .error (.valueError ("invalid case_id: " ++ frozen.caseId))

/-- `_failure_metadata`. -/
def failureMetadata (frozen : FrozenCase) (attempt : Attempt) : List (Key × Payload) :=
  (.str "run_protocol", .str frozen.execution.runProtocol.value) ::
    match attempt.setupRunId with
    | none => []
    | some runId => [(.str "setup_run_id", .str runId.str)]

def failedTrial (services : Services) (frozen : FrozenCase) (attempt : Attempt)
    (classification : TrialClassification) (errorCategory : String) (n : Nat) : Trial :=
  fallbackTrial lang frozen classification errorCategory
    ⟨attempt.lastResponse.map (·.httpStatus), attempt.lastResponse.bind (·.runId),
      attempt.lastResponse.bind (·.threadId),
      some services.startedAt⟩
    (failureMetadata frozen attempt) (services.finishedAt n)

/-- What a case's attempt comes to. -/
def attempted (services : Services) (frozen : FrozenCase) : Except Raised Trial × Attempt :=
  (executeCase lang state dataset services frozen).run.run ⟨none, none⟩

/-- The trial that is to be written; an exception is made a fallback. -/
def obtained (services : Services) (frozen : FrozenCase) : Except Raised Trial :=
  match attempted lang state dataset services frozen with
  | (.ok trial, _) => .ok trial
  | (.error .infra, attempt) =>
    .ok (failedTrial lang services frozen attempt .infraFailure "INFRA_OR_TIMEOUT" 0)
  | (.error .exception, attempt) =>
    .ok (failedTrial lang services frozen attempt .runnerFailure "SCENARIO_OR_COLLECTOR_FAILURE" 0)
  | (.error .baseException, _) => .error .baseException

/-- `except (SecretArtifactError, TypeError)`. -/
def WriteError.caught : WriteError → Bool
  | .secretArtifactError _ | .typeError _ => true
  | .valueError _ | .osError _ => false

/-- A trial that is refused as unsafe or of a wrong type is replaced by a fallback. -/
def writeOrReplace (services : Services) (frozen : FrozenCase) (attempt : Attempt)
    (dir : RunDirectory) (trial : Trial) :
    Except WriteError (Trial × RunDirectory) :=
  match writeTrial lang dir frozen trial with
  | .ok dir => .ok (trial, dir)
  | .error error =>
    if error.caught then do
      let replacement :=
        failedTrial lang services frozen attempt .runnerFailure
        "UNSAFE_OR_UNSERIALIZABLE_ARTIFACT" 1
      return (replacement, ← writeTrial lang dir frozen replacement)
    else .error error

def runCase (services : Services) (frozen : FrozenCase) (dir : RunDirectory) :
    Except Aborted (Trial × RunDirectory) :=
  match obtained lang state dataset services frozen with
  | .error raised => .error (.raised raised)
  | .ok trial =>
    match writeOrReplace lang services frozen
      (attempted lang state dataset services frozen).2 dir trial with
    | .ok kept => .ok kept
    | .error error => .error (.write error)

/-- The cases one after the other; what is written stays if the run is aborted. -/
def runCases : List FrozenCase → RunDirectory → Except Aborted (List Trial) × RunDirectory
  | [], dir => (.ok [], dir)
  | frozen :: rest, dir =>
    match runCase lang state dataset (services frozen.caseId) frozen dir with
    | .error error => (.error error, dir)
    | .ok (trial, dir) =>
      match runCases rest dir with
      | (.ok trials, dir) => (.ok (trial :: trials), dir)
      | (.error error, dir) => (.error error, dir)

/-- What the manifest says of the run, but for its id and the selected cases. -/
structure Provenance where
  datasetVersion : Text
  dataProvenance : Text
  corpusVersion : Text
  goldSchemaVersion : Text
  metricDefinitionVersion : Text
  gitCommit : Text
  dirtyWorktree : Bool
  startedAt : ClockTime
  pythonVersion : String
  modelAlias : Option Text
  ragflowExpectedVersion : Text
  datasetSha256 : Text
  corpusSha256 : Text
  goldSha256 : Text
  evaluationNamespace : Payload

def runnerVersion : String := "ws8-task4-v0"

/-- The manifest of a run; the versions and hashes that are not yet observed are left at their
defaults. -/
def manifestPayload (evaluationRunId : String) (provenance : Provenance)
    (selected : List FrozenCase) : Payload :=
  .dataclass [("evaluation_run_id", .str evaluationRunId),
    ("dataset_version", provenance.datasetVersion.payload),
    ("data_provenance", provenance.dataProvenance.payload),
      ("corpus_version", provenance.corpusVersion.payload),
    ("gold_schema_version", provenance.goldSchemaVersion.payload),
    ("metric_definition_version", provenance.metricDefinitionVersion.payload),
    ("git_commit", provenance.gitCommit.payload),
      ("dirty_worktree", .bool provenance.dirtyWorktree),
    ("selected_case_ids", .sequence (selected.map fun frozen => .str frozen.caseId)),
    ("started_at", .str provenance.startedAt.isoformat),
      ("python_version", .str provenance.pythonVersion),
    ("alembic_revision", .null),
      ("model_alias", (provenance.modelAlias.map Text.payload).getD .null),
    ("ragflow_expected_version", provenance.ragflowExpectedVersion.payload),
      ("ragflow_observed_version", .null),
    ("prompt_versions", .sequence []), ("prompt_hashes", .sequence []),
      ("runner_version", .str runnerVersion),
    ("dataset_sha256", provenance.datasetSha256.payload),
      ("corpus_sha256", provenance.corpusSha256.payload),
    ("gold_sha256", provenance.goldSha256.payload),
    ("metadata", .mapping [(.str "evaluation_namespace", provenance.evaluationNamespace)])]

/-- `EvaluationRunner.run`. -/
def run (evaluationRunId : String) (provenance : Provenance) (selection : Selection)
    (dir : RunDirectory) :
    Except Aborted (List Trial) × RunDirectory :=
  match selectCases dataset selection with
  | .error error => (.error (.selection error), dir)
  | .ok selected =>
    if dir.manifest.isSome then (.error .fileExists, dir)
    else
      match written lang (manifestPayload evaluationRunId provenance selected) with
      | .error error => (.error (.write error), dir)
      | .ok manifest =>
        runCases lang state dataset services selected { dir with manifest := some manifest }

end Run

/-! ## The saved run -/

section Saved

variable (python : Python)

/-- The id and the cases of a manifest, whose other fields are to be there. -/
def loadManifest (document : Raw) : Except Error (String × List String) :=
  match reread document with
  | .dict raw => do
    let evaluationRunId ← requiredStr python raw "evaluation_run_id"
    let _ ← ["dataset_version", "data_provenance", "corpus_version", "gold_schema_version",
      "metric_definition_version",
      "git_commit", "dirty_worktree"].mapM (required raw)
    let selectedCaseIds ← python.strs (Value.get raw "selected_case_ids" (.list []))
    let _ ← python.strs (Value.get raw "prompt_versions" (.list []))
    let _ ← python.strs (Value.get raw "prompt_hashes" (.list []))
    let _ ← stringMapping (optional raw "metadata")
    return (evaluationRunId, selectedCaseIds)
  | _ => .error (.valueError "expected JSON object")

/-- `trial-*.json`. -/
def isTrialName (name : String) : Bool :=
  "trial-".toList.isPrefixOf name.toList && ".json".toList.isSuffixOf name.toList && 11 ≤
    name.length

def loadCase (dir : RunDirectory) (caseId : String) : Except Error SavedTrial :=
  match dir.cases.filter fun file => file.1 = caseId && isTrialName file.2.1 with
  | [(_, _, document)] => do
    let item ← loadDocument python document
    if item.caseId ≠ caseId || item.trialNo ≠ 1 then
      .error (.valueError ("trial artifact identity mismatch for selected case " ++ caseId))
    else return item
  | _ =>
    .error (.valueError ("selected case " ++ caseId ++ " must have exactly one trial artifact"))

/-- `load_saved_run` of the directory of that name. -/
def loadSavedRun (name : String) (dir : RunDirectory) : Except Error (List SavedTrial) :=
  match dir.manifest with
  | none => .error (.valueError "run-manifest.json")
  | some document => do
    let (evaluationRunId, selectedCaseIds) ← loadManifest python document
    if evaluationRunId ≠ name then
      .error (.valueError "artifact directory name does not match evaluation_run_id")
    else if selectedCaseIds = [] then .error (.valueError "run manifest contains no selected cases")
    else selectedCaseIds.mapM (loadCase python dir)

end Saved

end ProjectAgent.Evaluation
