/-
The report's loader: what `json.loads` reads of a written document, and the trial
artifact that `_trial` makes of it, field by field with its conversions.
-/
import ProjectAgent.Evaluation.Artifacts
import ProjectAgent.Evaluation.SecretScan

namespace ProjectAgent.Evaluation

open Json (Value)

/-! ## Reading back -/

mutual

/-- What is read of the text of a document: tuples are lists, keys are texts, and the entries are in
order. -/
def reread : Raw → Value
  | .null | .other _ => .null
  | .bool value => .bool value
  | .int value => .int value
  | .float value => .float value
  | .str text | .loneStr text => .str text
  | .list items | .tuple items => .list (rereadItems items)
  | .dict entries =>
    match sortEntries (rereadEntries entries) with
    | .ok sorted => .dict sorted
    | .error _ => .dict []

def rereadEntries : List (Key × Raw) → List (Key × Value)
  | [] => []
  | (key, value) :: entries => (key, reread value) :: rereadEntries entries

def rereadItems : List Raw → List Value
  | [] => []
  | item :: items => reread item :: rereadItems items

end

/-! ## Artifacts -/

structure SavedEvidence where
  evidenceId : String
  docCode : Option String
  projectCode : Option String
  rank : Option ℤ
  documentVersionId : Option String
  lifecycleStatus : Option String
  isCurrent : Option Bool
  metadata : List (String × Value)

structure SavedRound where
  roundNo : ℤ
  candidates : List SavedEvidence

structure SavedCitation where
  citationId : String
  evidenceId : String
  claimId : Option String
  docCode : Option String
  metadata : List (String × Value)

structure SavedTrial where
  caseId : String
  trialNo : ℤ
  classification : TrialClassification
  businessMode : String
  projectCode : String
  userAlias : String
  query : String
  querySha256 : String
  httpStatus : Option ℤ
  runId : Option String
  threadId : Option String
  statusTransitions : List String
  eventTypes : List String
  startedAt : Option String
  finishedAt : Option String
  latencyMs : Option Double.Number
  modelAlias : Option String
  promptVersion : Option String
  promptContentHash : Option String
  inputTokens : Option ℤ
  outputTokens : Option ℤ
  totalTokens : Option ℤ
  retrievalRounds : List SavedRound
  finalRetrievalRound : Option ℤ
  governedEvidence : List SavedEvidence
  answer : Option String
  refusalReason : Option String
  citations : List SavedCitation
  issue : Option IssueArtifact
  errorCategory : Option String
  metadata : List (String × Value)

/-! ## Fields -/

abbrev RawFields := List (String × Value)

/-- `raw[key]`. -/
def required (raw : RawFields) (key : String) : Except Error Value :=
  match raw.lookup key with
  | some value => .ok value
  | none => .error (.keyError key)

/-- `raw.get(key)`. -/
def optional (raw : RawFields) (key : String) : Value := Value.get raw key .null

def optionalInt : Value → Except Error (Option ℤ)
  | .null => .ok none
  | .int value => .ok (some value)
  | .float (.finite value) => .ok (some (value.num.tdiv value.den))
  | .float .nan => .error (.valueError "cannot convert float NaN to integer")
  | .float (.infinity _) => .error .overflowError
  | .bool _ | .str _ | .list _ | .dict _ => .error (.valueError "expected integer artifact field")

def optionalFloat : Value → Except Error (Option Double.Number)
  | .null => .ok none
  | .int value =>
    match Double.Number.ofInt value with
    | some number => .ok (some number)
    | none => .error .overflowError
  | .float value => .ok (some value)
  | .bool _ | .str _ | .list _ | .dict _ => .error (.valueError "expected numeric artifact field")

def optionalBool : Value → Option Bool
  | .null => none
  | value => some value.truthy

def stringMapping : Value → Except Error RawFields
  | .null => .ok []
  | .dict fields => .ok fields
  | _ => .error (.valueError "expected artifact object field")

/-- The items of a value that is to be a list. -/
def listField (label : String) : Value → Except Error (List Value)
  | .list items => .ok items
  | _ => .error (.valueError (label ++ " must be a list"))

def TrialClassification.all : List TrialClassification :=
  [.scored, .unscorableGold, .unscorableRuntimeScope, .infraFailure, .runnerFailure]

def TrialClassification.ofValue (text : String) : Except Error TrialClassification :=
  match TrialClassification.all.find? (·.value = text) with
  | some classification => .ok classification
  | none => .error (.valueError text)

section Loader

variable (python : Python)

def optionalStr : Value → Option String
  | .null => none
  | value => some (python.str value)

def requiredStr (raw : RawFields) (key : String) : Except Error String :=
  do return python.str (← required raw key)

def loadEvidence (raw : RawFields) : Except Error SavedEvidence := do
  let evidenceId ← requiredStr python raw "evidence_id"
  let rank ← optionalInt (optional raw "rank")
  let metadata ← stringMapping (optional raw "metadata")
  return {
    evidenceId := evidenceId
    docCode := optionalStr python (optional raw "doc_code")
    projectCode := optionalStr python (optional raw "project_code")
    rank := rank
    documentVersionId := optionalStr python (optional raw "document_version_id")
    lifecycleStatus := optionalStr python (optional raw "lifecycle_status")
    isCurrent := optionalBool (optional raw "is_current")
    metadata := metadata }

/-- `_evidence(_string_mapping(item))`. -/
def loadEvidenceItem (item : Value) : Except Error SavedEvidence :=
  do loadEvidence python (← stringMapping item)

def loadRound (item : Value) : Except Error SavedRound := do
  let raw ← stringMapping item
  let candidates ← listField "retrieval candidates" (Value.get raw "candidates" (.list []))
  let roundNo ← python.int (← required raw "round_no")
  return ⟨roundNo, ← candidates.mapM (loadEvidenceItem python)⟩

def loadCitation (item : Value) : Except Error SavedCitation := do
  let raw ← stringMapping item
  let citationId ← requiredStr python raw "citation_id"
  let evidenceId ← requiredStr python raw "evidence_id"
  let metadata ← stringMapping (optional raw "metadata")
  return ⟨citationId, evidenceId, optionalStr python (optional raw "claim_id"),
    optionalStr python (optional raw "doc_code"), metadata⟩

def loadIssue : Value → Except Error (Option IssueArtifact)
  | .null => .ok none
  | value => do
    let item ← stringMapping value
    let before ← optionalInt (optional item "side_effect_count_before")
    let after ← optionalInt (optional item "side_effect_count_after")
    let metadata ← stringMapping (optional item "metadata")
    return some {
      issueKey := optionalStr python (optional item "issue_key")
      requestId := optionalStr python (optional item "request_id")
      status := optionalStr python (optional item "status")
      draftPresent := optionalBool (optional item "draft_present")
      confirmationState := optionalStr python (optional item "confirmation_state")
      sideEffectCountBefore := before
      sideEffectCountAfter := after
      reconciliationOutcome := optionalStr python (optional item "reconciliation_outcome")
      metadata := metadata }

/-- `_trial`. -/
def loadTrial (raw : RawFields) : Except Error SavedTrial := do
  let rounds ← listField "retrieval_rounds" (Value.get raw "retrieval_rounds" (.list []))
  let citations ← listField "citations" (Value.get raw "citations" (.list []))
  let governed ← listField "governed_evidence" (Value.get raw "governed_evidence" (.list []))
  let caseId ← requiredStr python raw "case_id"
  let trialNo ← python.int (← required raw "trial_no")
  let classification ← TrialClassification.ofValue (← requiredStr python raw "classification")
  let businessMode ← requiredStr python raw "business_mode"
  let projectCode ← requiredStr python raw "project_code"
  let userAlias ← requiredStr python raw "user_alias"
  let query ← requiredStr python raw "query"
  let querySha256 ← requiredStr python raw "query_sha256"
  let httpStatus ← optionalInt (optional raw "http_status")
  let statusTransitions ← python.strs (Value.get raw "status_transitions" (.list []))
  let eventTypes ← python.strs (Value.get raw "event_types" (.list []))
  let latencyMs ← optionalFloat (optional raw "latency_ms")
  let inputTokens ← optionalInt (optional raw "input_tokens")
  let outputTokens ← optionalInt (optional raw "output_tokens")
  let totalTokens ← optionalInt (optional raw "total_tokens")
  let retrievalRounds ← rounds.mapM (loadRound python)
  let finalRetrievalRound ← optionalInt (optional raw "final_retrieval_round")
  let governedEvidence ← governed.mapM (loadEvidenceItem python)
  let loadedCitations ← citations.mapM (loadCitation python)
  let issue ← loadIssue python (optional raw "issue")
  let metadata ← stringMapping (optional raw "metadata")
  return {
    caseId, trialNo, classification, businessMode, projectCode, userAlias, query,
      querySha256, httpStatus
    runId := optionalStr python (optional raw "run_id")
    threadId := optionalStr python (optional raw "thread_id")
    statusTransitions, eventTypes
    startedAt := optionalStr python (optional raw "started_at")
    finishedAt := optionalStr python (optional raw "finished_at")
    latencyMs
    modelAlias := optionalStr python (optional raw "model_alias")
    promptVersion := optionalStr python (optional raw "prompt_version")
    promptContentHash := optionalStr python (optional raw "prompt_content_hash")
    inputTokens, outputTokens, totalTokens, retrievalRounds, finalRetrievalRound, governedEvidence
    answer := optionalStr python (optional raw "answer")
    refusalReason := optionalStr python (optional raw "refusal_reason")
    citations := loadedCitations
    issue
    errorCategory := optionalStr python (optional raw "error_category")
    metadata }

/-- `_trial(_read_object(path))`. -/
def loadDocument (document : Raw) : Except Error SavedTrial :=
  match reread document with
  | .dict fields => loadTrial python fields
  | _ => .error (.valueError "expected JSON object")

end Loader

end ProjectAgent.Evaluation
