/-
What the evaluation scores: the trial artifacts that were saved, the gold
records and the documents of the corpus, and the values of JSON that both carry.
-/
import Mathlib.Data.List.Dedup
import Mathlib.Data.List.Sort
import ProjectAgent.Lib.JsonValue

namespace ProjectAgent.Evaluation

inductive Error where
  | valueError (text : String)
  | keyError (key : String)
  | typeError
  | overflowError
deriving DecidableEq

/-! ## Values -/

open Json (Value)

/-- `for item in value`. -/
def iterate : Value → Except Error (List Value)
  | .list items => .ok items
  | .str s => .ok (s.toList.map fun c => .str (String.singleton c))
  | .dict items => .ok (items.map fun item => .str item.1)
  | .null | .bool _ | .int _ | .float _ => .error .typeError

/-- What the strings and the conversions of Python do. -/
structure Python where
  casefold : String → String
  split : String → List String
  strip : String → String
  /-- `str(value)` of what is not a string. -/
  repr : Value → String
  /-- `int(value)`. -/
  int : Value → Except Error ℤ

namespace Python

variable (python : Python)

/-- `str(value)`. -/
def str : Value → String
  | .str s => s
  | value => python.repr value

/-- `str(item)` of all that is in a value. -/
def strs (value : Value) : Except Error (List String) := do
  let items ← iterate value
  .ok (items.map python.str)

end Python

/-- `sorted(set(strings))`. -/
def sortedSet (strings : List String) : List String := strings.dedup.insertionSort (· ≤ ·)

/-- Of two sets of strings. -/
def disjoint (left right : List String) : Bool := left.all fun item => !right.contains item

/-! ## Gold -/

inductive GoldScoringStatus where
  | scorable
  | unscorableGold
  | unscorableRuntimeScope
deriving DecidableEq

def GoldScoringStatus.value : GoldScoringStatus → String
  | scorable => "SCORABLE"
  | unscorableGold => "UNSCORABLE_GOLD"
  | unscorableRuntimeScope => "UNSCORABLE_RUNTIME_SCOPE"

inductive RunProtocol where
  | singleRun
  | authorizationDenial
  | setupThenRun
  | waitingConfirmationResume
  | sameRequestReplay
  | responseLossReconcile
  | unscorableRuntimeScope
deriving DecidableEq

structure GoldScoring where
  status : GoldScoringStatus
  reason : Option String

structure GoldRecord where
  caseId : String
  runProtocol : RunProtocol
  expected : List (String × Value)
  metricApplicability : List String
  scoring : GoldScoring

structure EvaluationCase where
  caseId : String
  split : String
  questionType : String

structure CorpusDocument where
  projectCode : String
  supersedesDocCode : Option String

/-! ## Trials -/

/-- Every selected case must finish in exactly one classification. -/
inductive TrialClassification where
  | scored
  | unscorableGold
  | unscorableRuntimeScope
  | infraFailure
  | runnerFailure
deriving DecidableEq

def TrialClassification.value : TrialClassification → String
  | scored => "SCORED"
  | unscorableGold => "UNSCORABLE_GOLD"
  | unscorableRuntimeScope => "UNSCORABLE_RUNTIME_SCOPE"
  | infraFailure => "INFRA_FAILURE"
  | runnerFailure => "RUNNER_FAILURE"

inductive MetricStatus where
  | pass
  | fail
  | unscorable
  | notApplicable
deriving DecidableEq

structure EvidenceArtifact where
  evidenceId : String
  docCode : Option String
  projectCode : Option String
  rank : Option ℤ
  lifecycleStatus : Option String
  isCurrent : Option Bool
  metadata : List (String × Value)

structure RetrievalRoundArtifact where
  roundNo : ℤ
  candidates : List EvidenceArtifact

structure CitationArtifact where
  evidenceId : String
  docCode : Option String

structure IssueArtifact where
  issueKey : Option String
  requestId : Option String
  status : Option String
  draftPresent : Option Bool
  confirmationState : Option String
  sideEffectCountBefore : Option ℤ
  sideEffectCountAfter : Option ℤ
  reconciliationOutcome : Option String
  metadata : List (String × Value)

structure TrialArtifact where
  caseId : String
  trialNo : ℤ
  classification : TrialClassification
  projectCode : String
  httpStatus : Option ℤ
  runId : Option String
  statusTransitions : List String
  latencyMs : Option Double.Number
  inputTokens : Option ℤ
  outputTokens : Option ℤ
  totalTokens : Option ℤ
  retrievalRounds : List RetrievalRoundArtifact
  finalRetrievalRound : Option ℤ
  governedEvidence : List EvidenceArtifact
  answer : Option String
  refusalReason : Option String
  citations : List CitationArtifact
  issue : Option IssueArtifact
  metadata : List (String × Value)

/-- The gold of a case, the case itself, and a document by its code. -/
abbrev GoldMap := String → Option GoldRecord
abbrev CaseMap := String → Option EvaluationCase
abbrev Documents := String → Option CorpusDocument

end ProjectAgent.Evaluation
