/-
`calculate_metrics`: how each case was scored, the metrics that are applicable
to a trial at all, in their frozen order, and the diagnostics.
-/
import ProjectAgent.Evaluation.Diagnostics

namespace ProjectAgent.Evaluation

open Double (Number)

structure EvaluationMetrics where
  metricDefinitionVersion : String
  coverage : List (String × Nat)
  acceptanceMetrics : List MetricResult
  diagnosticMetrics : Diagnostics
  caseBehaviorResults : List CaseBehaviorResult

/-- The metrics in their frozen order. -/
def calculators (python : Python) (documents : Documents) (behaviors : List CaseBehaviorResult) :
    List (String × (List Pair → Except Error MetricResult)) := [
  ("exact_identifier_hit_at_10", identifierResult python documents finalCandidates),
  ("evidence_recall_at_10", evidenceResult python documents finalCandidates),
  ("current_version_hit_rate", currentVersionResult python),
  ("citation_id_validity", citationResult python documents),
  ("no_answer_refusal_accuracy", refusalResult python),
  ("cross_project_evidence", fun pairs => .ok (crossProjectResult documents pairs)),
  ("unconfirmed_issue_creation", fun pairs => .ok (unconfirmedIssueResult pairs)),
  ("duplicate_issue_side_effects", fun pairs => .ok (duplicateIssueResult pairs)),
  ("critical_regression", criticalResult behaviors)]

/-- A metric, if it is applicable to a trial at all. -/
def calculate (golds : GoldMap) (ordered : List TrialArtifact)
    (calculator : String × (List Pair → Except Error MetricResult)) :
    Except Error (Option MetricResult) := do
  let pairs ← applicable calculator.1 ordered golds
  if pairs.isEmpty then .ok none else (calculator.2 pairs).map some

/-- The behaviour of the case of a trial. -/
def scoreTrial (python : Python) (golds : GoldMap) (documents : Documents)
    (trial : TrialArtifact) : Except Error CaseBehaviorResult :=
  match golds trial.caseId with
  | some gold => scoreCaseBehavior python trial gold documents
  | none => .error (.keyError trial.caseId)

def coverage (trials : List TrialArtifact) : List (String × Nat) :=
  [("selected", trials.length), ("scored", classified trials .scored),
    ("unscorable_gold", classified trials .unscorableGold),
    ("unscorable_runtime_scope", classified trials .unscorableRuntimeScope),
    ("infra_failure", classified trials .infraFailure),
    ("runner_failure", classified trials .runnerFailure)]

/-- `calculate_metrics`. -/
def calculateMetrics (python : Python) (trials : List TrialArtifact) (golds : GoldMap)
    (documents : Documents) (version : String) (casesById : CaseMap)
    (costPerInputToken costPerOutputToken : Option Number) : Except Error EvaluationMetrics := do
  if version ≠ "v1" then
    .error (.valueError s!"unsupported metric_definition_version: {version}")
  let ordered ← orderedTrials trials
  let behaviors ← ordered.mapM (scoreTrial python golds documents)
  let results ← (calculators python documents behaviors).mapM (calculate golds ordered)
  let diagnosticMetrics ← diagnostics python ordered golds documents behaviors casesById
    costPerInputToken costPerOutputToken
  .ok {
    metricDefinitionVersion := version
    coverage := coverage ordered
    acceptanceMetrics := results.filterMap id
    diagnosticMetrics
    caseBehaviorResults := behaviors }

end ProjectAgent.Evaluation
