/-
`build_live_ablation_result`: the metrics of a baseline and of a variant over
the cases that both ran and neither failed. Of a case that could only be scored
on one side the two denominators may not tell: the delta is then of values over
different cases.
-/
import ProjectAgent.Evaluation.Reported

namespace ProjectAgent.Evaluation

open Json (Value)
open Double (Number)

inductive AblationVariant where
  | noExactRegistry
  | singleRoundOnly
  | preGovernanceShadow
  | preGuardShadow
deriving DecidableEq

def AblationVariant.value : AblationVariant → String
  | noExactRegistry => "no_exact_registry"
  | singleRoundOnly => "single_round_only"
  | preGovernanceShadow => "pre_governance_shadow"
  | preGuardShadow => "pre_guard_shadow"

/-- `validate_ablation_name`. -/
def validateAblationName (value : String) : Except Error AblationVariant :=
  match [AblationVariant.noExactRegistry, .singleRoundOnly, .preGovernanceShadow,
    .preGuardShadow].find? (·.value = value) with
  | some variant => .ok variant
  | none => .error (.valueError s!"unsupported ablation: {value}")

structure EvaluationDataset where
  metricDefinitionVersion : String
  cases : List EvaluationCase
  goldByCase : GoldMap
  documentsByCode : Documents

structure MetricDelta where
  metricId : String
  baselineMeasured : Option ℚ
  variantMeasured : Option ℚ
  baselineDenominator : Nat
  variantDenominator : Nat
  delta : Option ℚ

structure OperationalSummary where
  refusalRate : Option ℚ
  latencyMsMean : Option Number
  tokensMean : Option Number
  retrievalRoundsMean : Option Number

structure LiveAblation where
  variant : String
  baselineRunId : String
  variantRunId : String
  matchedCaseIds : List String
  matchedPopulation : Nat
  unavailableCaseIds : List String
  variantOnlyCaseIds : List String
  metricDeltas : List MetricDelta
  baseline : OperationalSummary
  changed : OperationalSummary
  delta : OperationalSummary

/-- `_operational_summary`. -/
def operationalSummary (python : Python) (trials : List TrialArtifact) :
    Except Error OperationalSummary := do
  let refusals := trials.filter fun trial => trial.refusalReason.isSome || !answered python trial
  let latencyMsMean ← fmean (latencies trials)
  let tokensMean ← intMean (totalTokens trials)
  let retrievalRoundsMean ← intMean
    (trials.map fun trial => (trial.retrievalRounds.length : ℤ))
  .ok {
    refusalRate := rate refusals.length trials.length
    latencyMsMean, tokensMean, retrievalRoundsMean }

/-- What both sides have. -/
def difference {α : Type} (subtract : α → α → α) (changed baseline : Option α) : Option α :=
  match changed, baseline with
  | some right, some left => some (subtract right left)
  | _, _ => none

def subtractRates (right left : ℚ) : ℚ := Double.double (right - left)

def subtract (right left : Number) : Number := right.add (left.mul (.finite (-1)))

def operationalDelta (changed baseline : OperationalSummary) : OperationalSummary where
  refusalRate := difference subtractRates changed.refusalRate baseline.refusalRate
  latencyMsMean := difference subtract changed.latencyMsMean baseline.latencyMsMean
  tokensMean := difference subtract changed.tokensMean baseline.tokensMean
  retrievalRoundsMean :=
    difference subtract changed.retrievalRoundsMean baseline.retrievalRoundsMean

/-- `{item.case_id: item for item in trials}`. -/
def byCase (trials : List TrialArtifact) : List (String × TrialArtifact) :=
  Assigned.collect (trials.map fun trial => (trial.caseId, trial))

def failed (trial : TrialArtifact) : Bool :=
  trial.classification = .infraFailure || trial.classification = .runnerFailure

/-- The trials of the cases that both have, and of which neither failed. -/
def matchedTrials (baseline variant : List TrialArtifact) : List (TrialArtifact × TrialArtifact) :=
  (sortedSet ((byCase baseline).map Prod.fst)).filterMap fun caseId =>
    match (byCase baseline).lookup caseId, (byCase variant).lookup caseId with
    | some base, some changed =>
      if failed base || failed changed then none else some (base, changed)
    | _, _ => none

/-- A metric of `base_by_metric` and `changed_by_metric`. -/
def resultOf (metrics : EvaluationMetrics) (metricId : String) : Option MetricResult :=
  metrics.acceptanceMetrics.find? (·.metricId = metricId)

def ablationMetrics : List String := ["exact_identifier_hit_at_10", "evidence_recall_at_10"]

def metricDelta (base changed : EvaluationMetrics) (metricId : String) : Option MetricDelta :=
  match resultOf base metricId, resultOf changed metricId with
  | some left, some right => some {
      metricId
      baselineMeasured := left.measured
      variantMeasured := right.measured
      baselineDenominator := left.denominator
      variantDenominator := right.denominator
      delta := if left.denominator = right.denominator then
          difference subtractRates right.measured left.measured
        else none }
  | _, _ => none

/-- `build_live_ablation_result`. -/
def buildLiveAblationResult (python : Python) (variant : String)
    (baselineTrials variantTrials : List TrialArtifact)
    (baselineRunId variantRunId : String) (dataset : EvaluationDataset) :
    Except Error LiveAblation := do
  let selected ← validateAblationName variant
  if selected ≠ .noExactRegistry ∧ selected ≠ .singleRoundOnly then
    .error (.valueError s!"shadow ablation has no live metric delta: {selected.value}")
  let matched := matchedTrials baselineTrials variantTrials
  let base := matched.map Prod.fst
  let changed := matched.map Prod.snd
  let ids := base.map (·.caseId)
  let cases := Assigned.collect (dataset.cases.map fun case => (case.caseId, case))
  let casesById := fun caseId => cases.lookup caseId
  let baseMetrics ← calculateMetrics python base dataset.goldByCase dataset.documentsByCode
    dataset.metricDefinitionVersion casesById none none
  let variantMetrics ← calculateMetrics python changed dataset.goldByCase dataset.documentsByCode
    dataset.metricDefinitionVersion casesById none none
  let baseOps ← operationalSummary python base
  let changedOps ← operationalSummary python changed
  .ok {
    variant := selected.value
    baselineRunId, variantRunId
    matchedCaseIds := ids
    matchedPopulation := matched.length
    unavailableCaseIds := (sortedSet (baselineTrials.map (·.caseId))).filter fun caseId =>
      !ids.contains caseId
    variantOnlyCaseIds := (sortedSet (variantTrials.map (·.caseId))).filter fun caseId =>
      !(baselineTrials.map (·.caseId)).contains caseId
    metricDeltas := ablationMetrics.filterMap (metricDelta baseMetrics variantMetrics)
    baseline := baseOps
    changed := changedOps
    delta := operationalDelta changedOps baseOps }

end ProjectAgent.Evaluation
