/-
The diagnostics that `calculate_metrics` adds to the metrics. They pass no
judgement, but a number that is too large for a float makes the whole raise.
-/
import ProjectAgent.Evaluation.Results

namespace ProjectAgent.Evaluation

open Json (Value)
open Double (Number)

/-! ## Numbers -/

/-- `float(n)`. -/
def toFloat (n : ℤ) : Except Error Number :=
  match Number.ofInt n with
  | some number => .ok number
  | none => .error .overflowError

def sumError : Double.SumError → Error
  | .tooLarge => .overflowError
  | .bothInfinite => .valueError "-inf + inf in fsum"

/-- `statistics.fmean(values) if values else None`. -/
def fmean (values : List Number) : Except Error (Option Number) :=
  if values.isEmpty then .ok none
  else match Number.fmean values with
    | .ok mean => .ok (some mean)
    | .error e => .error (sumError e)

/-- `fmean` of integers, each as a float. -/
def intMean (values : List ℤ) : Except Error (Option Number) := do
  let values ← values.mapM toFloat
  fmean values

/-- A part of a whole, if there is any. -/
def rate (part whole : Nat) : Option ℚ :=
  if whole = 0 then none else some (Double.double (part / whole))

/-- How often each of the numbers is there, in their order. -/
def distribution (values : List ℤ) : List (String × Nat) :=
  (values.dedup.insertionSort (· ≤ ·)).map fun value => (toString value, values.count value)

/-! ## Results -/

structure PassRate where
  passed : Nat
  total : Nat
  rate : Option ℚ

structure RetrievalDiagnostics where
  firstRoundIdentifierHitAt10 : Option ℚ
  finalRoundIdentifierHitAt10 : Option ℚ
  firstRoundEvidenceRecallAt10 : Option ℚ
  finalRoundEvidenceRecallAt10 : Option ℚ

structure UsageDiagnostics where
  count : Nat
  denominator : Nat
  rate : Option ℚ

structure GuardDiagnostics where
  denominator : Nat
  pass : Nat
  revision : Nat
  refusal : Nat
  passRate : Option ℚ
  revisionRate : Option ℚ
  refusalRate : Option ℚ
  claimCoverageMean : Option Number

structure LatencyDiagnostics where
  mean : Option Number
  median : Option Number
  p95 : Option Number

structure TokenDiagnostics where
  inputTotal : ℤ
  outputTotal : ℤ
  total : ℤ
  mean : Option Number
  p95 : Option Number

structure IssueDiagnostics where
  casesWithCandidateData : Nat
  meanCandidateCount : Option Number
  rankDistribution : List (String × Nat)
  meanBestRank : Option Number

structure Diagnostics where
  coverage : List (String × Nat)
  retrieval : RetrievalDiagnostics
  secondRoundUsage : UsageDiagnostics
  citationGuard : GuardDiagnostics
  latencyMs : LatencyDiagnostics
  tokens : TokenDiagnostics
  retrievalRoundDistribution : List (String × Nat)
  issueCandidates : IssueDiagnostics
  passRateByQuestionType : List (String × PassRate)
  passRateBySplit : List (String × PassRate)
  passRateByProject : List (String × PassRate)
  estimatedCost : Option Number

/-! ## What the trials say -/

/-- `citation_guard` of the metadata. -/
def guardOf (trial : TrialArtifact) : Option (List (String × Value)) :=
  match Value.get trial.metadata "citation_guard" .null with
  | .dict guard => some guard
  | _ => none

/-- The coverage of a guard, if it is a number. -/
def guardCoverage (guard : List (String × Value)) : Except Error (Option Number) :=
  match Value.get guard "coverage" .null with
  | .int coverage => (toFloat coverage).map some
  | .float coverage => .ok (some coverage)
  | _ => .ok none

inductive GuardOutcome where
  | pass
  | refusal
  | revision
deriving DecidableEq

/-- The guard was valid, and nothing says that its coverage was not. -/
def guardPassed (guard : List (String × Value)) : Bool :=
  match Value.get guard "valid" .null, Value.get guard "coverage_ok" .null with
  | .bool true, .bool false => false
  | .bool true, _ => true
  | _, _ => false

def guardOutcome (trial : TrialArtifact) (guard : List (String × Value)) : GuardOutcome :=
  if guardPassed guard then .pass
  else if trial.refusalReason.getD "" ≠ "" || finalStatus trial = some "REFUSED" then .refusal
  else .revision

def latencies (trials : List TrialArtifact) : List Number := trials.filterMap (·.latencyMs)

def totalTokens (trials : List TrialArtifact) : List ℤ := trials.filterMap (·.totalTokens)

def inputTotal (trials : List TrialArtifact) : ℤ := (trials.map (·.inputTokens.getD 0)).sum

def outputTotal (trials : List TrialArtifact) : ℤ := (trials.map (·.outputTokens.getD 0)).sum

/-- The candidates each issue was chosen from. -/
def candidateCounts (trials : List TrialArtifact) : List ℤ :=
  trials.filterMap fun trial => trial.issue.bind fun issue =>
    match Value.get issue.metadata "candidate_issue_keys" (.list []) with
    | .list keys => some keys.length
    | _ => none

/-- The ranks of the candidates of an issue. -/
def candidateRanks (trial : TrialArtifact) : List ℤ :=
  match trial.issue.map fun issue => Value.get issue.metadata "candidate_ranks" (.list []) with
  | some (.list ranks) => ranks.filterMap fun rank => match rank with
    | .int value => if 1 ≤ value then some value else none
    | _ => none
  | _ => []

def bestRanks (trials : List TrialArtifact) : List ℤ :=
  trials.filterMap fun trial => (candidateRanks trial).min?

/-- `_rate_map`: the cases that passed, of those with one key. -/
def rateMap (behaviors : List CaseBehaviorResult) (keyByCase : String → Option String) :
    List (String × PassRate) :=
  let decided := behaviors.filter fun result => result.status = .pass || result.status = .fail
  let keyed := decided.filterMap fun result =>
    (keyByCase result.caseId).map fun key => (key, result.status)
  (sortedSet (keyed.map Prod.fst)).map fun key =>
    let passed := keyed.count (key, .pass)
    let total := (keyed.filter (·.1 = key)).length
    (key, ⟨passed, total, rate passed total⟩)

/-! ## All of them -/

section Diagnostics

variable (python : Python) (trials : List TrialArtifact) (golds : GoldMap) (documents : Documents)

def classified (classification : TrialClassification) : Nat :=
  (trials.filter (·.classification = classification)).length

/-- By then every trial has a gold. -/
def coverageDiagnostics : List (String × Nat) :=
  let scorableGold := fun trial : TrialArtifact =>
    (golds trial.caseId).any (·.scoring.status = .scorable)
  let unscorable := fun trial : TrialArtifact => trial.classification = .unscorableGold ||
    trial.classification = .unscorableRuntimeScope || !scorableGold trial
  [("selected", trials.length), ("scored", classified trials .scored),
    ("scorable", (trials.filter fun trial =>
      trial.classification = .scored && scorableGold trial).length),
    ("unscorable", (trials.filter unscorable).length),
    ("infra_failure", classified trials .infraFailure),
    ("runner_failure", classified trials .runnerFailure)]

def retrievalDiagnostics : Except Error RetrievalDiagnostics := do
  let identifierPairs ← applicable "exact_identifier_hit_at_10" trials golds
  let evidencePairs ← applicable "evidence_recall_at_10" trials golds
  let firstIdentifier ← identifierResult python documents firstCandidates identifierPairs
  let finalIdentifier ← identifierResult python documents finalCandidates identifierPairs
  let firstEvidence ← evidenceResult python documents firstCandidates evidencePairs
  let finalEvidence ← evidenceResult python documents finalCandidates evidencePairs
  .ok {
    firstRoundIdentifierHitAt10 := firstIdentifier.measured
    finalRoundIdentifierHitAt10 := finalIdentifier.measured
    firstRoundEvidenceRecallAt10 := firstEvidence.measured
    finalRoundEvidenceRecallAt10 := finalEvidence.measured }

def guards : List (TrialArtifact × List (String × Value)) :=
  trials.filterMap fun trial => (guardOf trial).map fun guard => (trial, guard)

def guardDiagnostics : Except Error GuardDiagnostics := do
  let coverages ← (guards trials).mapM fun guard => guardCoverage guard.2
  let outcomes := (guards trials).map fun guard => guardOutcome guard.1 guard.2
  let claimCoverageMean ← fmean (coverages.filterMap id)
  .ok {
    denominator := outcomes.length
    pass := outcomes.count .pass
    revision := outcomes.count .revision
    refusal := outcomes.count .refusal
    passRate := rate (outcomes.count .pass) outcomes.length
    revisionRate := rate (outcomes.count .revision) outcomes.length
    refusalRate := rate (outcomes.count .refusal) outcomes.length
    claimCoverageMean }

def latencyDiagnostics : Except Error LatencyDiagnostics := do
  let values := latencies trials
  let mean ← fmean values
  .ok {
    mean
    median := if values.isEmpty then none else some (Number.median values)
    p95 := Number.percentile values (Double.double (19 / 20)) }

def tokenDiagnostics : Except Error TokenDiagnostics := do
  let mean ← intMean (totalTokens trials)
  let values ← (totalTokens trials).mapM toFloat
  .ok {
    inputTotal := inputTotal trials
    outputTotal := outputTotal trials
    total := (totalTokens trials).sum
    mean
    p95 := Number.percentile values (Double.double (19 / 20)) }

def issueDiagnostics : Except Error IssueDiagnostics := do
  let meanCandidateCount ← intMean (candidateCounts trials)
  let meanBestRank ← intMean (bestRanks trials)
  .ok {
    casesWithCandidateData := (candidateCounts trials).length
    meanCandidateCount
    rankDistribution := distribution (trials.flatMap candidateRanks)
    meanBestRank }

/-- What the tokens cost, if a price is given. -/
def estimatedCost (costPerInputToken costPerOutputToken : Option Number) :
    Except Error (Option Number) :=
  if costPerInputToken.isNone && costPerOutputToken.isNone then .ok none
  else do
    let input ← toFloat (inputTotal trials)
    let output ← toFloat (outputTotal trials)
    .ok (some ((input.mul (costPerInputToken.getD (.finite 0))).add
      (output.mul (costPerOutputToken.getD (.finite 0)))))

/-- `_diagnostics`. -/
def diagnostics (behaviors : List CaseBehaviorResult) (casesById : CaseMap)
    (costPerInputToken costPerOutputToken : Option Number) : Except Error Diagnostics := do
  let retrieval ← retrievalDiagnostics python trials golds documents
  let citationGuard ← guardDiagnostics trials
  let latencyMs ← latencyDiagnostics trials
  let tokens ← tokenDiagnostics trials
  let issueCandidates ← issueDiagnostics trials
  let cost ← estimatedCost trials costPerInputToken costPerOutputToken
  let again := (trials.filter (2 ≤ ·.retrievalRounds.length)).length
  let projectKeys := Assigned.collect (trials.map fun trial => (trial.caseId, trial.projectCode))
  .ok {
    coverage := coverageDiagnostics trials golds
    retrieval
    secondRoundUsage := ⟨again, trials.length, rate again trials.length⟩
    citationGuard, latencyMs, tokens
    retrievalRoundDistribution := distribution
      (trials.map fun trial => (trial.retrievalRounds.length : ℤ))
    issueCandidates
    passRateByQuestionType := rateMap behaviors fun caseId =>
      (casesById caseId).map (·.questionType)
    passRateBySplit := rateMap behaviors fun caseId => (casesById caseId).map (·.split)
    passRateByProject := rateMap behaviors fun caseId => projectKeys.lookup caseId
    estimatedCost := cost }

end Diagnostics

end ProjectAgent.Evaluation
