/-
The acceptance metrics: each is computed over the trials whose gold lists it,
and of these over the ones that can be scored. Rates are doubles.
-/
import Mathlib.Algebra.BigOperators.Group.List.Basic
import Mathlib.Algebra.Order.Field.Rat
import ProjectAgent.Evaluation.Scoring
import ProjectAgent.Lib.Means

namespace ProjectAgent.Evaluation

open Json (Value)

structure MetricResult where
  metricId : String
  target : String
  measured : Option ℚ
  numerator : Option ℚ
  denominator : Nat
  status : MetricStatus
  caseIds : List String
  notes : List String := []

abbrev Pair := TrialArtifact × GoldRecord

/-! ## Trials -/

/-- The order of `_ordered_trials`. -/
def trialLe (left right : TrialArtifact) : Prop :=
  left.caseId < right.caseId ∨ left.caseId = right.caseId ∧ left.trialNo ≤ right.trialNo

instance : DecidableRel trialLe := fun left right =>
  inferInstanceAs (Decidable
    (left.caseId < right.caseId ∨ left.caseId = right.caseId ∧ left.trialNo ≤ right.trialNo))

/-- No case has two trials. -/
def checkDistinct (seen : List String) : List TrialArtifact → Except Error Unit
  | [] => .ok ()
  | trial :: trials =>
    if trial.caseId ∈ seen then
      .error (.valueError s!"multiple trial artifacts for case {trial.caseId}")
    else checkDistinct (trial.caseId :: seen) trials

/-- `_ordered_trials`. -/
def orderedTrials (trials : List TrialArtifact) : Except Error (List TrialArtifact) := do
  let ordered := trials.insertionSort trialLe
  checkDistinct [] ordered
  .ok ordered

/-- `_final_candidates`. -/
def finalCandidates (trial : TrialArtifact) : List EvidenceArtifact :=
  let target := trial.finalRetrievalRound <|> (trial.retrievalRounds.map (·.roundNo)).max?
  match trial.retrievalRounds.find? fun round => some round.roundNo = target with
  | some round => round.candidates
  | none => []

/-- `_first_candidates`: of the first of the rounds with the least number. -/
def firstCandidates (trial : TrialArtifact) : List EvidenceArtifact :=
  let first := (trial.retrievalRounds.map (·.roundNo)).min?
  match trial.retrievalRounds.find? fun round => some round.roundNo = first with
  | some round => round.candidates
  | none => []

/-- `_top10_doc_codes`. -/
def top10DocCodes (candidates : List EvidenceArtifact) (trial : TrialArtifact)
    (documents : Documents) : List String :=
  candidates.filterMap fun item =>
    if item.rank.any (fun rank => 1 ≤ rank && rank ≤ 10) &&
        !otherProject item.projectCode trial && !otherDocument documents item.docCode trial then
      item.docCode
    else none

/-- `_applicable`. -/
def applicable (metricId : String) (trials : List TrialArtifact) (golds : GoldMap) :
    Except Error (List Pair) := do
  let pairs ← trials.mapM fun trial => match golds trial.caseId with
    | some gold => .ok (trial, gold)
    | none => .error (.valueError s!"missing Gold for trial {trial.caseId}")
  .ok (pairs.filter fun pair => pair.2.metricApplicability.contains metricId)

def scorable (pair : Pair) : Bool :=
  pair.2.scoring.status = .scorable && pair.1.classification = .scored

/-- `_scorable_pairs`. -/
def scorablePairs (pairs : List Pair) : List Pair := pairs.filter scorable

/-- `_notes_for_unscorable`. -/
def notesForUnscorable (pairs : List Pair) : List String :=
  pairs.filterMap fun pair =>
    if pair.2.scoring.status ≠ .scorable then
      some s!"{pair.2.caseId}: {pair.2.scoring.status.value}"
    else if pair.1.classification ≠ .scored then
      some s!"{pair.1.caseId}: {pair.1.classification.value}"
    else none

/-! ## Statuses -/

/-- `_base_status`. -/
def baseStatus (pairs : List Pair) (denominator : Nat) : Option MetricStatus :=
  if pairs.isEmpty then some .notApplicable
  else if denominator = 0 then some .unscorable
  else none

/-- `_rate_status`. -/
def rateStatus (measured : Option ℚ) (passed : ℚ → Bool) : MetricStatus :=
  match measured with
  | none => .unscorable
  | some rate => if passed rate then .pass else .fail

/-- `_count_status`. -/
def countStatus : Option ℚ → MetricStatus
  | none => .unscorable
  | some count => if count = 0 then .pass else .fail

def target : String → String
  | "exact_identifier_hit_at_10" => ">= 0.95"
  | "evidence_recall_at_10" => ">= 0.90"
  | "current_version_hit_rate" => ">= 0.95"
  | "citation_id_validity" => "== 1.00"
  | "no_answer_refusal_accuracy" => ">= 0.90"
  | "cross_project_evidence" => "== 0"
  | "unconfirmed_issue_creation" => "== 0"
  | "duplicate_issue_side_effects" => "== 0"
  | "critical_regression" => "== 1.00"
  | _ => ""

def sortedIds (caseIds : List String) : List String := caseIds.insertionSort (· ≤ ·)

/-- What a case counts for in a rate. -/
structure Counted where
  caseId : String
  hits : ℚ
  total : Nat

/-- The result of a rate over the cases that count. -/
def rateResult (metricId : String) (add : List ℚ → ℚ) (passed : ℚ → Bool) (pairs : List Pair)
    (counted : List Counted) : MetricResult :=
  let numerator := add (counted.map (·.hits))
  let denominator := (counted.map (·.total)).sum
  let measured := if denominator = 0 then none else some (Double.double (numerator / denominator))
  { metricId, target := target metricId, measured
    numerator := if denominator = 0 then none else some numerator
    denominator
    status := (baseStatus pairs denominator).getD (rateStatus measured passed)
    caseIds := sortedIds (counted.map (·.caseId))
    notes := notesForUnscorable pairs }

/-- What each case that can be scored counts for. -/
def countedOf (count : Pair → Except Error (Option Counted)) (pairs : List Pair) :
    Except Error (List Counted) := do
  let counted ← (scorablePairs pairs).mapM count
  .ok (counted.filterMap id)

/-- A rate over what the cases count for. -/
def rateOf (metricId : String) (add : List ℚ → ℚ) (passed : ℚ → Bool)
    (count : Pair → Except Error (Option Counted)) (pairs : List Pair) :
    Except Error MetricResult := do
  let counted ← countedOf count pairs
  .ok (rateResult metricId add passed pairs counted)

section Rates

variable (python : Python) (documents : Documents)
  (candidateGetter : TrialArtifact → List EvidenceArtifact)

/-- The targets of a case, each with its acceptable documents. -/
def targetGroups : List Value → Except Error (List (List String))
  | [] => .ok []
  | .dict target :: targets => do
    let acceptable ← python.strs (Value.get target "acceptable_doc_codes" (.list []))
    let groups ← targetGroups targets
    .ok (acceptable :: groups)
  | _ :: targets => targetGroups targets

def hitsOf (docs : List String) (groups : List (List String)) : Nat :=
  (groups.filter fun group => !disjoint docs group).length

/-- A case of `_identifier_result`. -/
def identifierCase (pair : Pair) : Except Error (Option Counted) :=
  let targets := Value.get pair.2.expected "identifier_targets" (.list [])
  if !targets.truthy then .ok none
  else do
    let items ← iterate targets
    let groups ← targetGroups python items
    let docs := top10DocCodes (candidateGetter pair.1) pair.1 documents
    .ok (some ⟨pair.1.caseId, hitsOf docs groups, groups.length⟩)

def identifierResult : List Pair → Except Error MetricResult :=
  rateOf "exact_identifier_hit_at_10" List.sum (Double.double (19 / 20) ≤ ·)
    (identifierCase python documents candidateGetter)

/-- The groups of a case that ask for something. -/
def evidenceGroups (gold : GoldRecord) : Except Error (List (List String)) :=
  let groups := Value.get gold.expected "required_evidence_groups" (.list [])
  if !groups.truthy then .ok []
  else do
    let items ← iterate groups
    let groups ← items.mapM python.strs
    .ok (groups.filter fun group => !group.isEmpty)

/-- A case of `_evidence_result`: it counts once, for the part of its groups that was found. -/
def evidenceCase (pair : Pair) : Except Error (Option Counted) := do
  let groups ← evidenceGroups python pair.2
  let docs := top10DocCodes (candidateGetter pair.1) pair.1 documents
  .ok (if groups.isEmpty then none
    else some ⟨pair.1.caseId, Double.double (hitsOf docs groups / groups.length), 1⟩)

def evidenceResult : List Pair → Except Error MetricResult :=
  rateOf "evidence_recall_at_10" Double.sum (Double.double (9 / 10) ≤ ·)
    (evidenceCase python documents candidateGetter)

/-- A case of `_current_version_result`. -/
def currentVersionCase (pair : Pair) : Except Error (Option Counted) := do
  let current ← python.strs (Value.get pair.2.expected "current_doc_codes" (.list []))
  if current.isEmpty then .ok none
  else do
    let forbidden ← python.strs (Value.get pair.2.expected "forbidden_doc_codes" (.list []))
    let present := pair.1.governedEvidence.any fun item =>
      item.docCode.any current.contains && isPublished item && item.isCurrent = some true
    let bad := pair.1.governedEvidence.any fun item => item.docCode.any forbidden.contains
    .ok (some ⟨pair.1.caseId, if present && !bad then 1 else 0, 1⟩)

def currentVersionResult : List Pair → Except Error MetricResult :=
  rateOf "current_version_hit_rate" List.sum (Double.double (19 / 20) ≤ ·)
    (currentVersionCase python)

/-- `_citation_valid`. -/
def citationValid (trial : TrialArtifact) (evidence : EvidenceArtifact) : Bool :=
  (match Value.get evidence.metadata "run_id" .null with
    | .null => true
    | runId => python.str runId = trial.runId.getD "None") &&
  !otherProject evidence.projectCode trial && !otherDocument documents evidence.docCode trial &&
  isPublished evidence && evidence.isCurrent = some true

/-- A case of `_citation_result`. -/
def citationCase (pair : Pair) : Except Error (Option Counted) :=
  let mode := match Value.get pair.2.expected "citations" (.dict []) with
    | .dict citations => citationMode python citations
    | _ => "not_applicable"
  let governed := Assigned.collect (pair.1.governedEvidence.map fun item => (item.evidenceId, item))
  let valid := pair.1.citations.filter fun citation =>
    (governed.lookup citation.evidenceId).any (citationValid python documents pair.1)
  -- An answer without the citations it needs counts as one that failed.
  let total := if citationsRequired python pair.1 mode && pair.1.citations.isEmpty then 1
    else pair.1.citations.length
  .ok (if total = 0 then none else some ⟨pair.1.caseId, valid.length, total⟩)

def citationResult : List Pair → Except Error MetricResult :=
  rateOf "citation_id_validity" List.sum (· = 1) (citationCase python documents)

/-- A case of `_refusal_result`. -/
def refusalCase (pair : Pair) : Except Error (Option Counted) :=
  let expected := match Value.get pair.2.expected "answer" (.dict []) with
    | .dict answer => match Value.get answer "refusal_expected" .null with
      | .bool true => true
      | _ => false
    | _ => false
  .ok (if pair.2.runProtocol ≠ .authorizationDenial && expected then
    some ⟨pair.1.caseId, if isSafeRefusal python pair.1 then 1 else 0, 1⟩ else none)

def refusalResult : List Pair → Except Error MetricResult :=
  rateOf "no_answer_refusal_accuracy" List.sum (Double.double (9 / 10) ≤ ·) (refusalCase python)

end Rates

/-! ## Counts -/

/-- `_evidence_project_outside`. -/
def evidenceProjectOutside (documents : Documents) (trial : TrialArtifact)
    (evidence : EvidenceArtifact) : Bool :=
  if otherProject evidence.projectCode trial then true
  else otherDocument documents evidence.docCode trial

/-- What a trial counts for in `_cross_project_result`: candidates and governed evidence as often
as they are there, and the citations. -/
def crossProjectViolations (documents : Documents) (trial : TrialArtifact) : Nat :=
  let byId := evidenceById trial
  let cited := trial.citations.filter fun citation =>
    (byId.lookup citation.evidenceId).any (evidenceProjectOutside documents trial) ||
      otherDocument documents citation.docCode trial
  (trial.evidence.filter (evidenceProjectOutside documents trial)).length + cited.length

/-- `_cross_project_result`. -/
def crossProjectResult (documents : Documents) (pairs : List Pair) : MetricResult :=
  let pairs' := scorablePairs pairs
  let violations : Nat := (pairs'.map fun pair => crossProjectViolations documents pair.1).sum
  let measured : Option ℚ := if pairs'.isEmpty then none else some violations
  { metricId := "cross_project_evidence"
    target := target "cross_project_evidence"
    measured, numerator := measured
    denominator := pairs'.length
    status := (baseStatus pairs pairs'.length).getD (countStatus (some violations))
    caseIds := sortedIds (pairs'.map (·.1.caseId))
    notes := notesForUnscorable pairs }

/-- `_unconfirmed_issue_result` and `_duplicate_issue_result`: violations of the trials that say
how many side effects there were. -/
def sideEffectResult (metricId : String) (observed : IssueArtifact → Option ℤ) (allowed : ℤ)
    (pairs : List Pair) : MetricResult :=
  let pairs' := scorablePairs pairs
  let missing :=
    (pairs'.filter fun pair => (pair.1.issue.bind observed).isNone).map (·.1.caseId)
  let counts := pairs'.filterMap fun pair => pair.1.issue.bind observed
  let violations : ℤ := (counts.map fun count => max 0 (count - allowed)).sum
  let measured : Option ℚ := if counts.isEmpty then none else some violations
  { metricId, target := target metricId, measured, numerator := measured
    denominator := counts.length
    status := if missing.isEmpty then
        (baseStatus pairs counts.length).getD (countStatus (some violations))
      else .unscorable
    caseIds := sortedIds ((pairs'.map (·.1.caseId)).filter fun caseId => !missing.contains caseId)
    notes := notesForUnscorable pairs ++
      missing.map fun caseId => s!"{caseId}: missing issue side-effect snapshot" }

def unconfirmedIssueResult : List Pair → MetricResult :=
  sideEffectResult "unconfirmed_issue_creation" (·.sideEffectCountBefore) 0

def duplicateIssueResult : List Pair → MetricResult :=
  sideEffectResult "duplicate_issue_side_effects" (·.sideEffectCountAfter) 1

/-! ## Critical regression -/

/-- How the case of a pair was scored. -/
def behaviorOf (behaviors : List CaseBehaviorResult) (pair : Pair) :
    Except Error (Pair × Option MetricStatus) :=
  if pair.2.scoring.status ≠ .scorable then .ok (pair, none)
  else match behaviors.find? (·.caseId = pair.1.caseId) with
    | some result => .ok (pair, some result.status)
    | none => .error (.keyError pair.1.caseId)

def isUnscorable : Option MetricStatus → Bool
  | none | some .unscorable => true
  | some _ => false

/-- `_critical_result`. -/
def criticalResult (behaviors : List CaseBehaviorResult) (pairs : List Pair) :
    Except Error MetricResult := do
  let scored ← pairs.mapM (behaviorOf behaviors)
  let unscorable := (scored.filter fun item => isUnscorable item.2).map fun item =>
    if item.2 = none then item.1.2.caseId else item.1.1.caseId
  let counted := (scored.filter fun item => !isUnscorable item.2).map fun item =>
    (⟨item.1.1.caseId, if item.2 = some .pass then 1 else 0, 1⟩ : Counted)
  let result := rateResult "critical_regression" List.sum (· = 1) pairs counted
  .ok { result with
    status := if unscorable.isEmpty then result.status else .unscorable
    notes := (result.notes ++ if unscorable.isEmpty then [] else
      ["unscorable P0 prevents full proof: " ++ ", ".intercalate (sortedIds unscorable)]).eraseDups
        }

end ProjectAgent.Evaluation
