/-
`_cross_project_evidence_count` and `_cross_project_result` count differently,
and are zero together for a trial whose pieces of evidence have distinct ids.
-/
import ProjectAgent.Evaluation.Metrics
import ProjectAgent.Lib.Fallible

namespace ProjectAgent.Evaluation

open Json (Value)

variable {documents : Documents} {trial : TrialArtifact} {evidence : EvidenceArtifact}
  {citation : CitationArtifact}

/-- No id is there twice, in the rounds and the governed evidence. -/
def TrialArtifact.Distinct (trial : TrialArtifact) : Prop :=
  (trial.evidence.map (·.evidenceId)).Nodup

theorem evidenceById_distinct (h : trial.Distinct) :
    evidenceById trial = trial.evidence.map fun evidence => (evidence.evidenceId, evidence) := by
  refine Assigned.collect_eq ?_
  rw [List.map_map]
  exact h

theorem values_distinct (h : trial.Distinct) :
    (evidenceById trial).map Prod.snd = trial.evidence := by
  rw [evidenceById_distinct h, List.map_map]
  exact List.map_id _

theorem mem_of_lookup {key : String} (h : trial.Distinct)
    (hlookup : (evidenceById trial).lookup key = some evidence) :
    evidence ∈ trial.evidence := by
  obtain ⟨before, after, hsplit, -⟩ := List.lookup_eq_some_iff.mp hlookup
  rw [← values_distinct h, hsplit, List.map_append, List.map_cons]
  exact List.mem_append_right _ List.mem_cons_self

theorem evidenceProjectOutside_eq : evidenceProjectOutside documents trial evidence =
    (otherProject evidence.projectCode trial ||
      otherDocument documents evidence.docCode trial) := by
  unfold evidenceProjectOutside
  cases otherProject evidence.projectCode trial <;> rfl

/-- Nothing that was retrieved is from outside, and no citation is of a document from outside. -/
def Inside (documents : Documents) (trial : TrialArtifact) : Prop :=
  (∀ evidence ∈ trial.evidence, evidenceProjectOutside documents trial evidence = false) ∧
    ∀ citation ∈ trial.citations, otherDocument documents citation.docCode trial = false

theorem crossProjectViolations_eq_zero (h : trial.Distinct) :
    crossProjectViolations documents trial = 0 ↔ Inside documents trial := by
  unfold crossProjectViolations Inside
  dsimp only
  rw [Nat.add_eq_zero_iff, List.length_eq_zero_iff, List.length_eq_zero_iff, List.filter_eq_nil_iff,
    List.filter_eq_nil_iff]
  constructor
  · rintro ⟨hevidence, hcited⟩
    refine ⟨fun evidence hmem => Bool.eq_false_iff.mpr (hevidence evidence hmem),
      fun citation hmem => ?_⟩
    have hcitation := hcited citation hmem
    rw [Bool.not_eq_true, Bool.or_eq_false_iff] at hcitation
    exact hcitation.2
  · rintro ⟨hevidence, hcited⟩
    refine ⟨fun evidence hmem => Bool.eq_false_iff.mp (hevidence evidence hmem),
      fun citation hmem => ?_⟩
    rw [Bool.not_eq_true, Bool.or_eq_false_iff]
    refine ⟨?_, hcited citation hmem⟩
    cases hlookup : (evidenceById trial).lookup citation.evidenceId with
    | none => rfl
    | some evidence => exact hevidence evidence (mem_of_lookup h hlookup)

theorem crossProjectEvidenceCount_eq_zero (h : trial.Distinct) :
    crossProjectEvidenceCount trial documents = 0 ↔ Inside documents trial := by
  unfold crossProjectEvidenceCount Inside
  dsimp only
  rw [values_distinct h, Nat.add_eq_zero_iff, List.length_eq_zero_iff, List.length_eq_zero_iff,
    List.filter_eq_nil_iff]
  simp only [← evidenceProjectOutside_eq]
  constructor
  · rintro ⟨hevidence, hcited⟩
    -- nothing was counted, so every citation is looked at
    have hnone : trial.evidence.filter (evidenceProjectOutside documents trial) = [] :=
      List.filter_eq_nil_iff.mpr hevidence
    rw [hnone, List.filter_eq_nil_iff] at hcited
    refine ⟨fun evidence hmem => Bool.eq_false_iff.mpr (hevidence evidence hmem),
      fun citation hmem => ?_⟩
    have hcitation := hcited citation hmem
    rw [List.map_nil, List.contains_nil, Bool.not_false, Bool.and_true, Bool.not_eq_true,
      Bool.or_eq_false_iff] at hcitation
    exact hcitation.2
  · rintro ⟨hevidence, hcited⟩
    refine ⟨fun evidence hmem => Bool.eq_false_iff.mp (hevidence evidence hmem),
      List.filter_eq_nil_iff.mpr fun citation hmem => ?_⟩
    rw [Bool.not_eq_true, hcited citation hmem, Bool.or_false]
    cases hlookup : (evidenceById trial).lookup citation.evidenceId with
    | none => rfl
    | some evidence =>
      have houtside := hevidence evidence (mem_of_lookup h hlookup)
      rw [evidenceProjectOutside_eq, Bool.or_eq_false_iff] at houtside
      dsimp only
      rw [houtside.1, Bool.false_and]

theorem counts_agree (h : trial.Distinct) :
    crossProjectEvidenceCount trial documents = 0 ↔ crossProjectViolations documents trial = 0 :=
  (crossProjectEvidenceCount_eq_zero h).trans (crossProjectViolations_eq_zero h).symm

variable {pairs : List Pair}

/-- The metric passes where no trial that can be scored has a violation. -/
theorem crossProjectResult_pass : (crossProjectResult documents pairs).status = .pass ↔
    scorablePairs pairs ≠ [] ∧ ∀ pair ∈ scorablePairs pairs,
      crossProjectViolations documents pair.1 = 0 := by
  unfold crossProjectResult baseStatus countStatus
  dsimp only
  rcases hscorable : scorablePairs pairs with _ | ⟨first, rest⟩
  · refine ⟨fun h => ?_, fun h => absurd rfl h.1⟩
    split at h
    · cases h
    · cases h
  · have hpairs : pairs.isEmpty = false := by
      cases pairs with
      | nil => cases hscorable
      | cons _ _ => rfl
    have hlength : (first :: rest).length ≠ 0 := nofun
    rw [hpairs, if_neg (by decide), if_neg hlength]
    have hsum : ((((first :: rest).map fun pair =>
      crossProjectViolations documents pair.1).sum : ℕ) : ℚ) = 0 ↔
        ∀ pair ∈ first :: rest, crossProjectViolations documents pair.1 = 0 := by
      rw [Nat.cast_eq_zero, List.sum_eq_zero_iff_forall_eq_nat]
      exact List.forall_mem_map
    rw [Option.getD_none, and_iff_right (List.cons_ne_nil _ _)]
    refine Iff.trans ?_ hsum
    split
    · next hzero => exact ⟨fun _ => hzero, fun _ => rfl⟩
    · next hpositive => exact ⟨nofun, fun h => absurd h hpositive⟩

/-- **The scorer and the metric agree on scope**: of a trial the one counts nothing if and only if
the other does, so the safety assertion is passed just where the metric counts nothing, and the
metric passes just where the scorer counts nothing. -/
theorem scope_agreement (hdistinct : ∀ pair ∈ pairs, pair.1.Distinct) :
    (∀ pair ∈ pairs, crossProjectEvidenceCount pair.1 documents = 0 ↔
      crossProjectViolations documents pair.1 = 0) ∧
      (∀ pair ∈ pairs, ∀ python expected passed,
        scoreSafetyAssertion python pair.1 "no_cross_project_evidence" expected documents =
          .ok passed →
        (passed = true ↔ crossProjectViolations documents pair.1 = 0)) ∧
      ((crossProjectResult documents pairs).status = .pass ↔
        scorablePairs pairs ≠ [] ∧ ∀ pair ∈ scorablePairs pairs,
          crossProjectEvidenceCount pair.1 documents = 0) := by
  refine ⟨fun pair hpair => counts_agree (hdistinct pair hpair),
    fun pair hpair python expected passed hpassed => ?_, ?_⟩
  · obtain ⟨forbidden, -, hpassed⟩ := Fallible.bind_eq_ok.mp hpassed
    cases hpassed
    rw [decide_eq_true_iff]
    exact counts_agree (hdistinct pair hpair)
  · rw [crossProjectResult_pass]
    refine and_congr_right fun _ => forall₂_congr fun pair hpair => ?_
    exact (counts_agree (hdistinct pair (List.mem_of_mem_filter hpair))).symm

/-- A piece of evidence of a document of another project, and a citation of it. -/
def strayTrial : TrialArtifact where
  caseId := "Q1"
  trialNo := 1
  classification := .scored
  projectCode := "PRJ-RETAIL-ALPHA"
  httpStatus := none
  runId := none
  statusTransitions := []
  latencyMs := none
  inputTokens := none
  outputTokens := none
  totalTokens := none
  retrievalRounds := []
  finalRetrievalRound := none
  governedEvidence := [⟨"e1", some "B-REQ-001", none, some 1, some "PUBLISHED", some true, []⟩]
  answer := none
  refusalReason := none
  citations := [⟨"e1", none⟩]
  issue := none
  metadata := []

def strayDocuments : Documents :=
  fun code => if code = "B-REQ-001" then some ⟨"PRJ-LOGISTICS-BETA", none⟩ else none

theorem scope_agreement_sample : (crossProjectEvidenceCount strayTrial strayDocuments = 0 ↔
    crossProjectViolations strayDocuments strayTrial = 0) ∧
      crossProjectEvidenceCount strayTrial strayDocuments = 1 ∧
    crossProjectViolations strayDocuments strayTrial = 2 := by
  have hdistinct : ∀ pair ∈ [(strayTrial,
      (⟨"Q1", .singleRun, [], [], ⟨.scorable, none⟩⟩ : GoldRecord))], pair.1.Distinct := by
    intro pair hpair
    rw [List.mem_singleton.mp hpair]
    exact List.nodup_singleton "e1"
  exact ⟨(@scope_agreement strayDocuments _ hdistinct).1 _ List.mem_cons_self, by decide, by decide⟩

end ProjectAgent.Evaluation
