/-
`calculate_metrics` returns: for one trial of each case, with golds that can be
read and numbers that floats hold. Each function it goes through has a lemma of
what it needs of them.
-/
import ProjectAgent.Evaluation.Reported

namespace ProjectAgent.Evaluation

open Fallible (Returns returns_ok returns_ite)
open Json (Value)
open Double (Number)

variable {python : Python} {golds : GoldMap} {documents : Documents} {casesById : CaseMap}
  {costPerInputToken costPerOutputToken : Option Number}
variable {trials ordered : List TrialArtifact} {behaviors : List CaseBehaviorResult}
  {pairs : List Pair} {trial : TrialArtifact} {gold : GoldRecord}
  {expected : List (String × Value)} {value : Value}

/-! ## Golds that can be read -/

/-- `for item in value` goes through something. -/
def Iterable (value : Value) : Prop := ∃ items, iterate value = .ok items

/-- Groups, each of which can be gone through. -/
def Grouped (value : Value) : Prop :=
  ∃ items, iterate value = .ok items ∧ ∀ item ∈ items, Iterable item

/-- Of the targets that are mappings each has documents to go through. -/
def Accepting (value : Value) : Prop :=
  ∀ items, iterate value = .ok items → ∀ target, .dict target ∈ items →
    Iterable (Value.get target "acceptable_doc_codes" (.list []))

/-- What a gold expects can be read: where a list belongs there is one, and an integer where one is
counted. -/
structure Readable (python : Python) (expected : List (String × Value)) : Prop where
  httpStatuses : ∃ items,
    iterate (Value.get expected "expected_http_statuses" (.list [])) = .ok items ∧
      ∀ item ∈ items, ∃ status, python.int item = .ok status
  runStatuses : Iterable (Value.get expected "acceptable_run_statuses" (.list []))
  answer : ∀ answer, Value.get expected "answer" (.dict []) = .dict answer →
    Iterable (Value.get answer "required_tokens" (.list [])) ∧
      Grouped (Value.get answer "any_of_token_groups" (.list [])) ∧
      Iterable (Value.get answer "forbidden_tokens" (.list []))
  forbidden : Iterable (Value.get expected "forbidden_doc_codes" (.list []))
  current : Iterable (Value.get expected "current_doc_codes" (.list []))
  evidence : Grouped (Value.get expected "required_evidence_groups" (.list []))
  targets : (Value.get expected "identifier_targets" (.list [])).truthy = true →
    Iterable (Value.get expected "identifier_targets" (.list [])) ∧
      Accepting (Value.get expected "identifier_targets" (.list []))
  citations : ∀ citations, Value.get expected "citations" (.dict []) = .dict citations →
    Accepting (Value.get citations "claim_groups" (.list []))
  tool : ∀ tool, Value.get expected "tool" (.dict []) = .dict tool →
    Grouped (Value.get tool "required_issue_groups" (.list [])) ∧
      Iterable (Value.get tool "forbidden_issue_keys" (.list []))
  issue : ∀ issue, Value.get expected "issue" (.dict []) = .dict issue →
    Iterable (Value.get issue "expected_creation_outcomes" (.list [])) ∧
      (Value.get issue "max_logical_side_effects" .null ≠ .null →
        ∃ maximum, python.int (Value.get issue "max_logical_side_effects" .null) = .ok maximum)
  safety : Iterable (Value.get expected "safety_assertions" (.list []))

theorem Iterable.strs (h : Iterable value) : Returns (python.strs value) :=
  Returns.bind h fun items _ => returns_ok (items.map python.str)

theorem Grouped.strs (h : Grouped value) :
    Returns (iterate value >>= fun items => items.mapM python.strs) := by
  obtain ⟨items, hitems, hall⟩ := h
  refine Returns.bind ⟨items, hitems⟩ fun items' hitems' => ?_
  cases hitems.symm.trans hitems'
  exact Fallible.mapM_exists fun item hitem => (hall item hitem).strs

/-- The groups of a value, whatever is done with them. -/
theorem Grouped.bind {β : Type} {f : List (List String) → Except Error β} (h : Grouped value)
    (hf : ∀ groups, Returns (f groups)) :
    Returns (iterate value >>= fun items => items.mapM python.strs >>= f) := by
  have hstrs : Returns (iterate value >>= fun items => items.mapM python.strs) := h.strs
  obtain ⟨groups, hgroups⟩ := hstrs
  obtain ⟨items, hitems, hgroups⟩ := Fallible.bind_eq_ok.mp hgroups
  obtain ⟨b, hb⟩ := hf groups
  exact ⟨b, Fallible.bind_eq_ok.mpr ⟨items, hitems, Fallible.bind_eq_ok.mpr ⟨groups, hgroups, hb⟩⟩⟩

/-! ## The assertions -/

/-- Each function of the assertions needs of a gold what it reads. -/
theorem Readable.http (h : Readable python expected) :
    Returns (httpAssertions python trial expected) := by
  obtain ⟨items, hitems, hall⟩ := h.httpStatuses
  refine Returns.bind ⟨items, hitems⟩ fun items' hitems' => ?_
  cases hitems.symm.trans hitems'
  refine Returns.bind (Fallible.mapM_exists hall) fun statuses _ => ?_
  split <;> exact returns_ok _

theorem Readable.run (h : Readable python expected) :
    Returns (runAssertions python trial expected) :=
  Returns.bind h.runStatuses.strs fun _ _ => returns_ok _

theorem Readable.answered (h : Readable python expected) :
    Returns (answerAssertions python trial expected) := by
  unfold answerAssertions
  split
  · next answer hanswer =>
    obtain ⟨hrequired, hgroups, hforbidden⟩ := h.answer answer hanswer
    exact Returns.bind hrequired.strs fun _ _ => hgroups.bind fun _ =>
      Returns.bind hforbidden.strs fun _ _ => returns_ok _
  · exact returns_ok _

theorem Readable.governed (h : Readable python expected) :
    Returns (evidenceAssertions python trial expected) :=
  Returns.bind h.forbidden.strs fun _ _ => h.evidence.bind fun _ => returns_ok _

theorem groupsPass_returns {cited : List String} {groups : List Value}
    (h : ∀ group, .dict group ∈ groups →
      Iterable (Value.get group "acceptable_doc_codes" (.list []))) :
    Returns (groupsPass python cited groups) := by
  induction groups with
  | nil => exact returns_ok _
  | cons value groups ih =>
    have hrest := ih fun group hgroup => h group (List.mem_cons_of_mem value hgroup)
    cases value with
    | dict group =>
      refine Returns.bind (h group List.mem_cons_self).strs fun acceptable _ => ?_
      split
      · exact returns_ok _
      · exact hrest
    | null | bool | int | float | str | list => exact hrest

theorem citationGroupsPass_returns (h : Accepting value) :
    Returns (citationGroupsPass python trial value) := by
  cases value with
  | list groups => exact groupsPass_returns (h groups rfl)
  | null | bool | int | float | str | dict => exact returns_ok _

theorem Readable.cited (h : Readable python expected) :
    Returns (citationAssertions python trial expected) := by
  unfold citationAssertions
  split
  · next citations hcitations =>
    dsimp only
    split
    · exact returns_ok _
    · split
      · exact Returns.bind (citationGroupsPass_returns (h.citations citations hcitations))
          fun _ _ => returns_ok _
      · exact returns_ok _
  · exact returns_ok _

theorem Readable.tools (h : Readable python expected) :
    Returns (toolAssertions python trial expected) := by
  unfold toolAssertions
  split
  · next tool htool =>
    obtain ⟨hgroups, hforbidden⟩ := h.tool tool htool
    exact hgroups.bind fun _ => Returns.bind hforbidden.strs fun _ _ => returns_ok _
  · exact returns_ok _

theorem Readable.issued (h : Readable python expected) :
    Returns (issueAssertions python trial expected) := by
  unfold issueAssertions
  split
  · next issue hissue =>
    exact Returns.bind (h.issue issue hissue).1.strs fun _ _ => returns_ok _
  · exact returns_ok _

/-- Only two of the safety assertions read more than the documents that are forbidden. -/
theorem Readable.safe (h : Readable python expected) (name : String) :
    Returns (scoreSafetyAssertion python trial name expected documents) := by
  refine Returns.bind h.forbidden.strs fun forbidden _ => ?_
  dsimp only
  repeat' first
    | exact returns_ok _
    | apply returns_ite
  · split
    · next citations hcitations =>
        exact citationGroupsPass_returns (h.citations citations hcitations)
    · exact returns_ok _
  · split
    · next issue hissue =>
      split
      · exact returns_ok _
      · next hsome => exact Returns.bind ((h.issue issue hissue).2 hsome) fun _ _ => returns_ok _
    · exact returns_ok _

theorem Readable.safety_returns (h : Readable python expected) :
    Returns (safetyAssertions python trial expected documents) :=
  Returns.bind h.safety.strs fun _ _ => Fallible.mapM_exists fun name _ =>
    Returns.bind (h.safe name) fun _ _ => returns_ok _

theorem Readable.asserted (h : Readable python expected) :
    Returns (behaviorAssertions python trial expected documents) :=
  Returns.bind h.http fun _ _ => Returns.bind h.run fun _ _ => Returns.bind h.answered fun _ _ =>
    Returns.bind h.governed fun _ _ => Returns.bind h.cited fun _ _ =>
      Returns.bind h.tools fun _ _ =>
    Returns.bind h.issued fun _ _ => Returns.bind h.safety_returns fun _ _ => returns_ok _

/-- A gold of the case, that can be read where the trial can be scored. -/
def Fits (python : Python) (trial : TrialArtifact) (gold : GoldRecord) : Prop :=
  gold.caseId = trial.caseId ∧ (scorable (trial, gold) = true → Readable python gold.expected)

theorem Fits.scored (h : Fits python trial gold) :
    Returns (scoreCaseBehavior python trial gold documents) := by
  unfold scoreCaseBehavior
  rw [if_neg (not_not.mpr h.1.symm)]
  split
  · exact returns_ok _
  · next hgold =>
    split
    · exact returns_ok _
    · next htrial =>
      have hread : Readable python gold.expected := h.2 (by simp_all [scorable])
      exact Returns.bind hread.asserted fun _ _ => returns_ok _

/-! ## The metrics -/

section Metrics

variable {metricId : String} {add : List ℚ → ℚ} {passed : ℚ → Bool}
  {count : Pair → Except Error (Option Counted)}
  {candidates : TrialArtifact → List EvidenceArtifact}

theorem targetGroups_returns {targets : List Value} (h : ∀ target, .dict target ∈ targets →
    Iterable (Value.get target "acceptable_doc_codes" (.list []))) :
    Returns (targetGroups python targets) := by
  induction targets with
  | nil => exact returns_ok _
  | cons value targets ih =>
    have hrest := ih fun target htarget => h target (List.mem_cons_of_mem value htarget)
    cases value with
    | dict target =>
      exact Returns.bind (h target List.mem_cons_self).strs fun _ _ =>
        Returns.bind hrest fun _ _ => returns_ok _
    | null | bool | int | float | str | list => exact hrest

theorem Readable.identifierCase {pair : Pair} (h : Readable python pair.2.expected) :
    Returns (identifierCase python documents candidates pair) := by
  unfold Evaluation.identifierCase
  dsimp only
  split
  · exact returns_ok _
  · next hsome =>
    obtain ⟨htargets, haccepting⟩ := h.targets (by simpa using hsome)
    exact Returns.bind htargets fun items hitems =>
      Returns.bind (targetGroups_returns (haccepting items hitems)) fun _ _ => returns_ok _

theorem Readable.evidenceCase {pair : Pair} (h : Readable python pair.2.expected) :
    Returns (evidenceCase python documents candidates pair) := by
  have hgroups : Returns (evidenceGroups python pair.2) := by
    unfold evidenceGroups
    dsimp only
    split
    · exact returns_ok _
    · exact h.evidence.bind fun _ => returns_ok _
  exact Returns.bind hgroups fun _ _ => returns_ok _

theorem Readable.currentVersionCase {pair : Pair} (h : Readable python pair.2.expected) :
    Returns (currentVersionCase python pair) := by
  refine Returns.bind h.current.strs fun current _ => ?_
  split
  · exact returns_ok _
  · exact Returns.bind h.forbidden.strs fun _ _ => returns_ok _

/-- The golds of the pairs that can be scored can be read. -/
def AllReadable (python : Python) (pairs : List Pair) : Prop :=
  ∀ pair ∈ pairs, scorable pair = true → Readable python pair.2.expected

theorem rateOf_returns (hcount : ∀ pair, Readable python pair.2.expected → Returns (count pair))
    (h : AllReadable python pairs) : Returns (rateOf metricId add passed count pairs) := by
  have hcounted : Returns (countedOf count pairs) := by
    refine Returns.bind (Fallible.mapM_exists fun pair hpair => ?_) fun _ _ => returns_ok _
    obtain ⟨hmem, hscorable⟩ := List.mem_filter.mp hpair
    exact hcount pair (h pair hmem hscorable)
  exact Returns.bind hcounted fun _ _ => returns_ok _

theorem identifierResult_returns (h : AllReadable python pairs) :
    Returns (identifierResult python documents candidates pairs) :=
  rateOf_returns (fun _ hread => hread.identifierCase) h

theorem evidenceResult_returns (h : AllReadable python pairs) :
    Returns (evidenceResult python documents candidates pairs) :=
  rateOf_returns (fun _ hread => hread.evidenceCase) h

/-- Each of the pairs was scored, or its gold could not be. -/
theorem criticalResult_returns (h : ∀ pair ∈ pairs, pair.1.caseId ∈ behaviors.map (·.caseId)) :
    Returns (criticalResult behaviors pairs) := by
  refine Returns.bind (Fallible.mapM_exists fun pair hpair => ?_) fun _ _ => returns_ok _
  obtain ⟨behavior, hbehavior, hid⟩ := List.mem_map.mp (h pair hpair)
  obtain ⟨found, hfound⟩ : ∃ found, behaviors.find? (·.caseId = pair.1.caseId) = some found := by
    rw [← Option.isSome_iff_exists, List.find?_isSome]
    exact ⟨behavior, hbehavior, decide_eq_true hid⟩
  unfold behaviorOf
  rw [hfound]
  split <;> exact returns_ok _

theorem calculators_return {calculator : String × (List Pair → Except Error MetricResult)}
    (hmem : calculator ∈ calculators python documents behaviors) (h : AllReadable python pairs)
    (hscored : ∀ pair ∈ pairs, pair.1.caseId ∈ behaviors.map (·.caseId)) :
    Returns (calculator.2 pairs) := by
  unfold calculators at hmem
  simp only [List.mem_cons, List.not_mem_nil, or_false] at hmem
  rcases hmem with rfl | rfl | rfl | rfl | rfl | rfl | rfl | rfl | rfl
  · exact identifierResult_returns h
  · exact evidenceResult_returns h
  · exact rateOf_returns (fun _ hread => hread.currentVersionCase) h
  · exact rateOf_returns (fun _ _ => returns_ok _) h
  · exact rateOf_returns (fun _ _ => returns_ok _) h
  · exact returns_ok _
  · exact returns_ok _
  · exact returns_ok _
  · exact criticalResult_returns hscored

end Metrics

/-! ## The diagnostics -/

/-- Each of the integers is one that `float` takes, and so is what they add up to. -/
structure Averageable (values : List ℤ) : Prop where
  each : ∀ value ∈ values, |Double.double value| < 2 ^ 1024
  together : Number.Addable (values.map fun value : ℤ => .finite (Double.double value))

/-- The coverage of a guard as a float. -/
def coverageNumber (guard : List (String × Value)) : Option Number :=
  match Value.get guard "coverage" .null with
  | .int coverage => some (.finite (Double.double coverage))
  | .float coverage => some coverage
  | _ => none

/-- The numbers that the diagnostics turn into floats or add up are not too large for it. -/
structure NumbersFit (trials : List TrialArtifact)
    (costPerInputToken costPerOutputToken : Option Number) : Prop where
  coverage : ∀ guard ∈ guards trials, ∀ coverage : ℤ,
    Value.get guard.2 "coverage" .null = .int coverage → |Double.double coverage| < 2 ^ 1024
  coverages : Number.Addable ((guards trials).filterMap fun guard => coverageNumber guard.2)
  latencies : Number.Addable (latencies trials)
  tokens : Averageable (totalTokens trials)
  candidates : Averageable (candidateCounts trials)
  ranks : Averageable (bestRanks trials)
  costs : costPerInputToken ≠ none ∨ costPerOutputToken ≠ none →
    |Double.double (inputTotal trials)| < 2 ^ 1024 ∧ |Double.double (outputTotal trials)| < 2 ^ 1024

theorem Averageable.perm {values values' : List ℤ} (h : Averageable values)
    (hperm : values.Perm values') : Averageable values' :=
  ⟨fun value hvalue => h.each value (hperm.mem_iff.mpr hvalue), h.together.perm (hperm.map _)⟩

/-- They fit in whatever order the trials are. -/
theorem NumbersFit.perm (h : NumbersFit trials costPerInputToken costPerOutputToken)
    (hperm : trials.Perm ordered) : NumbersFit ordered costPerInputToken costPerOutputToken where
  coverage guard hguard := h.coverage guard ((hperm.filterMap _).mem_iff.mpr hguard)
  coverages := h.coverages.perm ((hperm.filterMap _).filterMap _)
  latencies := h.latencies.perm (hperm.filterMap _)
  tokens := h.tokens.perm (hperm.filterMap _)
  candidates := h.candidates.perm (hperm.filterMap _)
  ranks := h.ranks.perm (hperm.filterMap _)
  costs hcost := by
    unfold inputTotal outputTotal
    rw [← (hperm.map _).sum_eq, ← (hperm.map _).sum_eq]
    exact h.costs hcost

theorem toFloat_ok {n : ℤ} (h : |Double.double n| < 2 ^ 1024) :
    toFloat n = .ok (.finite (Double.double n)) := by
  unfold toFloat Number.ofInt
  rw [if_neg (not_le.mpr h)]

theorem fmean_returns {values : List Number} (h : Number.Addable values) :
    Returns (fmean values) := by
  obtain ⟨mean, hmean⟩ := h.fmean_exists
  unfold fmean
  rw [hmean]
  split <;> exact returns_ok _

theorem Averageable.floats {values : List ℤ} (h : Averageable values) :
    values.mapM toFloat = .ok (values.map fun value : ℤ => .finite (Double.double value)) :=
  Fallible.mapM_ok fun value hvalue => toFloat_ok (h.each value hvalue)

theorem Averageable.mean {values : List ℤ} (h : Averageable values) : Returns (intMean values) := by
  unfold intMean
  rw [h.floats]
  exact fmean_returns h.together

section Diagnostics

variable (h : NumbersFit trials costPerInputToken costPerOutputToken)
include h

theorem NumbersFit.guarded : Returns (guardDiagnostics trials) := by
  have hcoverages : (guards trials).mapM (fun guard => guardCoverage guard.2) =
      .ok ((guards trials).map fun guard => coverageNumber guard.2) := by
    refine Fallible.mapM_ok fun guard hguard => ?_
    unfold guardCoverage coverageNumber
    cases hcoverage : Value.get guard.2 "coverage" .null with
    | int coverage =>
      dsimp only
      rw [toFloat_ok (h.coverage guard hguard coverage hcoverage)]
      rfl
    | null | bool | float | str | list | dict => rfl
  have hnumbers : ((guards trials).map fun guard => coverageNumber guard.2).filterMap id =
      (guards trials).filterMap fun guard => coverageNumber guard.2 := List.filterMap_map
  refine Returns.bind ⟨_, hcoverages⟩ fun coverages hsame => ?_
  cases hcoverages.symm.trans hsame
  refine Returns.bind (fmean_returns ?_) fun _ _ => returns_ok _
  rw [hnumbers]
  exact h.coverages

theorem NumbersFit.cost : Returns (estimatedCost trials costPerInputToken costPerOutputToken) := by
  unfold estimatedCost
  split
  · exact returns_ok _
  · next hcost =>
    have hgiven : costPerInputToken ≠ none ∨ costPerOutputToken ≠ none := by
      rw [← not_and_or]
      rintro ⟨rfl, rfl⟩
      exact hcost rfl
    obtain ⟨hinput, houtput⟩ := h.costs hgiven
    rw [toFloat_ok hinput, toFloat_ok houtput]
    exact returns_ok _

end Diagnostics

theorem applicable_returns {metricId : String}
    (h : ∀ trial ∈ trials, ∃ gold, golds trial.caseId = some gold ∧ Fits python trial gold) :
    Returns (applicable metricId trials golds) := by
  refine Returns.bind (Fallible.mapM_exists fun trial htrial => ?_) fun _ _ => returns_ok _
  obtain ⟨gold, hgold, -⟩ := h trial htrial
  rw [hgold]
  exact returns_ok _

/-- The pairs of a metric, of trials whose golds fit. -/
theorem applicable_readable {metricId : String}
    (h : ∀ trial ∈ trials, ∃ gold, golds trial.caseId = some gold ∧ Fits python trial gold)
    (hpairs : applicable metricId trials golds = .ok pairs) : AllReadable python pairs := by
  rintro ⟨trial, gold⟩ hpair hscorable
  obtain ⟨htrial, hlisted⟩ := (mem_applicable hpairs).mp hpair
  obtain ⟨gold', hgold, hfits⟩ := h trial htrial
  cases hlisted.1.symm.trans hgold
  exact hfits.2 hscorable

theorem diagnostics_returns
    (hgolds : ∀ trial ∈ trials, ∃ gold, golds trial.caseId = some gold ∧ Fits python trial gold)
    (hnumbers : NumbersFit trials costPerInputToken costPerOutputToken) :
    Returns (diagnostics python trials golds documents behaviors casesById costPerInputToken
      costPerOutputToken) := by
  have hretrieval : Returns (retrievalDiagnostics python trials golds documents) :=
    Returns.bind (applicable_returns hgolds) fun _ hidentifier =>
      Returns.bind (applicable_returns hgolds) fun _ hevidence =>
      Returns.bind (identifierResult_returns (applicable_readable hgolds hidentifier)) fun _ _ =>
      Returns.bind (identifierResult_returns (applicable_readable hgolds hidentifier)) fun _ _ =>
      Returns.bind (evidenceResult_returns (applicable_readable hgolds hevidence)) fun _ _ =>
      Returns.bind (evidenceResult_returns (applicable_readable hgolds hevidence)) fun _ _ =>
      returns_ok _
  have hlatency : Returns (latencyDiagnostics trials) :=
    Returns.bind (fmean_returns hnumbers.latencies) fun _ _ => returns_ok _
  have htokens : Returns (tokenDiagnostics trials) :=
    Returns.bind hnumbers.tokens.mean fun _ _ =>
      Returns.bind ⟨_, hnumbers.tokens.floats⟩ fun _ _ => returns_ok _
  have hissue : Returns (issueDiagnostics trials) :=
    Returns.bind hnumbers.candidates.mean fun _ _ =>
      Returns.bind hnumbers.ranks.mean fun _ _ => returns_ok _
  exact Returns.bind hretrieval fun _ _ => Returns.bind hnumbers.guarded fun _ _ =>
    Returns.bind hlatency fun _ _ => Returns.bind htokens fun _ _ =>
    Returns.bind hissue fun _ _ => Returns.bind hnumbers.cost fun _ _ => returns_ok _

/-! ## The whole -/

theorem checkDistinct_returns {seen : List String} (hnodup : (trials.map (·.caseId)).Nodup)
    (hseen : ∀ trial ∈ trials, trial.caseId ∉ seen) : checkDistinct seen trials = .ok () := by
  induction trials generalizing seen with
  | nil => rfl
  | cons trial trials ih =>
    obtain ⟨hnew, hnodup⟩ := List.nodup_cons.mp hnodup
    unfold checkDistinct
    rw [if_neg (hseen trial List.mem_cons_self)]
    refine ih hnodup fun other hother hmem => ?_
    rcases List.mem_cons.mp hmem with hsame | hmem
    · exact hnew (List.mem_map.mpr ⟨other, hother, hsame⟩)
    · exact hseen other (List.mem_cons_of_mem _ hother) hmem

/-- One trial of a case is one in order, too. -/
theorem orderedTrials_returns (h : (trials.map (·.caseId)).Nodup) :
    Returns (orderedTrials trials) := by
  have hperm := (List.perm_insertionSort trialLe trials).map (·.caseId)
  have hdistinct : checkDistinct [] (trials.insertionSort trialLe) = .ok () :=
    checkDistinct_returns (hperm.nodup_iff.mpr h) fun _ _ => List.not_mem_nil
  exact Returns.bind ⟨_, hdistinct⟩ fun _ _ => returns_ok _

/-- **`calculate_metrics` returns** for one trial of each case, with a gold of that case that can be
read, and numbers that floats hold. -/
theorem calculateMetrics_returns (hcases : (trials.map (·.caseId)).Nodup)
    (hgolds : ∀ trial ∈ trials, ∃ gold, golds trial.caseId = some gold ∧ Fits python trial gold)
    (hnumbers : NumbersFit trials costPerInputToken costPerOutputToken) :
    Returns (calculateMetrics python trials golds documents "v1" casesById costPerInputToken
      costPerOutputToken) := by
  refine Returns.bind (orderedTrials_returns hcases) fun ordered hordered => ?_
  obtain ⟨hperm, -⟩ := orderedTrials_ok hordered
  have hgolds' : ∀ trial ∈ ordered, ∃ gold, golds trial.caseId = some gold ∧
      Fits python trial gold := fun trial htrial => hgolds trial (hperm.mem_iff.mp htrial)
  have hbehaviors : Returns (ordered.mapM (scoreTrial python golds documents)) := by
    refine Fallible.mapM_exists fun trial htrial => ?_
    obtain ⟨gold, hgold, hfits⟩ := hgolds' trial htrial
    unfold scoreTrial
    rw [hgold]
    exact hfits.scored
  refine Returns.bind hbehaviors fun behaviors hscored => ?_
  -- every trial has a behaviour
  have hfound : ∀ trial ∈ ordered, trial.caseId ∈ behaviors.map (·.caseId) := by
    intro trial htrial
    obtain ⟨behavior, hmem, hbehavior⟩ := Fallible.mapM_of_mem hscored htrial
    obtain ⟨gold, hgold, -⟩ := hgolds' trial htrial
    unfold scoreTrial at hbehavior
    rw [hgold] at hbehavior
    exact List.mem_map.mpr ⟨behavior, hmem, scored_caseId hbehavior⟩
  have hresults : Returns ((calculators python documents behaviors).mapM
      (calculate golds ordered)) := by
    refine Fallible.mapM_exists fun calculator hmem => ?_
    refine Returns.bind (applicable_returns hgolds') fun pairs hpairs => ?_
    refine returns_ite (returns_ok _) ?_
    obtain ⟨result, hresult⟩ := calculators_return hmem (applicable_readable hgolds' hpairs)
      fun pair hpair => hfound pair.1 ((mem_applicable hpairs).mp hpair).1
    rw [hresult]
    exact returns_ok _
  refine Returns.bind hresults fun _ _ => ?_
  exact Returns.bind (diagnostics_returns hgolds' (hnumbers.perm hperm.symm)) fun _ _ =>
    returns_ok _

end ProjectAgent.Evaluation
