/-
What `calculate_metrics` goes through: the trials in order, how each case was
scored, and of every metric the result over the trials it is about.
-/
import ProjectAgent.Evaluation.Metrics
import ProjectAgent.Lib.Fallible

namespace ProjectAgent.Evaluation

open Json (Value)

variable {python : Python} {golds : GoldMap} {documents : Documents} {version : String}
  {casesById : CaseMap} {costPerInputToken costPerOutputToken : Option Double.Number}
variable {trials ordered : List TrialArtifact} {behaviors : List CaseBehaviorResult}
  {pairs : List Pair} {trial : TrialArtifact}
  {gold : GoldRecord} {result : MetricResult}

/-! ## The cases of a metric -/

theorem checkDistinct_ok {seen : List String} (h : checkDistinct seen trials = .ok ()) :
    (trials.map (·.caseId)).Nodup ∧ ∀ trial ∈ trials, trial.caseId ∉ seen := by
  induction trials generalizing seen with
  | nil => exact ⟨List.nodup_nil, fun _ hmem => absurd hmem List.not_mem_nil⟩
  | cons trial trials ih =>
    unfold checkDistinct at h
    split at h
    · cases h
    · next hnew =>
      obtain ⟨hnodup, hseen⟩ := ih h
      refine ⟨List.nodup_cons.mpr ⟨fun hmem => ?_, hnodup⟩, fun other hmem => ?_⟩
      · obtain ⟨other, hother, hsame⟩ := List.mem_map.mp hmem
        exact hseen other hother (hsame ▸ List.mem_cons_self)
      · rcases List.mem_cons.mp hmem with rfl | hmem
        · exact hnew
        · exact fun hbefore => hseen other hmem (List.mem_cons_of_mem _ hbefore)

/-- The same trials, each of a case of its own. -/
theorem orderedTrials_ok (h : orderedTrials trials = .ok ordered) :
    ordered.Perm trials ∧ (ordered.map (·.caseId)).Nodup := by
  obtain ⟨⟨⟩, hdistinct, h⟩ := Fallible.bind_eq_ok.mp h
  cases h
  exact ⟨List.perm_insertionSort trialLe trials, (checkDistinct_ok hdistinct).1⟩

/-- The gold of a trial lists the metric. -/
def Listed (golds : GoldMap) (metricId : String) (trial : TrialArtifact)
    (gold : GoldRecord) : Prop :=
  golds trial.caseId = some gold ∧ metricId ∈ gold.metricApplicability

theorem mem_applicable {metricId : String} (h : applicable metricId trials golds = .ok pairs) :
    (trial, gold) ∈ pairs ↔ trial ∈ trials ∧ Listed golds metricId trial gold := by
  obtain ⟨all, hall, h⟩ := Fallible.bind_eq_ok.mp h
  cases h
  rw [List.mem_filter, List.contains_iff_mem, Listed, ← and_assoc]
  refine and_congr_left fun _ => ⟨fun hmem => ?_, fun ⟨htrial, hgold⟩ => ?_⟩
  · obtain ⟨trial', htrial', hpair⟩ := Fallible.mem_of_mapM hall hmem
    split at hpair
    · next hgold =>
      cases hpair
      exact ⟨htrial', hgold⟩
    · cases hpair
  · obtain ⟨pair, hpair, htrial'⟩ := Fallible.mapM_of_mem hall htrial
    rw [hgold] at htrial'
    cases htrial'
    exact hpair

theorem scored_caseId {behavior : CaseBehaviorResult}
    (h : scoreCaseBehavior python trial gold documents = .ok behavior) :
    behavior.caseId = trial.caseId := by
  unfold scoreCaseBehavior at h
  split at h
  · cases h
  · next hcase =>
    rw [Decidable.not_not.mp hcase]
    split at h
    · cases h
      rfl
    · split at h
      · cases h
        rfl
      · obtain ⟨assertions, -, h⟩ := Fallible.bind_eq_ok.mp h
        cases h
        rfl

/-! ## The results -/

/-- Each result is of the metric it was calculated for. -/
theorem calculators_metricId {calculator : String × (List Pair → Except Error MetricResult)}
    (hmem : calculator ∈ calculators python documents behaviors)
    (h : calculator.2 pairs = .ok result) :
    result.metricId = calculator.1 := by
  have hrate : ∀ {metricId add passed count}, rateOf metricId add passed count pairs = .ok result →
      result.metricId = metricId := by
    intro metricId add passed count hrate
    obtain ⟨counted, -, hrate⟩ := Fallible.bind_eq_ok.mp hrate
    cases hrate
    rfl
  unfold calculators at hmem
  simp only [List.mem_cons, List.not_mem_nil, or_false] at hmem
  rcases hmem with rfl | rfl | rfl | rfl | rfl | rfl | rfl | rfl | rfl
  · exact hrate h
  · exact hrate h
  · exact hrate h
  · exact hrate h
  · exact hrate h
  · cases h
    rfl
  · cases h
    rfl
  · cases h
    rfl
  · obtain ⟨scored, -, h⟩ := Fallible.bind_eq_ok.mp h
    cases h
    rfl

/-- A metric is calculated once. -/
theorem calculators_unique
    {calculator calculator' : String × (List Pair → Except Error MetricResult)}
    (hmem : calculator ∈ calculators python documents behaviors)
    (hmem' : calculator' ∈ calculators python documents behaviors)
    (h : calculator.1 = calculator'.1) : calculator = calculator' := by
  have hnodup : ((calculators python documents behaviors).map Prod.fst).Nodup := by
    unfold calculators
    simp only [List.map_cons, List.map_nil]
    decide
  exact List.inj_on_of_nodup_map hnodup hmem hmem' h

/-- What the computation of the metrics goes through. -/
theorem calculateMetrics_ok {metrics : EvaluationMetrics}
    (h : calculateMetrics python trials golds documents version casesById costPerInputToken
      costPerOutputToken = .ok metrics) :
    ∃ ordered results, orderedTrials trials = .ok ordered ∧
      ordered.mapM (scoreTrial python golds documents) = .ok metrics.caseBehaviorResults ∧
      (calculators python documents metrics.caseBehaviorResults).mapM (calculate golds ordered) =
        .ok results ∧
      metrics.acceptanceMetrics = results.filterMap id := by
  unfold calculateMetrics at h
  split at h
  · obtain ⟨_, h, -⟩ := Fallible.bind_eq_ok.mp h
    cases h
  · obtain ⟨ordered, hordered, h⟩ := Fallible.bind_eq_ok.mp h
    obtain ⟨behaviors, hbehaviors, h⟩ := Fallible.bind_eq_ok.mp h
    obtain ⟨results, hresults, h⟩ := Fallible.bind_eq_ok.mp h
    obtain ⟨diagnostics, -, h⟩ := Fallible.bind_eq_ok.mp h
    cases h
    exact ⟨ordered, results, hordered, hbehaviors, hresults, rfl⟩

theorem calculate_ok {calculator : String × (List Pair → Except Error MetricResult)}
    {found : Option MetricResult} (h : calculate golds ordered calculator = .ok found) :
    ∃ pairs, applicable calculator.1 ordered golds = .ok pairs ∧
      (pairs = [] ∧ found = none ∨ pairs ≠ [] ∧ ∃ result, calculator.2 pairs = .ok result ∧
        found = some result) := by
  obtain ⟨pairs, hpairs, h⟩ := Fallible.bind_eq_ok.mp h
  refine ⟨pairs, hpairs, ?_⟩
  split at h
  · next hempty =>
    cases h
    exact .inl ⟨List.isEmpty_iff.mp hempty, rfl⟩
  · next hsome =>
    rw [List.isEmpty_iff] at hsome
    cases hresult : calculator.2 pairs with
    | error e =>
      rw [hresult] at h
      cases h
    | ok result =>
      rw [hresult] at h
      cases h
      exact .inr ⟨hsome, result, rfl, rfl⟩

/-- The result of a metric, if it is about a trial at all. -/
theorem metric_reported {metrics : EvaluationMetrics} {metricId : String}
    {calculator : List Pair → Except Error MetricResult}
    (h : calculateMetrics python trials golds documents version casesById costPerInputToken
      costPerOutputToken = .ok metrics)
    (hmem : (metricId, calculator) ∈ calculators python documents metrics.caseBehaviorResults) :
    ∃ ordered pairs, orderedTrials trials = .ok ordered ∧
      ordered.mapM (scoreTrial python golds documents) = .ok metrics.caseBehaviorResults ∧
      applicable metricId ordered golds = .ok pairs ∧
      ((pairs = [] ∧ ∀ result ∈ metrics.acceptanceMetrics, result.metricId ≠ metricId) ∨
        pairs ≠ [] ∧ ∃ result, calculator pairs = .ok result ∧
          ∀ other, other ∈ metrics.acceptanceMetrics ∧ other.metricId = metricId ↔
            other = result) := by
  obtain ⟨ordered, results, hordered, hbehaviors, hresults, hmetrics⟩ := calculateMetrics_ok h
  obtain ⟨found, hfound, hcalculate⟩ := Fallible.mapM_of_mem hresults hmem
  obtain ⟨pairs, hpairs, hcases⟩ := calculate_ok hcalculate
  refine ⟨ordered, pairs, hordered, hbehaviors, hpairs, ?_⟩
  have hreported : ∀ other ∈ metrics.acceptanceMetrics, other.metricId = metricId → pairs ≠ [] ∧
      calculator pairs = .ok other := by
    intro other hother hid
    rw [hmetrics] at hother
    obtain ⟨_, hother, rfl⟩ := List.mem_filterMap.mp hother
    obtain ⟨calculator', hcalculator, hcalculated⟩ := Fallible.mem_of_mapM hresults hother
    obtain ⟨pairs', hpairs', ⟨-, hnone⟩ | ⟨hne, result, hresult, hsame⟩⟩ := calculate_ok hcalculated
    · cases hnone
    · cases hsame
      cases calculators_unique hcalculator hmem
        ((calculators_metricId hcalculator hresult).symm.trans hid)
      cases hpairs.symm.trans hpairs'
      exact ⟨hne, hresult⟩
  rcases hcases with ⟨hempty, -⟩ | ⟨hne, result, hresult, rfl⟩
  · exact .inl ⟨hempty, fun other hother hid => (hreported other hother hid).1 hempty⟩
  · refine .inr ⟨hne, result, hresult, fun other => ⟨fun hother => ?_, ?_⟩⟩
    · cases hresult.symm.trans (hreported other hother.1 hother.2).2
      rfl
    · rintro rfl
      rw [hmetrics]
      exact ⟨List.mem_filterMap.mpr ⟨_, hfound, rfl⟩, calculators_metricId hmem hresult⟩

end ProjectAgent.Evaluation
