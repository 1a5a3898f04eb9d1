/-
When the deltas of a live ablation compare like with like. Both sides read the
same gold; they differ in the cases that could be scored.
-/
import ProjectAgent.Evaluation.Ablations

namespace ProjectAgent.Evaluation

open Json (Value)

variable {python : Python} {golds : GoldMap} {documents : Documents} {version metricId : String}
  {casesById : CaseMap} {costPerInputToken costPerOutputToken : Option Double.Number}
  {candidates : TrialArtifact → List EvidenceArtifact}
variable {trials ordered : List TrialArtifact} {pairs : List Pair} {trial : TrialArtifact}
  {gold : GoldRecord} {result : MetricResult}
  {metrics : EvaluationMetrics}

/-! ## What a metric is computed over -/

/-- The targets or groups that a metric goes through for a gold, if it goes through any. -/
def unitsOf (python : Python) (metricId : String) (gold : GoldRecord) : Option Nat :=
  if metricId = "exact_identifier_hit_at_10" then
    let targets := Value.get gold.expected "identifier_targets" (.list [])
    if targets.truthy then (iterate targets >>= targetGroups python).toOption.map List.length
      else none
  else (evidenceGroups python gold).toOption.bind fun groups => if groups.isEmpty then none
    else some groups.length

/-- What they add to the denominator: a case counts once for the recall. -/
def weight (metricId : String) (units : Nat) : Nat :=
  if metricId = "exact_identifier_hit_at_10" then units else 1

/-- The targets or groups of a case that a metric counts, once its trial could be scored. -/
def countsFor (python : Python) (golds : GoldMap) (metricId caseId : String) : Option Nat :=
  match golds caseId with
  | some gold =>
    if gold.metricApplicability.contains metricId && gold.scoring.status = .scorable then
      unitsOf python metricId gold else none
  | none => none

/-- The cases that a metric is computed over, each with its number of targets or groups. -/
def computedOver (python : Python) (golds : GoldMap) (metricId : String)
    (trials : List TrialArtifact) : List (String × Nat) :=
  trials.filterMap fun trial =>
    if trial.classification = .scored then (countsFor python golds metricId trial.caseId).map
      fun units => (trial.caseId, units)
    else none

/-- What all of them add to the denominator. -/
def total (metricId : String) (counted : List (String × Nat)) : Nat :=
  (counted.map fun item => weight metricId item.2).sum

/-- A case counts for its targets or groups. -/
def CountsUnits (python : Python) (metricId : String)
    (count : Pair → Except Error (Option Counted)) : Prop :=
  ∀ pair found, count pair = .ok found →
    found.map (fun counted => (counted.caseId, counted.total)) =
    (unitsOf python metricId pair.2).map fun units => (pair.1.caseId, weight metricId units)

theorem identifierCase_counts :
    CountsUnits python "exact_identifier_hit_at_10"
      (identifierCase python documents candidates) := by
  intro pair found h
  unfold unitsOf
  rw [if_pos rfl]
  unfold identifierCase at h
  dsimp only at h ⊢
  split at h
  · next hnone =>
    cases h
    rw [if_neg (by simpa using hnone)]
    rfl
  · next hsome =>
    obtain ⟨items, hitems, h⟩ := Fallible.bind_eq_ok.mp h
    obtain ⟨groups, hgroups, h⟩ := Fallible.bind_eq_ok.mp h
    cases h
    have hread : (iterate (Value.get pair.2.expected "identifier_targets" (.list [])) >>=
        targetGroups python) = .ok groups :=
      Fallible.bind_eq_ok.mpr ⟨items, hitems, hgroups⟩
    rw [if_pos (by simpa using hsome), hread]
    rfl

theorem evidenceCase_counts :
    CountsUnits python "evidence_recall_at_10" (evidenceCase python documents candidates) := by
  intro pair found h
  unfold unitsOf
  rw [if_neg (by simp)]
  obtain ⟨groups, hgroups, h⟩ := Fallible.bind_eq_ok.mp h
  cases h
  rw [hgroups]
  dsimp only [Except.toOption, Option.bind_some]
  split <;> rfl

/-- What the cases of a metric count for, as it is read off their golds. -/
theorem countedOf_units {count : Pair → Except Error (Option Counted)} {counted : List Counted}
    (hunits : CountsUnits python metricId count) (h : countedOf count pairs = .ok counted) :
    counted.map (fun counted => (counted.caseId, counted.total)) =
      (scorablePairs pairs).filterMap fun pair =>
        (unitsOf python metricId pair.2).map fun units =>
          (pair.1.caseId, weight metricId units) := by
  obtain ⟨found, hfound, h⟩ := Fallible.bind_eq_ok.mp h
  cases h
  clear h
  rw [Fallible.mapM_eq_ok] at hfound
  generalize scorablePairs pairs = scored at hfound ⊢
  induction hfound with
  | nil => rfl
  | @cons pair found pairs founds hhead _ ih =>
    have hpair := hunits pair found hhead
    rw [List.filterMap_cons, List.filterMap_cons, ← hpair, ← ih]
    cases found <;> rfl

theorem applicable_eq (h : applicable metricId trials golds = .ok pairs) :
    pairs = trials.filterMap fun trial =>
    match golds trial.caseId with
    | some gold => if gold.metricApplicability.contains metricId then some (trial, gold) else none
    | none => none := by
  obtain ⟨all, hall, h⟩ := Fallible.bind_eq_ok.mp h
  cases h
  clear h
  rw [Fallible.mapM_eq_ok] at hall
  induction hall with
  | nil => rfl
  | @cons trial pair trials pairs hhead _ ih =>
    rw [List.filterMap_cons, ← ih]
    cases hgold : golds trial.caseId with
    | none =>
      rw [hgold] at hhead
      cases hhead
    | some gold =>
      rw [hgold] at hhead
      cases hhead
      rw [List.filter_cons]
      dsimp only
      split <;> rfl

/-- **What a metric counts** is what it is computed over. -/
theorem counted_computedOver {count : Pair → Except Error (Option Counted)} {counted : List Counted}
    (hunits : CountsUnits python metricId count)
    (happlicable : applicable metricId trials golds = .ok pairs)
    (h : countedOf count pairs = .ok counted) :
    counted.map (fun counted => (counted.caseId, counted.total)) =
      (computedOver python golds metricId trials).map fun item =>
        (item.1, weight metricId item.2) := by
  rw [countedOf_units hunits h, applicable_eq happlicable]
  unfold scorablePairs computedOver
  rw [List.filter_filterMap, List.filterMap_filterMap, List.map_filterMap]
  congr 1
  funext trial
  unfold countsFor
  cases golds trial.caseId with
  | none =>
    dsimp only [Option.filter, Option.bind]
    split <;> rfl
  | some gold =>
    by_cases hlisted : gold.metricApplicability.contains metricId = true
    · by_cases hgold : gold.scoring.status = .scorable
      · by_cases htrial : trial.classification = .scored
        · simp only [hlisted, hgold, htrial, scorable, Option.filter, decide_true, Bool.and_self,
            if_true, Option.bind_some, Option.map_map,
            Function.comp_def]
        · simp only [hlisted, htrial, scorable, Option.filter, decide_false, Bool.and_false,
            if_true, if_false, Bool.false_eq_true,
            Option.bind_none, Option.map_none]
      · simp only [hlisted, hgold, scorable, Option.filter, decide_false, Bool.false_and,
          Bool.and_false, if_true, Bool.false_eq_true,
          if_false, Option.bind_none, Option.map_none, ite_self]
    · simp only [hlisted, Bool.false_and, Bool.false_eq_true, if_false, Option.filter_none,
        Option.bind_none, Option.map_none, ite_self]

theorem computedOver_perm (h : ordered.Perm trials) :
    (computedOver python golds metricId ordered).Perm (computedOver python golds metricId trials) :=
  h.filterMap _

/-- What is reported of a rate: it is of the cases it is computed over, and of what they add to the
denominator. -/
theorem rate_reported {add : List ℚ → ℚ} {passed : ℚ → Bool}
    {count : Pair → Except Error (Option Counted)}
    (h : calculateMetrics python trials golds documents version casesById costPerInputToken
      costPerOutputToken = .ok metrics)
    (hunits : CountsUnits python metricId count)
    (hmem : (metricId, rateOf metricId add passed count) ∈
      calculators python documents metrics.caseBehaviorResults) :
    (resultOf metrics metricId = none ∧ computedOver python golds metricId trials = []) ∨
      ∃ result, resultOf metrics metricId = some result ∧
        (∀ caseId, caseId ∈ result.caseIds ↔
          caseId ∈ (computedOver python golds metricId trials).map Prod.fst) ∧
        result.denominator = total metricId (computedOver python golds metricId trials) ∧
        (result.measured = none ↔ result.denominator = 0) := by
  obtain ⟨ordered, pairs, hordered, -, happlicable, hreported⟩ := metric_reported h hmem
  have hperm := @computedOver_perm python golds metricId _ _ (orderedTrials_ok hordered).1
  rcases hreported with ⟨rfl, hnone⟩ | ⟨-, result, hresult, hiff⟩
  · have hempty : countedOf count [] = .ok [] := rfl
    have hover := counted_computedOver hunits happlicable hempty
    rw [List.map_nil, List.nil_eq, List.map_eq_nil_iff] at hover
    rw [hover, List.nil_perm] at hperm
    exact .inl ⟨List.find?_eq_none.mpr fun result hresult => by
      simpa using hnone result hresult, hperm⟩
  · obtain ⟨counted, hcounted, hresult⟩ := Fallible.bind_eq_ok.mp hresult
    have hover := counted_computedOver hunits happlicable hcounted
    have hfind : resultOf metrics metricId = some result := by
      obtain ⟨hmetric, hid⟩ := (hiff result).mpr rfl
      obtain ⟨found, hfound⟩ : ∃ found, resultOf metrics metricId = some found := by
        unfold resultOf
        rw [← Option.isSome_iff_exists, List.find?_isSome]
        exact ⟨result, hmetric, decide_eq_true hid⟩
      have hid' : found.metricId = metricId := by simpa using List.find?_some hfound
      rw [hfound, (hiff found).mp ⟨List.mem_of_find?_eq_some hfound, hid'⟩]
    have hids : counted.map (·.caseId) =
        (computedOver python golds metricId ordered).map Prod.fst := by
      have hfst := congrArg (List.map Prod.fst) hover
      rw [List.map_map, List.map_map] at hfst
      exact hfst
    have htotal : (counted.map (·.total)).sum =
        total metricId (computedOver python golds metricId trials) := by
      have hsnd := congrArg (List.map Prod.snd) hover
      rw [List.map_map, List.map_map] at hsnd
      unfold total
      rw [← (hperm.map fun item => weight metricId item.2).sum_nat]
      exact congrArg List.sum hsnd
    cases hresult
    refine .inr ⟨_, hfind, fun caseId => ?_, htotal, ?_⟩
    · show caseId ∈ sortedIds (counted.map (·.caseId)) ↔ _
      unfold sortedIds
      rw [(List.perm_insertionSort _ _).mem_iff, hids, (hperm.map Prod.fst).mem_iff]
    · show (if (counted.map (·.total)).sum = 0 then none else some _) = none ↔
        (counted.map (·.total)).sum = 0
      split
      · next hzero => exact ⟨fun _ => hzero, fun _ => rfl⟩
      · next hpositive => exact ⟨nofun, fun hzero => absurd hzero hpositive⟩

/-! ## Matched trials -/

variable {baseline variant : List TrialArtifact} {both both' : TrialArtifact × TrialArtifact}

theorem byCase_caseId {caseId : String} (h : (byCase trials).lookup caseId = some trial) :
    trial.caseId = caseId := by
  obtain ⟨before, after, hsplit, -⟩ := List.lookup_eq_some_iff.mp h
  have hmem : (caseId, trial) ∈ byCase trials := hsplit ▸ List.mem_append_right _ List.mem_cons_self
  obtain ⟨trial', -, hsame⟩ := List.mem_map.mp (Assigned.mem_collect hmem)
  cases hsame
  rfl

/-- What is found for a case. -/
theorem matched_found {caseId : String}
    (h : (match (byCase baseline).lookup caseId, (byCase variant).lookup caseId with
    | some base, some changed =>
      if failed base || failed changed then none else some (base, changed)
    | _, _ => none) = some both) : both.1.caseId = caseId ∧ both.2.caseId = caseId := by
  split at h
  · next base changed hbase hchanged =>
    split at h
    · cases h
    · cases h
      exact ⟨byCase_caseId hbase, byCase_caseId hchanged⟩
  · cases h

theorem matched_caseId (h : both ∈ matchedTrials baseline variant) :
    both.2.caseId = both.1.caseId := by
  obtain ⟨caseId, -, hfound⟩ := List.mem_filterMap.mp h
  obtain ⟨hbase, hchanged⟩ := matched_found hfound
  exact hchanged.trans hbase.symm

/-- A case is matched once. -/
theorem matched_unique (h : both ∈ matchedTrials baseline variant)
    (h' : both' ∈ matchedTrials baseline variant) (hsame : both.1.caseId = both'.1.caseId) :
    both = both' := by
  obtain ⟨caseId, -, hfound⟩ := List.mem_filterMap.mp h
  obtain ⟨caseId', -, hfound'⟩ := List.mem_filterMap.mp h'
  have heq : caseId = caseId' :=
    (matched_found hfound).1.symm.trans (hsame.trans (matched_found hfound').1)
  subst heq
  exact Option.some.inj (hfound.symm.trans hfound')

/-! ## Like with like -/

/-- A matched case that counts for a metric could be scored on both sides, or on neither. -/
def Steady (python : Python) (golds : GoldMap) (metricId : String)
    (matched : List (TrialArtifact × TrialArtifact)) : Prop :=
  ∀ both ∈ matched, (countsFor python golds metricId both.1.caseId).isSome →
    (both.1.classification = .scored ↔ both.2.classification = .scored)

/-- The two sides are computed over the same cases, each with the same number of targets or
groups. -/
def SameCases (python : Python) (golds : GoldMap) (metricId : String)
    (matched : List (TrialArtifact × TrialArtifact)) : Prop :=
  ∀ item, item ∈ computedOver python golds metricId (matched.map Prod.fst) ↔
    item ∈ computedOver python golds metricId (matched.map Prod.snd)

theorem mem_computedOver {caseId : String} {units : Nat} :
    (caseId, units) ∈ computedOver python golds metricId trials ↔
    ∃ trial ∈ trials, trial.classification = .scored ∧ trial.caseId = caseId ∧
      countsFor python golds metricId caseId = some units := by
  unfold computedOver
  rw [List.mem_filterMap]
  refine exists_congr fun trial => and_congr_right fun _ => ?_
  split
  · next hscored =>
    rw [and_iff_right hscored, Option.map_eq_some_iff]
    constructor
    · rintro ⟨units', hcounts, hsame⟩
      cases hsame
      exact ⟨rfl, hcounts⟩
    · rintro ⟨rfl, hcounts⟩
      exact ⟨units, hcounts, rfl⟩
  · next hunscored => exact ⟨nofun, fun h => absurd h.1 hunscored⟩

theorem steady_iff : Steady python golds metricId (matchedTrials baseline variant) ↔
    SameCases python golds metricId (matchedTrials baseline variant) := by
  constructor
  · rintro hsteady ⟨caseId, units⟩
    rw [mem_computedOver, mem_computedOver]
    constructor
    · rintro ⟨base, hbase, hscored, rfl, hcounts⟩
      obtain ⟨both, hboth, rfl⟩ := List.mem_map.mp hbase
      have hsome : (countsFor python golds metricId both.1.caseId).isSome :=
        Option.isSome_of_eq_some hcounts
      exact ⟨both.2, List.mem_map_of_mem hboth, (hsteady both hboth hsome).mp hscored,
        matched_caseId hboth, hcounts⟩
    · rintro ⟨changed, hchanged, hscored, rfl, hcounts⟩
      obtain ⟨both, hboth, rfl⟩ := List.mem_map.mp hchanged
      have hsame := matched_caseId hboth
      have hsome : (countsFor python golds metricId both.1.caseId).isSome :=
        hsame ▸ Option.isSome_of_eq_some hcounts
      exact ⟨both.1, List.mem_map_of_mem hboth, (hsteady both hboth hsome).mpr hscored,
        hsame.symm, hcounts⟩
  · intro hcases both hboth hcounts
    obtain ⟨units, hunits⟩ := Option.isSome_iff_exists.mp hcounts
    have hitem := hcases (both.1.caseId, units)
    rw [mem_computedOver, mem_computedOver] at hitem
    constructor
    · intro hscored
      obtain ⟨changed, hchanged, hscored', hid, -⟩ :=
        hitem.mp ⟨both.1, List.mem_map_of_mem hboth, hscored, rfl, hunits⟩
      obtain ⟨both', hboth', rfl⟩ := List.mem_map.mp hchanged
      rwa [matched_unique hboth hboth' (hid.symm.trans (matched_caseId hboth'))]
    · intro hscored
      obtain ⟨base, hbase, hscored', hid, -⟩ :=
        hitem.mpr ⟨both.2, List.mem_map_of_mem hboth, hscored, matched_caseId hboth, hunits⟩
      obtain ⟨both', hboth', rfl⟩ := List.mem_map.mp hbase
      rwa [matched_unique hboth hboth' hid.symm]

/-- Both metrics of a live ablation are rates. -/
theorem ablation_reported (h : calculateMetrics python trials golds documents version casesById
      costPerInputToken costPerOutputToken = .ok metrics) (hmetric : metricId ∈ ablationMetrics) :
    (resultOf metrics metricId = none ∧ computedOver python golds metricId trials = []) ∨
      ∃ result, resultOf metrics metricId = some result ∧
        (∀ caseId, caseId ∈ result.caseIds ↔
          caseId ∈ (computedOver python golds metricId trials).map Prod.fst) ∧
        result.denominator = total metricId (computedOver python golds metricId trials) ∧
        (result.measured = none ↔ result.denominator = 0) := by
  rcases List.mem_cons.mp hmetric with rfl | hmetric
  · have hmem : ("exact_identifier_hit_at_10", identifierResult python documents finalCandidates) ∈
        calculators python documents metrics.caseBehaviorResults := by simp [calculators]
    exact rate_reported h identifierCase_counts hmem
  · cases List.mem_singleton.mp hmetric
    have hmem : ("evidence_recall_at_10", evidenceResult python documents finalCandidates) ∈
        calculators python documents metrics.caseBehaviorResults := by simp [calculators]
    exact rate_reported h evidenceCase_counts hmem

variable {left right : List TrialArtifact} {leftMetrics rightMetrics : EvaluationMetrics}

theorem difference_none {changed base : Option ℚ} :
    difference subtractRates changed base = none ↔ changed = none ∨ base = none := by
  cases changed with
  | none => exact ⟨fun _ => .inl rfl, fun _ => rfl⟩
  | some right =>
    cases base with
    | none => exact ⟨fun _ => .inr rfl, fun _ => rfl⟩
    | some left => exact ⟨nofun, fun h => h.elim nofun nofun⟩

/-- A delta is of the two denominators alone: it is there where they are the same, and not none. -/
theorem metricDelta_cases
    (hleft : calculateMetrics python left golds documents version casesById costPerInputToken
      costPerOutputToken = .ok leftMetrics)
    (hright : calculateMetrics python right golds documents version casesById costPerInputToken
      costPerOutputToken = .ok rightMetrics) (hmetric : metricId ∈ ablationMetrics) :
    (metricDelta leftMetrics rightMetrics metricId = none ∧
      (total metricId (computedOver python golds metricId left) = 0 ∨
        total metricId (computedOver python golds metricId right) = 0)) ∨
      ∃ delta, metricDelta leftMetrics rightMetrics metricId = some delta ∧
        delta.metricId = metricId ∧
        delta.baselineDenominator = total metricId (computedOver python golds metricId left) ∧
        delta.variantDenominator = total metricId (computedOver python golds metricId right) ∧
        (delta.delta ≠ none ↔ delta.baselineDenominator = delta.variantDenominator ∧
          delta.baselineDenominator ≠ 0) := by
  unfold metricDelta
  rcases ablation_reported hleft hmetric with ⟨hnone, hempty⟩ |
    ⟨leftResult, hresult, -, htotal, hmeasured⟩
  · rw [hnone, hempty]
    exact .inl ⟨rfl, .inl rfl⟩
  · rcases ablation_reported hright hmetric with ⟨hnone, hempty⟩ |
      ⟨rightResult, hresult', -, htotal', hmeasured'⟩
    · rw [hresult, hnone, hempty]
      exact .inl ⟨rfl, .inr rfl⟩
    · rw [hresult, hresult']
      refine .inr ⟨_, rfl, rfl, htotal, htotal', ?_⟩
      dsimp only
      by_cases hsame : leftResult.denominator = rightResult.denominator
      · rw [if_pos hsame, Ne, difference_none, hmeasured, hmeasured', ← hsame, or_self,
          and_iff_right rfl]
      · rw [if_neg hsame]
        exact ⟨fun h => absurd rfl h, fun h => absurd h.1 hsame⟩

/-- Every delta that is there is of values over the same cases. -/
def LikeWithLike (python : Python) (golds : GoldMap)
    (matched : List (TrialArtifact × TrialArtifact)) (deltas : List MetricDelta) : Prop :=
  ∀ delta ∈ deltas, delta.delta ≠ none → SameCases python golds delta.metricId matched

/-- The totals of what the two sides of a metric are computed over. -/
def baseTotal (python : Python) (golds : GoldMap) (metricId : String)
    (matched : List (TrialArtifact × TrialArtifact)) : Nat :=
  total metricId (computedOver python golds metricId (matched.map Prod.fst))

def variantTotal (python : Python) (golds : GoldMap) (metricId : String)
    (matched : List (TrialArtifact × TrialArtifact)) : Nat :=
  total metricId (computedOver python golds metricId (matched.map Prod.snd))

/-- **When a live ablation compares like with like**: just where, for both metrics, every matched
case that counts could be scored on both sides or on neither, or where the two totals differ or are
none, so that there is no delta. -/
theorem live_ablation_like {name baselineRunId variantRunId : String} {dataset : EvaluationDataset}
    {result : LiveAblation}
    (h : buildLiveAblationResult python name baseline variant baselineRunId variantRunId dataset =
      .ok result) :
    LikeWithLike python dataset.goldByCase (matchedTrials baseline variant) result.metricDeltas ↔
      ∀ metricId ∈ ablationMetrics,
        Steady python dataset.goldByCase metricId (matchedTrials baseline variant) ∨
        baseTotal python dataset.goldByCase metricId (matchedTrials baseline variant) ≠
          variantTotal python dataset.goldByCase metricId (matchedTrials baseline variant) ∨
        baseTotal python dataset.goldByCase metricId (matchedTrials baseline variant) = 0 := by
  obtain ⟨selected, -, h⟩ := Fallible.bind_eq_ok.mp h
  split at h
  · obtain ⟨_, h, -⟩ := Fallible.bind_eq_ok.mp h
    cases h
  · obtain ⟨leftMetrics, hleft, h⟩ := Fallible.bind_eq_ok.mp h
    obtain ⟨rightMetrics, hright, h⟩ := Fallible.bind_eq_ok.mp h
    obtain ⟨baseOps, -, h⟩ := Fallible.bind_eq_ok.mp h
    obtain ⟨changedOps, -, h⟩ := Fallible.bind_eq_ok.mp h
    cases h
    unfold baseTotal variantTotal
    constructor
    · intro hlike metricId hmetric
      rw [steady_iff]
      rcases metricDelta_cases hleft hright hmetric with ⟨-, hzero | hzero⟩ |
        ⟨delta, hdelta, rfl, hbase, hvariant, hiff⟩
      · exact .inr (.inr hzero)
      · by_cases hbase : total metricId
          (computedOver python dataset.goldByCase metricId
          ((matchedTrials baseline variant).map Prod.fst)) = 0
        · exact .inr (.inr hbase)
        · exact .inr (.inl fun hsame => hbase (hsame.trans hzero))
      · rw [hbase, hvariant] at hiff
        by_cases hthere : delta.delta = none
        · have hnot := mt hiff.mpr (not_not.mpr hthere)
          rw [not_and_or, not_not] at hnot
          exact .inr hnot
        · exact .inl (hlike delta (List.mem_filterMap.mpr ⟨_, hmetric, hdelta⟩) hthere)
    · intro hall delta hmem hthere
      obtain ⟨metricId, hmetric, hdelta⟩ := List.mem_filterMap.mp hmem
      rcases metricDelta_cases hleft hright hmetric with ⟨hnone, -⟩ |
        ⟨delta', hdelta', rfl, hbase, hvariant, hiff⟩
      · cases hnone.symm.trans hdelta
      · cases hdelta'.symm.trans hdelta
        rw [hbase, hvariant] at hiff
        obtain ⟨hsame, hsome⟩ := hiff.mp hthere
        rcases hall _ hmetric with hsteady | hdiffer | hzero
        · exact steady_iff.mp hsteady
        · exact absurd hsame hdiffer
        · exact absurd hzero hsome

/-- A case with one target. -/
def targetGold (caseId : String) : GoldRecord where
  caseId := caseId
  runProtocol := .singleRun
  expected :=
    [("identifier_targets", .list [.dict [("acceptable_doc_codes", .list [.str "A-REQ-001"])]])]
  metricApplicability := ["exact_identifier_hit_at_10"]
  scoring := ⟨.scorable, none⟩

def caseTrial (caseId : String) (classification : TrialClassification) : TrialArtifact where
  caseId := caseId
  trialNo := 1
  classification := classification
  projectCode := "PRJ-RETAIL-ALPHA"
  httpStatus := none
  runId := none
  statusTransitions := []
  latencyMs := none
  inputTokens := none
  outputTokens := none
  totalTokens := none
  retrievalRounds :=
    [⟨1, [⟨"e1", some "A-REQ-001", none, some 1, some "PUBLISHED", some true, []⟩]⟩]
  finalRetrievalRound := none
  governedEvidence := []
  answer := none
  refusalReason := none
  citations := []
  issue := none
  metadata := []

/-- The one case could only be scored in the baseline, the other one only in the variant. -/
def crossedBaseline : List TrialArtifact :=
  [caseTrial "Q1" .scored, caseTrial "Q2" .unscorableRuntimeScope]

def crossedVariant : List TrialArtifact :=
  [caseTrial "Q1" .unscorableRuntimeScope, caseTrial "Q2" .scored]

def crossedDataset : EvaluationDataset :=
  ⟨"v1", [], fun caseId => some (targetGold caseId), fun _ => none⟩

def asciiPython : Python where
  casefold := id
  split := fun text => [text]
  strip := id
  repr := fun _ => ""
  int := fun _ => .error .typeError

def crossed : Except Error LiveAblation :=
  buildLiveAblationResult asciiPython "no_exact_registry" crossedBaseline crossedVariant "b" "v"
    crossedDataset

theorem crossed_delta : (match crossed with
    | .ok result => result.metricDeltas.map fun delta => (delta.metricId, delta.delta)
    | .error _ => []) = [("exact_identifier_hit_at_10", some 0)] := by
  decide +kernel

/-- **The totals are one each, of different cases**. -/
theorem crossed_not_like :
    ¬ ∀ python name baseline variant baselineRunId variantRunId dataset result,
    buildLiveAblationResult python name baseline variant baselineRunId variantRunId dataset =
      .ok result →
    LikeWithLike python dataset.goldByCase
      (matchedTrials baseline variant) result.metricDeltas := by
  intro hall
  have hdelta := crossed_delta
  split at hdelta
  · next result hresult =>
    have hlike := hall _ _ _ _ _ _ _ result hresult
    obtain ⟨delta, hmem, hsame⟩ :=
      List.mem_map.mp (hdelta ▸ List.mem_singleton_self ("exact_identifier_hit_at_10", some 0))
    have hthere : delta.delta ≠ none := by
      rw [(Prod.mk.inj hsame).2]
      exact nofun
    have hcases := hlike delta hmem hthere ("Q1", 1)
    rw [(Prod.mk.inj hsame).1] at hcases
    exact absurd (hcases.mp (by decide +kernel)) (by decide +kernel)
  · cases hdelta

/-- The one case is scored on both sides, without a retrieval in the variant; the other one on
neither. -/
def steadyVariant : List TrialArtifact :=
  [{ caseTrial "Q1" .scored with retrievalRounds := [] }, caseTrial "Q2" .unscorableRuntimeScope]

def steadyBaseline : List TrialArtifact :=
  [caseTrial "Q1" .scored, caseTrial "Q2" .unscorableRuntimeScope]

def steadyPair : Except Error LiveAblation :=
  buildLiveAblationResult asciiPython "no_exact_registry" steadyBaseline steadyVariant "b" "v"
    crossedDataset

theorem steadyPair_delta : (match steadyPair with
    | .ok result => result.metricDeltas.map fun delta => (delta.metricId, delta.delta)
    | .error _ => []) = [("exact_identifier_hit_at_10", some (-1))] := by
  decide +kernel

theorem live_ablation_like_sample :
    (∃ result, steadyPair = .ok result ∧
      (result.metricDeltas.map fun delta => (delta.metricId, delta.delta)) =
        [("exact_identifier_hit_at_10", some (-1))] ∧
      LikeWithLike asciiPython crossedDataset.goldByCase
        (matchedTrials steadyBaseline steadyVariant)
        result.metricDeltas) ∧
    ∃ result, crossed = .ok result ∧
      ¬ LikeWithLike asciiPython crossedDataset.goldByCase
        (matchedTrials crossedBaseline crossedVariant)
        result.metricDeltas := by
  constructor
  · have hdelta := steadyPair_delta
    split at hdelta
    · next result hresult =>
      have hscored : ∀ both ∈ matchedTrials steadyBaseline steadyVariant,
          (both.1.classification = .scored ↔ both.2.classification = .scored) := by decide +kernel
      exact ⟨result, hresult, hdelta,
        (live_ablation_like hresult).mpr fun _ _ => .inl fun both hboth _ => hscored both hboth⟩
    · cases hdelta
  · have hdelta := crossed_delta
    split at hdelta
    · next result hresult =>
      refine ⟨result, hresult, fun hlike => ?_⟩
      have htotal : baseTotal asciiPython crossedDataset.goldByCase "exact_identifier_hit_at_10"
          (matchedTrials crossedBaseline crossedVariant) = 1 := by decide +kernel
      have htotal' : variantTotal asciiPython crossedDataset.goldByCase "exact_identifier_hit_at_10"
          (matchedTrials crossedBaseline crossedVariant) = 1 := by decide +kernel
      have hcases := (live_ablation_like hresult).mp hlike "exact_identifier_hit_at_10"
        List.mem_cons_self
      rw [htotal, htotal'] at hcases
      rcases hcases with hsteady | hdiffer | hzero
      · have hsame := steady_iff.mp hsteady ("Q1", 1)
        exact absurd (hsame.mp (by decide +kernel)) (by decide +kernel)
      · exact hdiffer rfl
      · cases hzero
    · cases hdelta

end ProjectAgent.Evaluation
