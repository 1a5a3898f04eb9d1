/-
The critical regression fails closed: what `calculate_metrics` reports about it
is PASS just where its gold could be scored, its trial was and every assertion
holds, for each of the trials that it is about. A gold that cannot be read, or a
number that is too large, of any trial leaves nothing reported at all.
-/
import ProjectAgent.Evaluation.Returns
import ProjectAgent.Evaluation.Scope

namespace ProjectAgent.Evaluation

open Json (Value)

variable {python : Python} {golds : GoldMap} {documents : Documents} {version : String}
variable {trials ordered : List TrialArtifact} {behaviors : List CaseBehaviorResult}
  {pairs : List Pair} {trial : TrialArtifact}
  {gold : GoldRecord} {result : MetricResult}

/-! ## One case -/

/-- Its gold can be scored, its trial was, and every assertion of its gold holds. -/
def Proven (python : Python) (documents : Documents) (trial : TrialArtifact)
    (gold : GoldRecord) : Prop :=
  gold.scoring.status = .scorable ∧ trial.classification = .scored ∧
    ∃ assertions, behaviorAssertions python trial gold.expected documents = .ok assertions ∧
      ∀ assertion ∈ assertions, assertion.passed

/-- **A case passes if it is proven**. -/
theorem scored_pass {behavior : CaseBehaviorResult}
    (h : scoreCaseBehavior python trial gold documents = .ok behavior) :
    behavior.status = .pass ↔ Proven python documents trial gold := by
  unfold scoreCaseBehavior at h
  split at h
  · cases h
  · split at h
    · next hgold =>
      cases h
      exact ⟨nofun, fun hproven => absurd hproven.1 hgold⟩
    · next hgold =>
      split at h
      · next htrial =>
        cases h
        exact ⟨nofun, fun hproven => absurd hproven.2.1 htrial⟩
      · next htrial =>
        obtain ⟨assertions, hassertions, h⟩ := Fallible.bind_eq_ok.mp h
        cases h
        dsimp only
        split
        · next hall =>
          exact ⟨fun _ => ⟨Decidable.not_not.mp hgold, Decidable.not_not.mp htrial, assertions,
            hassertions, List.all_eq_true.mp hall⟩,
            fun _ => rfl⟩
        · next hsome =>
          refine ⟨nofun, fun hproven => absurd ?_ hsome⟩
          obtain ⟨-, -, assertions', hassertions', hall⟩ := hproven
          cases hassertions.symm.trans hassertions'
          exact List.all_eq_true.mpr hall

/-- The gold asks for evidence, and none that would do was governed. -/
def MissingEvidence (python : Python) (trial : TrialArtifact) (gold : GoldRecord) : Prop :=
  ∃ items groups, iterate (Value.get gold.expected "required_evidence_groups" (.list [])) =
    .ok items ∧
    items.mapM python.strs = .ok groups ∧ ∃ group ∈ groups, ∀ code ∈ group,
      some code ∉ governedCodes trial

theorem MissingEvidence.not_proven (h : MissingEvidence python trial gold) :
    ¬ Proven python documents trial gold := by
  rintro ⟨-, -, assertions, hassertions, hall⟩
  obtain ⟨items, groups, hitems, hgroups, group, hgroup, hmissing⟩ := h
  obtain ⟨http, -, hassertions⟩ := Fallible.bind_eq_ok.mp hassertions
  obtain ⟨run, -, hassertions⟩ := Fallible.bind_eq_ok.mp hassertions
  obtain ⟨answer, -, hassertions⟩ := Fallible.bind_eq_ok.mp hassertions
  obtain ⟨evidence, hevidence, hassertions⟩ := Fallible.bind_eq_ok.mp hassertions
  obtain ⟨citations, -, hassertions⟩ := Fallible.bind_eq_ok.mp hassertions
  obtain ⟨tool, -, hassertions⟩ := Fallible.bind_eq_ok.mp hassertions
  obtain ⟨issue, -, hassertions⟩ := Fallible.bind_eq_ok.mp hassertions
  obtain ⟨safety, -, hassertions⟩ := Fallible.bind_eq_ok.mp hassertions
  obtain ⟨forbidden, -, hevidence⟩ := Fallible.bind_eq_ok.mp hevidence
  obtain ⟨items', hitems', hevidence⟩ := Fallible.bind_eq_ok.mp hevidence
  cases hitems.symm.trans hitems'
  obtain ⟨groups', hgroups', hevidence⟩ := Fallible.bind_eq_ok.mp hevidence
  cases hgroups.symm.trans hgroups'
  cases hevidence
  cases hassertions
  obtain ⟨index, hindex, hget⟩ := List.getElem_of_mem hgroup
  have hzip : (group, index) ∈ groups.zipIdx := by
    rw [List.mem_zipIdx_iff_getElem?, List.getElem?_eq_getElem hindex, hget]
  have hmem : groupAssertion "required_evidence_group" (governedCodes trial) group index ∈
      groups.zipIdx.map fun group =>
        groupAssertion "required_evidence_group" (governedCodes trial) group.1 group.2 :=
    List.mem_map.mpr ⟨_, hzip, rfl⟩
  have hpassed := hall (groupAssertion "required_evidence_group" (governedCodes trial) group index)
    (by simp [hmem])
  obtain ⟨code, hcode, hfound⟩ := List.any_eq_true.mp hpassed
  exact hmissing code hcode (List.contains_iff_mem.mp hfound)

/-! ## Rates -/

theorem sum_indicator {α : Type} (P : α → Prop) [DecidablePred P] (l : List α) :
    (l.map fun a => if P a then (1 : ℚ) else 0).sum = (l.countP (P ·) : ℕ) := by
  induction l with
  | nil => rfl
  | cons a l ih =>
    rw [List.map_cons, List.sum_cons, ih, List.countP_cons]
    by_cases ha : P a
    · rw [if_pos ha, if_pos (decide_eq_true ha), Nat.cast_add, Nat.cast_one, add_comm]
    · rw [if_neg ha, if_neg (by simpa using ha), zero_add, add_zero]

/-- Rounded to a double it is one for the same counts, up to so many cases. -/
theorem rate_rounded {passed total : ℕ} (hpassed : passed ≤ total) (htotal : 0 < total)
    (hcases : total ≤ 2 ^ 53) :
    Double.double (passed / total) = 1 ↔ (passed / total : ℚ) = 1 := by
  have hne : (total : ℚ) ≠ 0 := Nat.cast_ne_zero.mpr htotal.ne'
  rcases hpassed.lt_or_eq with hless | rfl
  · have hround := Double.double_div_lt_one hless hcases
    refine ⟨fun h => absurd h hround.ne, fun h => ?_⟩
    rw [div_eq_one_iff_eq hne, Nat.cast_inj] at h
    exact absurd h hless.ne
  · rw [div_self hne, Double.double_one]

/-- All of them counted when the rate is one. -/
theorem rate_eq_one {α : Type} {l : List α} {P : α → Prop} [DecidablePred P] (hne : l ≠ [])
    (hcases : l.length ≤ 2 ^ 53) :
    Double.double ((l.map fun a => if P a then (1 : ℚ) else 0).sum / l.length) = 1 ↔
      ∀ a ∈ l, P a := by
  have hpositive : 0 < l.length := List.length_pos_of_ne_nil hne
  rw [sum_indicator, rate_rounded List.countP_le_length hpositive hcases,
    div_eq_one_iff_eq (Nat.cast_ne_zero.mpr hpositive.ne'), Nat.cast_inj, List.countP_eq_length]
  exact forall₂_congr fun _ _ => decide_eq_true_iff

/-! ## The metric -/

/-- Every case that the metric is about passed. -/
theorem criticalResult_pass (h : criticalResult behaviors pairs = .ok result)
    (hcases : pairs.length ≤ 2 ^ 53) :
    (result.status = .pass ↔ pairs ≠ [] ∧
      ∀ pair ∈ pairs, behaviorOf behaviors pair = .ok (pair, some .pass)) ∧
      (pairs ≠ [] → result.status ≠ .notApplicable) := by
  obtain ⟨scored, hscored, h⟩ := Fallible.bind_eq_ok.mp h
  cases h
  have hfst : ∀ pair item, behaviorOf behaviors pair = .ok item → item.1 = pair := by
    intro pair item hitem
    unfold behaviorOf at hitem
    split at hitem
    · cases hitem
      rfl
    · split at hitem
      · cases hitem
        rfl
      · cases hitem
  have hsame : pairs.length = scored.length := (Fallible.mapM_eq_ok.mp hscored).length_eq
  have hempty : scored = [] ↔ pairs = [] := by
    rw [← List.length_eq_zero_iff, ← List.length_eq_zero_iff, hsame]
  have hall : (∀ pair ∈ pairs, behaviorOf behaviors pair = .ok (pair, some .pass)) ↔
      ∀ item ∈ scored, item.2 = some .pass := by
    constructor
    · intro hpass item hitem
      obtain ⟨pair, hpair, hbehavior⟩ := Fallible.mem_of_mapM hscored hitem
      cases (hpass pair hpair).symm.trans hbehavior
      rfl
    · intro hpass pair hpair
      obtain ⟨⟨pair', status⟩, hitem, hbehavior⟩ := Fallible.mapM_of_mem hscored hpair
      cases hfst pair _ hbehavior
      cases hpass _ hitem
      exact hbehavior
  have hsome : pairs ≠ [] ↔ scored ≠ [] := not_congr hempty.symm
  rw [hsome, hall]
  dsimp only
  rw [List.isEmpty_map]
  by_cases hunscorable : (scored.filter fun item => isUnscorable item.2) = []
  · have hscorable : (scored.filter fun item => !isUnscorable item.2) = scored := by
      refine List.filter_eq_self.mpr fun item hitem => ?_
      have hnot := List.filter_eq_nil_iff.mp hunscorable item hitem
      simpa using hnot
    rw [hunscorable, hscorable, List.isEmpty_nil, if_pos rfl]
    unfold rateResult
    dsimp only
    simp only [List.map_map, Function.comp_def, List.map_const', List.sum_replicate_nat,
      Nat.mul_one]
    unfold baseStatus
    rcases hsplit : scored with _ | ⟨first, rest⟩
    · have hpairs : pairs = [] := hempty.mp hsplit
      subst hpairs
      exact ⟨⟨nofun, fun hne => absurd rfl hne.1⟩, fun hne => absurd rfl hne⟩
    · rw [← hsplit]
      have hne : scored ≠ [] := hsplit ▸ List.cons_ne_nil _ _
      have hpairs : pairs.isEmpty = false := by
        rw [← Bool.not_eq_true, List.isEmpty_iff]
        exact mt hempty.mpr hne
      have hlength : scored.length ≠ 0 := mt List.length_eq_zero_iff.mp hne
      rw [hpairs, if_neg (by decide), if_neg hlength, if_neg hlength, Option.getD_none]
      unfold rateStatus
      dsimp only
      simp only [decide_eq_true_iff]
      rw [← rate_eq_one (P := fun item => item.2 = some MetricStatus.pass) hne (hsame ▸ hcases)]
      split
      · next hone => exact ⟨⟨fun _ => ⟨hne, hone⟩, fun _ => rfl⟩, fun _ => nofun⟩
      · next hless => exact ⟨⟨nofun, fun hpass => absurd hpass.2 hless⟩, fun _ => nofun⟩
  · rw [if_neg (by simpa using hunscorable)]
    refine ⟨⟨nofun, fun hpass => absurd ?_ hunscorable⟩, fun _ => nofun⟩
    refine List.filter_eq_nil_iff.mpr fun item hitem => ?_
    rw [hpass.2 item hitem]
    decide

/-! ## Failing closed -/

/-- How a case was scored is found by its id, as no case has two trials. -/
theorem behaviorOf_scored (hdistinct : (ordered.map (·.caseId)).Nodup)
    (hbehaviors : ordered.mapM (scoreTrial python golds documents) = .ok behaviors)
    (htrial : trial ∈ ordered) (hgold : golds trial.caseId = some gold) :
    behaviorOf behaviors (trial, gold) = .ok ((trial, gold), some .pass) ↔
      Proven python documents trial gold := by
  obtain ⟨behavior, hmem, hscored⟩ := Fallible.mapM_of_mem hbehaviors htrial
  unfold scoreTrial at hscored
  rw [hgold] at hscored
  have hid := scored_caseId hscored
  obtain ⟨found, hfind⟩ : ∃ found, behaviors.find? (·.caseId = trial.caseId) = some found := by
    rw [← Option.isSome_iff_exists, List.find?_isSome]
    exact ⟨behavior, hmem, decide_eq_true hid⟩
  -- the one that is found is of this trial
  obtain ⟨other, hother, hfound⟩ :=
    Fallible.mem_of_mapM hbehaviors (List.mem_of_find?_eq_some hfind)
  unfold scoreTrial at hfound
  split at hfound
  · next gold' hgold' =>
    have hid' : found.caseId = trial.caseId := by simpa using List.find?_some hfind
    have hsame : other = trial :=
      List.inj_on_of_nodup_map hdistinct hother htrial ((scored_caseId hfound).symm.trans hid')
    subst hsame
    cases hgold.symm.trans hgold'
    cases hscored.symm.trans hfound
    rw [← scored_pass hscored]
    unfold behaviorOf
    dsimp only
    rw [hfind]
    split
    · next hunscorable =>
      refine ⟨nofun, fun hpass => absurd ((scored_pass hscored).mp hpass).1 hunscorable⟩
    · dsimp only
      refine ⟨fun h => Option.some.inj (Prod.mk.inj (Except.ok.inj h)).2, fun hpass => ?_⟩
      rw [hpass]
  · cases hfound

/-- A status of a metric is reported. -/
def Reports (metrics : EvaluationMetrics) (metricId : String) (status : MetricStatus) : Prop :=
  ∃ result ∈ metrics.acceptanceMetrics, result.metricId = metricId ∧ result.status = status

/-- The metric is about one of the trials. -/
def SomeListed (trials : List TrialArtifact) (golds : GoldMap) : Prop :=
  ∃ trial ∈ trials, ∃ gold, Listed golds "critical_regression" trial gold

/-- Each of the trials that the metric is about is proven. -/
def AllProven (python : Python) (trials : List TrialArtifact) (golds : GoldMap)
    (documents : Documents) : Prop :=
  ∀ trial ∈ trials, ∀ gold, Listed golds "critical_regression" trial gold →
    Proven python documents trial gold

theorem applicable_length {metricId : String} (h : applicable metricId trials golds = .ok pairs) :
    pairs.length ≤ trials.length := by
  obtain ⟨all, hall, h⟩ := Fallible.bind_eq_ok.mp h
  cases h
  rw [(Fallible.mapM_eq_ok.mp hall).length_eq]
  exact List.length_filter_le _ _

/-- What is reported once there is a report. -/
theorem critical_status {metrics : EvaluationMetrics}
    (h : calculateMetrics python trials golds documents version casesById costPerInputToken
      costPerOutputToken = .ok metrics) (hlength : trials.length ≤ 2 ^ 53) :
    (Reports metrics "critical_regression" .pass ↔
      SomeListed trials golds ∧ AllProven python trials golds documents) ∧
    (SomeListed trials golds → ∃ status, status ≠ .notApplicable ∧
      Reports metrics "critical_regression" status) := by
  have hlast : ("critical_regression", criticalResult metrics.caseBehaviorResults) ∈
      calculators python documents metrics.caseBehaviorResults := by simp [calculators]
  obtain ⟨ordered, pairs, hordered, hbehaviors, hpairs, hreported⟩ := metric_reported h hlast
  obtain ⟨hperm, hdistinct⟩ := orderedTrials_ok hordered
  have hsame : ∀ trial, trial ∈ ordered ↔ trial ∈ trials := fun trial => hperm.mem_iff
  have hcases : pairs.length ≤ 2 ^ 53 :=
    (applicable_length hpairs).trans (hperm.length_eq.trans_le hlength)
  have hmem : ∀ trial gold, (trial, gold) ∈ pairs ↔
      trial ∈ trials ∧ Listed golds "critical_regression" trial gold := by
    intro trial gold
    rw [mem_applicable hpairs, hsame]
  have hall : (∀ pair ∈ pairs,
      behaviorOf metrics.caseBehaviorResults pair = .ok (pair, some .pass)) ↔
        AllProven python trials golds documents := by
    constructor
    · intro hpass trial htrial gold hlisted
      have hpair := (hmem trial gold).mpr ⟨htrial, hlisted⟩
      have htrial' := (hsame trial).mpr htrial
      exact (behaviorOf_scored hdistinct hbehaviors htrial' hlisted.1).mp (hpass _ hpair)
    · rintro hproven ⟨trial, gold⟩ hpair
      obtain ⟨htrial, hlisted⟩ := (hmem trial gold).mp hpair
      have htrial' := (hsame trial).mpr htrial
      exact (behaviorOf_scored hdistinct hbehaviors htrial' hlisted.1).mpr
        (hproven trial htrial gold hlisted)
  have hsome : SomeListed trials golds ↔ pairs ≠ [] := by
    constructor
    · rintro ⟨trial, htrial, gold, hlisted⟩
      exact List.ne_nil_of_mem ((hmem trial gold).mpr ⟨htrial, hlisted⟩)
    · intro hne
      obtain ⟨⟨trial, gold⟩, hpair⟩ := List.exists_mem_of_ne_nil pairs hne
      obtain ⟨htrial, hlisted⟩ := (hmem trial gold).mp hpair
      exact ⟨trial, htrial, gold, hlisted⟩
  rw [hsome, ← hall]
  rcases hreported with ⟨hempty, hnone⟩ | ⟨hne, result, hresult, hiff⟩
  · exact ⟨⟨fun ⟨other, hother, hid, _⟩ => absurd hid (hnone other hother),
      fun hpass => absurd hempty hpass.1⟩, fun hne => absurd hempty hne⟩
  · obtain ⟨hpass, hreal⟩ := criticalResult_pass hresult hcases
    obtain ⟨hmetric, hid⟩ := (hiff result).mpr rfl
    rw [← hpass]
    refine ⟨⟨fun ⟨other, hother, hother', hstatus⟩ => ?_,
      fun hstatus => ⟨result, hmetric, hid, hstatus⟩⟩,
      fun hne => ⟨result.status, hreal hne, result, hmetric, hid, rfl⟩⟩
    rw [← (hiff other).mp ⟨hother, hother'⟩]
    exact hstatus

/-- **The critical regression fails closed**: for one trial of each case, with golds that can be
read and numbers that floats hold, `calculate_metrics` returns, and reports PASS just where a gold
lists the metric and each of its trials is proven; where one is not, it reports UNSCORABLE or FAIL.
No case is proven whose gold or trial could not be scored or whose evidence is missing. -/
theorem critical_fails_closed (hcases : (trials.map (·.caseId)).Nodup)
    (hgolds : ∀ trial ∈ trials, ∃ gold, golds trial.caseId = some gold ∧ Fits python trial gold)
    (hnumbers : NumbersFit trials costPerInputToken costPerOutputToken)
    (hlength : trials.length ≤ 2 ^ 53) :
    ∃ metrics, calculateMetrics python trials golds documents "v1" casesById costPerInputToken
        costPerOutputToken = .ok metrics ∧
      (Reports metrics "critical_regression" .pass ↔
        SomeListed trials golds ∧ AllProven python trials golds documents) ∧
      (∀ trial ∈ trials, ∀ gold, Listed golds "critical_regression" trial gold →
        gold.scoring.status ≠ .scorable ∨ trial.classification ≠ .scored ∨
            MissingEvidence python trial gold ∨ ¬ Proven python documents trial gold →
          Reports metrics "critical_regression" .unscorable ∨
            Reports metrics "critical_regression" .fail) := by
  obtain ⟨metrics, hmetrics⟩ : Fallible.Returns (calculateMetrics python trials golds documents "v1"
    casesById costPerInputToken costPerOutputToken) :=
      calculateMetrics_returns hcases hgolds hnumbers
  obtain ⟨hpass, hreported⟩ := critical_status hmetrics hlength
  refine ⟨metrics, hmetrics, hpass, fun trial htrial gold hlisted hfailed => ?_⟩
  have hunproven : ¬ Proven python documents trial gold := by
    rcases hfailed with hgold | hclass | hmissing | hunproven
    · exact fun hproven => hgold hproven.1
    · exact fun hproven => hclass hproven.2.1
    · exact hmissing.not_proven
    · exact hunproven
  obtain ⟨status, hreal, hstatus⟩ := hreported ⟨trial, htrial, gold, hlisted⟩
  cases status with
  | pass => exact absurd ((hpass.mp hstatus).2 trial htrial gold hlisted) hunproven
  | fail => exact .inr hstatus
  | unscorable => exact .inl hstatus
  | notApplicable => exact absurd rfl hreal

/-! ## Where nothing is reported -/

/-- Texts of ASCII without capitals. -/
def plainPython : Python where
  casefold := id
  split := fun text => [text]
  strip := id
  repr := fun _ => ""
  int
    | .int i => .ok i
    | _ => .error .typeError

/-- The gold asks for the evidence that was governed. -/
def groupGold : GoldRecord where
  caseId := "Q1"
  runProtocol := .singleRun
  expected := [("required_evidence_groups", .list [.list [.str "B-REQ-001"]])]
  metricApplicability := ["critical_regression"]
  scoring := ⟨.scorable, none⟩

/-- A trial of another case, that says how many tokens it took. -/
def otherTrial (classification : TrialClassification) (tokens : ℤ) : TrialArtifact :=
  { strayTrial with caseId := "Q2", classification := classification, totalTokens := some tokens }

/-- The gold of the other case, which need not be about the metric. -/
def otherGold (metricId : String) (statuses : Value) : GoldRecord where
  caseId := "Q2"
  runProtocol := .singleRun
  expected := [("expected_http_statuses", statuses)]
  metricApplicability := [metricId]
  scoring := ⟨.scorable, none⟩

def bothGolds (other : GoldRecord) (caseId : String) : Option GoldRecord :=
  if caseId = "Q1" then some groupGold else if caseId = "Q2" then some other else none

/-- PASS is reported just where it should be. -/
def FailsClosed (python : Python) (trials : List TrialArtifact) (golds : GoldMap)
    (documents : Documents) : Prop :=
  (∃ metrics, calculateMetrics python trials golds documents "v1" (fun _ => none) none none =
      .ok metrics ∧ Reports metrics "critical_regression" .pass) ↔
    SomeListed trials golds ∧ AllProven python trials golds documents

variable {other : GoldRecord} {otherClass : TrialClassification} {tokens : ℤ}

theorem stray_proven : Proven plainPython strayDocuments strayTrial groupGold := by
  refine ⟨rfl, rfl, _, rfl, fun assertion hassertion => ?_⟩
  cases List.mem_singleton.mp hassertion
  rfl

/-- The metric is about the first case alone. -/
theorem both_proven (hother : "critical_regression" ∉ other.metricApplicability) :
    SomeListed [strayTrial, otherTrial otherClass tokens] (bothGolds other) ∧
      AllProven plainPython [strayTrial, otherTrial otherClass tokens] (bothGolds other)
        strayDocuments := by
  refine ⟨⟨strayTrial, List.mem_cons_self, groupGold, rfl, List.mem_cons_self⟩, ?_⟩
  rintro trial htrial gold ⟨hgold, hlisted⟩
  rcases List.mem_cons.mp htrial with rfl | htrial
  · cases hgold
    exact stray_proven
  · cases List.mem_singleton.mp htrial
    cases hgold
    exact absurd hlisted hother

/-- **A gold that cannot be read, and a number that is too large**, each of the case that the metric
is not about. -/
theorem critical_unreported :
    ¬ FailsClosed plainPython [strayTrial, otherTrial .scored 0]
      (bothGolds (otherGold "citation_id_validity" (.int 5))) strayDocuments ∧
    ¬ FailsClosed plainPython [strayTrial, otherTrial .scored (10 ^ 400)]
      (bothGolds (otherGold "citation_id_validity" (.list []))) strayDocuments := by
  have hraised : ∀ {metrics : Except Error EvaluationMetrics}, metrics.isOk = false →
      ¬ ∃ reported, metrics = .ok reported ∧ Reports reported "critical_regression" .pass := by
    rintro metrics hfails ⟨reported, rfl, -⟩
    cases hfails
  constructor
  · exact fun h => hraised (by decide +kernel) (h.mpr (both_proven (by decide)))
  · exact fun h => hraised (by decide +kernel) (h.mpr (both_proven (by decide)))

/-- Two trials, of which one could not be run. -/
def mixedTrials : List TrialArtifact := [strayTrial, otherTrial .infraFailure 7]

theorem groupGold_readable : Readable plainPython groupGold.expected where
  httpStatuses := ⟨[], rfl, fun _ h => absurd h List.not_mem_nil⟩
  runStatuses := ⟨[], rfl⟩
  answer answer h := by
    cases h
    exact ⟨⟨[], rfl⟩, ⟨[], rfl, fun _ h => absurd h List.not_mem_nil⟩, [], rfl⟩
  forbidden := ⟨[], rfl⟩
  current := ⟨[], rfl⟩
  evidence := ⟨_, rfl, fun item h => List.mem_singleton.mp h ▸ ⟨_, rfl⟩⟩
  targets h := absurd h (by decide)
  citations citations h := by
    cases h
    intro items hitems
    cases hitems
    exact fun _ h => absurd h List.not_mem_nil
  tool tool h := by
    cases h
    exact ⟨⟨[], rfl, fun _ h => absurd h List.not_mem_nil⟩, [], rfl⟩
  issue issue h := by
    cases h
    exact ⟨⟨[], rfl⟩, fun h => absurd rfl h⟩
  safety := ⟨[], rfl⟩

theorem mixed_fits (metricId : String) : ∀ trial ∈ mixedTrials, ∃ gold,
    bothGolds (otherGold metricId (.list [])) trial.caseId = some gold ∧
      Fits plainPython trial gold := by
  intro trial htrial
  rcases List.mem_cons.mp htrial with rfl | htrial
  · exact ⟨groupGold, rfl, rfl, fun _ => groupGold_readable⟩
  · cases List.mem_singleton.mp htrial
    exact ⟨otherGold metricId (.list []), rfl, rfl, fun h => Bool.noConfusion h⟩

theorem mixed_numbersFit : NumbersFit mixedTrials none none where
  coverage _ h := absurd h List.not_mem_nil
  coverages := ⟨by decide +kernel, .inl List.not_mem_nil⟩
  latencies := ⟨by decide +kernel, .inl List.not_mem_nil⟩
  tokens := ⟨by decide +kernel, by decide +kernel, .inl (by decide +kernel)⟩
  candidates := ⟨fun _ h => absurd h List.not_mem_nil, by decide +kernel, .inl List.not_mem_nil⟩
  ranks := ⟨fun _ h => absurd h List.not_mem_nil, by decide +kernel, .inl List.not_mem_nil⟩
  costs h := absurd rfl (h.elim id id)

/-- A case that could not be run counts where the metric is about it, and only there. -/
theorem critical_fails_closed_sample :
    (∃ metrics, calculateMetrics plainPython mixedTrials
        (bothGolds (otherGold "citation_id_validity" (.list []))) strayDocuments "v1"
          (fun _ => none)
        none none = .ok metrics ∧ Reports metrics "critical_regression" .pass) ∧
    ∃ metrics, calculateMetrics plainPython mixedTrials
        (bothGolds (otherGold "critical_regression" (.list []))) strayDocuments "v1" (fun _ => none)
        none none = .ok metrics ∧ ¬ Reports metrics "critical_regression" .pass ∧
      (Reports metrics "critical_regression" .unscorable ∨
        Reports metrics "critical_regression" .fail) := by
  have hcases : (mixedTrials.map (·.caseId)).Nodup := by decide
  have hlength : mixedTrials.length ≤ 2 ^ 53 := by decide
  constructor
  · obtain ⟨metrics, hmetrics, hpass, -⟩ :=
      critical_fails_closed hcases (mixed_fits "citation_id_validity") mixed_numbersFit hlength
    exact ⟨metrics, hmetrics, hpass.mpr (both_proven (by decide))⟩
  · obtain ⟨metrics, hmetrics, hpass, hfailed⟩ :=
      critical_fails_closed hcases (mixed_fits "critical_regression") mixed_numbersFit hlength
    have hmem : otherTrial .infraFailure 7 ∈ mixedTrials :=
      List.mem_cons_of_mem _ List.mem_cons_self
    have hlisted : Listed (bothGolds (otherGold "critical_regression" (.list [])))
        "critical_regression" (otherTrial .infraFailure 7)
        (otherGold "critical_regression" (.list [])) := ⟨rfl, List.mem_cons_self⟩
    have hunscored : (otherTrial .infraFailure 7).classification ≠ .scored := by decide
    refine ⟨metrics, hmetrics, fun h => ?_, hfailed _ hmem _ hlisted (.inr (.inl hunscored))⟩
    exact hunscored ((hpass.mp h).2 _ hmem _ hlisted).2.1

end ProjectAgent.Evaluation
