/-
Which drafts `CitationGuard.validate` passes. Each of its loops notes an error
for what it does not accept, notes the labels it has found an item for, and
counts the claims it has found covered; `Adds` says so of a step, and of a loop.
-/
import ProjectAgent.Evidence.Guard

namespace ProjectAgent.Evidence

/-- The labels the claims cite. -/
def GroundedAnswerDraft.claimed (draft : GroundedAnswerDraft) : List String :=
  draft.claims.flatMap (·.evidenceIds)

/-- The labels the disclosure cites. -/
def GroundedAnswerDraft.disclosed (draft : GroundedAnswerDraft) : List String :=
  (draft.conflictDisclosure.map (·.evidenceIds)).getD []

/-- The item is the only one of the label. -/
def FrozenEvidenceBundle.Names (bundle : FrozenEvidenceBundle) (label : String)
    (item : FrozenEvidence) : Prop :=
  bundle.evidence.filter (·.label == label) = [item]

instance (bundle : FrozenEvidenceBundle) (label : String) (item : FrozenEvidence) :
    Decidable (bundle.Names label item) :=
  inferInstanceAs (Decidable (_ = _))

def FrozenEvidence.Current (item : FrozenEvidence) : Prop :=
  item.lifecycleStatus = .PUBLISHED ∧ item.isCurrent = true

/-- What a draft must be, its disclosure held to what its claims are. -/
structure Supported (bundle : FrozenEvidenceBundle) (projectId : UUID)
    (draft : GroundedAnswerDraft) : Prop where
  claims : draft.claims ≠ []
  cited : ∀ claim ∈ draft.claims, claim.evidenceIds ≠ []
  labels : ∀ label, label ∈ draft.claimed ∨ label ∈ draft.disclosed →
    ∃ item, bundle.Names label item ∧ item.projectId = projectId ∧ item.Current
  conflicts : ∀ conflict ∈ bundle.unresolvedConflicts, ∀ label ∈ conflict.2, label ∈ draft.disclosed

/-- What a draft that passes is, and what is noted of it. -/
structure Passed (bundle : FrozenEvidenceBundle) (projectId : UUID) (draft : GroundedAnswerDraft)
    (used : List String) :
    Prop where
  claims : draft.claims ≠ []
  cited : ∀ claim ∈ draft.claims, claim.evidenceIds ≠ []
  labels : ∀ label, label ∈ draft.claimed ∨ label ∈ draft.disclosed →
    ∃ item, bundle.Names label item ∧ item.projectId = projectId
  current : ∀ label ∈ draft.claimed, ∃ item, bundle.Names label item ∧ item.Current
  conflicts : ∀ conflict ∈ bundle.unresolvedConflicts, ∀ label ∈ conflict.2, label ∈ draft.disclosed
  nodup : used.Nodup
  used : ∀ label, label ∈ used ↔ label ∈ draft.claimed ∨ label ∈ draft.disclosed

namespace CitationGuard

variable {bundle : FrozenEvidenceBundle} {projectId : UUID} {before after last : Checked}
  {ok ok' : Prop}
  {uses uses' : String → Prop} {n n' : Nat}

/-! ## Steps -/

/-- A step notes no error if this holds, notes these labels, and covers so many claims then. -/
structure Adds (ok : Prop) (uses : String → Prop) (n : Nat) (before after : Checked) : Prop where
  errors : after.errors = [] ↔ before.errors = [] ∧ ok
  used : ∀ label, label ∈ after.used ↔ label ∈ before.used ∨ uses label
  nodup : before.used.Nodup → after.used.Nodup
  covered : ok → after.coveredClaims = before.coveredClaims + n

namespace Adds

theorem refl (checked : Checked) : Adds True (fun _ => False) 0 checked checked :=
  ⟨(and_iff_left trivial).symm, fun _ => (or_iff_left id).symm, id, fun _ => rfl⟩

theorem trans (h : Adds ok uses n before after) (h' : Adds ok' uses' n' after last) :
    Adds (ok ∧ ok') (fun label => uses label ∨ uses' label) (n + n') before last where
  errors := by rw [h'.errors, h.errors, and_assoc]
  used label := by rw [h'.used, h.used, or_assoc]
  nodup := fun hnodup => h'.nodup (h.nodup hnodup)
  covered := fun ⟨hok, hok'⟩ => by rw [h'.covered hok', h.covered hok, Nat.add_assoc]

theorem congr (h : Adds ok uses n before after) (hok : ok ↔ ok')
    (huses : ∀ label, uses label ↔ uses' label) :
    Adds ok' uses' n before after where
  errors := by rw [h.errors, hok]
  used label := by rw [h.used, huses]
  nodup := h.nodup
  covered := fun hok' => h.covered (hok.mpr hok')

theorem error (checked : Checked) (text : String) :
    Adds False (fun _ => False) 0 checked (checked.error text) :=
  ⟨iff_of_false (error_ne_nil checked text) And.right, fun _ => (or_iff_left id).symm, id,
    False.elim⟩

theorem invalid (checked : Checked) (text : String) :
    Adds False (fun _ => False) 0 checked (checked.invalid text) :=
  ⟨iff_of_false (error_ne_nil checked text) And.right, fun _ => (or_iff_left id).symm, id,
    False.elim⟩

theorem use (checked : Checked) (label : String) :
    Adds True (· = label) 0 checked (checked.use label) := by
  unfold Checked.use
  split
  · next hin =>
    refine ⟨(and_iff_left trivial).symm, fun l => ⟨.inl, ?_⟩, id, fun _ => rfl⟩
    rintro (h | rfl)
    · exact h
    · exact hin
  · next hnot =>
    refine ⟨(and_iff_left trivial).symm, fun l => ?_, fun hnodup => ?_, fun _ => rfl⟩
    · rw [List.mem_append, List.mem_singleton]
    · refine List.nodup_append.mpr ⟨hnodup, List.nodup_singleton _, fun a ha b hb hab => hnot ?_⟩
      rw [← List.mem_singleton.mp hb, ← hab]
      exact ha

/-- A check that is made of a step's end. -/
theorem check {p : Prop} [Decidable p] (checked : Checked) (text : String) :
    Adds (¬ p) (fun _ => False) 0 checked (if p then checked.invalid text else checked) := by
  by_cases h : p
  · rw [if_pos h]
    exact (invalid checked text).congr (iff_of_false id (not_not.mpr h)) fun _ => Iff.rfl
  · rw [if_neg h]
    exact (refl checked).congr (iff_of_true trivial h) fun _ => Iff.rfl

theorem foldl {α : Type} {f : Checked → α → Checked} {ok : α → Prop} {uses : α → String → Prop}
    (hf : ∀ checked a, Adds (ok a) (uses a) n checked (f checked a)) (as : List α)
    (checked : Checked) :
    Adds (∀ a ∈ as, ok a) (fun label => ∃ a ∈ as, uses a label)
      (as.length * n) checked (as.foldl f checked) := by
  induction as generalizing checked with
  | nil =>
    rw [List.length_nil, Nat.zero_mul]
    exact (refl checked).congr (iff_of_true trivial fun _ h => nomatch h)
      fun _ => iff_of_false id fun ⟨_, h, _⟩ => nomatch h
  | cons a as ih =>
    rw [List.length_cons, Nat.add_mul, Nat.one_mul, Nat.add_comm]
    exact ((hf checked a).trans (ih (f checked a))).congr List.forall_mem_cons.symm
      fun label => (List.exists_mem_cons_iff (uses · label) a as).symm

end Adds

/-! ## The loops -/

/-- A label that a claim may cite. -/
def CitedOk (bundle : FrozenEvidenceBundle) (projectId : UUID) (label : String) : Prop :=
  ∃ item, bundle.byLabel label = some item ∧ item.projectId = projectId ∧ item.Current

/-- A label that the disclosure may cite. -/
def DisclosedOk (bundle : FrozenEvidenceBundle) (projectId : UUID) (label : String) : Prop :=
  ∃ item, bundle.byLabel label = some item ∧ item.projectId = projectId

theorem citedOk_some {item : FrozenEvidence} {label : String}
    (h : bundle.byLabel label = some item) :
    CitedOk bundle projectId label ↔ item.projectId = projectId ∧ item.Current := by
  unfold CitedOk
  rw [h]
  exact ⟨fun ⟨_, heq, hok⟩ => Option.some.inj heq ▸ hok, fun hok => ⟨item, rfl, hok⟩⟩

theorem not_current_iff {item : FrozenEvidence} :
    ¬ (item.lifecycleStatus ≠ .PUBLISHED ∨ item.isCurrent = false) ↔ item.Current := by
  unfold FrozenEvidence.Current
  rw [not_or, not_not, Bool.not_eq_false]

theorem checkLabel_adds (checked : Checked) (label : String) :
    Adds (CitedOk bundle projectId label) (fun l => l = label ∧
      (bundle.byLabel label).isSome) 0 checked
      (checkLabel bundle projectId checked label) := by
  unfold checkLabel
  cases hitem : bundle.byLabel label with
  | none =>
    refine (Adds.invalid checked _).congr (iff_of_false id ?_) fun _ => iff_of_false id fun h =>
      nomatch h.2
    rintro ⟨item, hsome, -⟩
    cases hitem.symm.trans hsome
  | some item =>
    dsimp only
    refine (((Adds.check checked _).trans (Adds.check _ _)).trans (Adds.use _ label)).congr ?_
      fun l => ?_
    · rw [citedOk_some hitem, not_not, not_current_iff]
      exact and_iff_left trivial
    · simp only [false_or, Option.isSome_some, and_true]

/-- The claim stays valid as long as its labels are in order. -/
theorem checkLabel_valid (checked : Checked) (label : String) :
    (checkLabel bundle projectId checked label).claimValid = true ↔
      checked.claimValid = true ∧ CitedOk bundle projectId label := by
  have huse (c : Checked) : (c.use label).claimValid = c.claimValid := by
    unfold Checked.use
    split <;> rfl
  unfold checkLabel
  cases hitem : bundle.byLabel label with
  | none =>
    refine iff_of_false Bool.false_ne_true ?_
    rintro ⟨-, item, hsome, -⟩
    cases hitem.symm.trans hsome
  | some item =>
    dsimp only
    rw [huse, citedOk_some hitem, ← not_current_iff]
    by_cases hproject : item.projectId = projectId
    · rw [if_neg (not_not.mpr hproject)]
      split
      · next hstale => exact iff_of_false Bool.false_ne_true fun h => h.2.2 hstale
      · next hcurrent => exact (and_iff_left ⟨hproject, hcurrent⟩).symm
    · rw [if_pos hproject]
      split <;> exact iff_of_false Bool.false_ne_true fun h => hproject h.2.1

theorem checkLabels_valid (labels : List String) (checked : Checked) :
    (labels.foldl (checkLabel bundle projectId) checked).claimValid = true ↔
      checked.claimValid = true ∧ ∀ label ∈ labels, CitedOk bundle projectId label := by
  induction labels generalizing checked with
  | nil => exact (and_iff_left fun _ h => nomatch h).symm
  | cons label labels ih =>
    rw [List.foldl_cons, ih, checkLabel_valid, List.forall_mem_cons, and_assoc]

theorem checkClaim_adds (checked : Checked) (entry : GroundedAnswerClaim × Nat) :
    Adds (entry.1.evidenceIds ≠ [] ∧ ∀ label ∈ entry.1.evidenceIds, CitedOk bundle projectId label)
      (fun l => l ∈ entry.1.evidenceIds ∧ (bundle.byLabel l).isSome) 1 checked
        (checkClaim bundle projectId checked entry) := by
  have hlabels := Adds.foldl (@checkLabel_adds bundle projectId) entry.1.evidenceIds
    { checked with claimValid := true }
  have huses (l : String) : (∃ label ∈ entry.1.evidenceIds, l = label ∧
    (bundle.byLabel label).isSome) ↔
      l ∈ entry.1.evidenceIds ∧ (bundle.byLabel l).isSome := by
    constructor
    · rintro ⟨label, hin, rfl, hsome⟩
      exact ⟨hin, hsome⟩
    · exact fun ⟨hin, hsome⟩ => ⟨l, hin, rfl, hsome⟩
  unfold checkClaim
  by_cases hempty : entry.1.evidenceIds = []
  · rw [if_pos (List.isEmpty_iff.mpr hempty), hempty]
    have hnone : False ↔ [] ≠ ([] : List String) ∧ ∀ label ∈ [], CitedOk bundle projectId label :=
      iff_of_false id fun h => h.1 rfl
    have herror := (Adds.error checked ("UNCITED_CLAIM:" ++ toString entry.2)).congr hnone
      fun l => (iff_of_false id fun h => nomatch h.1 : False ↔ l ∈ [] ∧ (bundle.byLabel l).isSome)
    exact ⟨herror.errors, herror.used, herror.nodup, fun h => absurd rfl h.1⟩
  · rw [if_neg fun h => hempty (List.isEmpty_iff.mp h)]
    dsimp only
    refine ⟨?_, fun l => ?_, fun hnodup => ?_, fun h => ?_⟩
    · rw [and_iff_right hempty, ← hlabels.errors]
      split <;> rfl
    · rw [← huses, ← hlabels.used]
      split <;> rfl
    · split <;> exact hlabels.nodup hnodup
    · rw [if_pos ((checkLabels_valid _ _).mpr ⟨rfl, h.2⟩)]
      show (entry.1.evidenceIds.foldl (checkLabel bundle projectId) { checked with
        claimValid := true }).coveredClaims + 1 = _
      rw [hlabels.covered h.2, Nat.mul_zero]

theorem checkDisclosed_adds (checked : Checked) (label : String) :
    Adds (DisclosedOk bundle projectId label) (fun l => l = label ∧
      (bundle.byLabel label).isSome) 0 checked
      (checkDisclosed bundle projectId checked label) := by
  unfold checkDisclosed DisclosedOk
  cases hitem : bundle.byLabel label with
  | none =>
    refine (Adds.error checked _).congr (iff_of_false id ?_) fun _ => iff_of_false id fun h =>
      nomatch h.2
    rintro ⟨item, hsome, -⟩
    cases hsome
  | some item =>
    dsimp only
    have huses (l : String) : (False ∨ l = label) ↔ l = label ∧ (some item).isSome := by
      rw [false_or, Option.isSome_some, and_iff_left rfl]
    by_cases hproject : item.projectId = projectId
    · rw [if_neg (not_not.mpr hproject)]
      refine ((Adds.refl checked).trans (Adds.use checked label)).congr
        (iff_of_true ⟨trivial, trivial⟩ ⟨item, rfl, hproject⟩) huses
    · rw [if_pos hproject]
      refine ((Adds.error checked _).trans (Adds.use _ label)).congr
        (iff_of_false And.left ?_) huses
      rintro ⟨_, heq, hsame⟩
      cases heq
      exact hproject hsame

theorem checkConflict_adds (disclosure : Option ConflictDisclosure) (checked : Checked)
    (conflict : String × List String) :
    Adds (∃ d, disclosure = some d ∧ ∀ label ∈ conflict.2, label ∈ d.evidenceIds)
      (fun _ => False) 0 checked
      (checkConflict disclosure checked conflict) := by
  have hany : (disclosure.any fun d => conflict.2.all (· ∈ d.evidenceIds)) = true ↔
      ∃ d, disclosure = some d ∧ ∀ label ∈ conflict.2, label ∈ d.evidenceIds := by
    simp only [Option.any_eq_true, List.all_eq_true, decide_eq_true_eq]
  unfold checkConflict
  split
  · next h => exact (Adds.refl checked).congr (iff_of_true trivial (hany.mp h)) fun _ => Iff.rfl
  · next h =>
      exact (Adds.error checked _).congr (iff_of_false id fun h' => h (hany.mpr h'))
        fun _ => Iff.rfl

/-! ## The whole -/

theorem duplicates_eq_nil : duplicates bundle = [] ↔ (bundle.evidence.map (·.label)).Nodup := by
  unfold duplicates
  dsimp only
  rw [List.map_eq_nil_iff, List.filter_eq_nil_iff, List.nodup_iff_count_le_one]
  constructor
  · intro hnone label
    by_cases hin : label ∈ bundle.evidence.map (·.label)
    · have hle := hnone label hin
      rw [decide_eq_true_eq] at hle
      exact Nat.not_lt.mp hle
    · rw [List.count_eq_zero_of_not_mem hin]
      exact Nat.zero_le 1
  · intro hle label _
    rw [decide_eq_true_eq]
    exact Nat.not_lt.mpr (hle label)

theorem byLabel_eq (label : String) :
    bundle.byLabel label = (bundle.evidence.filter (·.label == label)).reverse.head? := by
  unfold FrozenEvidenceBundle.byLabel
  rw [← List.head?_filter, List.filter_reverse]

theorem byLabel_of_names {label : String} {item : FrozenEvidence} (h : bundle.Names label item) :
    bundle.byLabel label = some item := by
  rw [byLabel_eq, show bundle.evidence.filter (·.label == label) = [item] from h]
  rfl

/-- Where no two items have one label, the item a label finds is the only one. -/
theorem names_of_byLabel (hnodup : (bundle.evidence.map (·.label)).Nodup) {label : String}
    {item : FrozenEvidence} (h : bundle.byLabel label = some item) : bundle.Names label item := by
  have hlabels : ∀ x ∈ bundle.evidence.filter (·.label == label), x.label = label := fun x hx =>
    beq_iff_eq.mp (List.mem_filter.mp hx).2
  have hfiltered : ((bundle.evidence.filter (·.label == label)).map (·.label)).Nodup :=
    hnodup.sublist (List.filter_sublist.map _)
  rw [byLabel_eq] at h
  unfold FrozenEvidenceBundle.Names
  generalize bundle.evidence.filter (·.label == label) = found at h hlabels hfiltered
  match found with
  | [] => cases h
  | [x] =>
    cases h
    rfl
  | x :: y :: rest =>
    -- two items of the label
    rw [List.map_cons, List.nodup_cons, hlabels x List.mem_cons_self] at hfiltered
    refine absurd ?_ hfiltered.1
    exact List.mem_map.mpr ⟨y, List.mem_cons_self,
      hlabels y (List.mem_cons_of_mem _ List.mem_cons_self)⟩

variable {draft : GroundedAnswerDraft}

/-- What the loops accept of a draft. -/
structure Accepted (bundle : FrozenEvidenceBundle) (projectId : UUID)
    (draft : GroundedAnswerDraft) : Prop where
  labels : (bundle.evidence.map (·.label)).Nodup
  claims : draft.claims ≠ []
  cited : ∀ claim ∈ draft.claims, claim.evidenceIds ≠ [] ∧
    ∀ label ∈ claim.evidenceIds, CitedOk bundle projectId label
  disclosed : ∀ label ∈ draft.disclosed, DisclosedOk bundle projectId label
  conflicts : ∀ conflict ∈ bundle.unresolvedConflicts,
    ∃ d, draft.conflictDisclosure = some d ∧ ∀ label ∈ conflict.2, label ∈ d.evidenceIds

theorem forall_claims {P : GroundedAnswerClaim → Prop} :
    (∀ entry ∈ draft.claims.zipIdx 1, P entry.1) ↔ ∀ claim ∈ draft.claims, P claim := by
  constructor
  · intro hall claim hclaim
    rw [← List.zipIdx_map_fst 1 draft.claims] at hclaim
    obtain ⟨entry, hentry, rfl⟩ := List.mem_map.mp hclaim
    exact hall entry hentry
  · exact fun hall entry hentry => hall entry.1 (List.fst_mem_of_mem_zipIdx hentry)

theorem exists_claims {P : GroundedAnswerClaim → Prop} :
    (∃ entry ∈ draft.claims.zipIdx 1, P entry.1) ↔ ∃ claim ∈ draft.claims, P claim := by
  constructor
  · rintro ⟨entry, hentry, h⟩
    exact ⟨entry.1, List.fst_mem_of_mem_zipIdx hentry, h⟩
  · rintro ⟨claim, hclaim, h⟩
    rw [← List.zipIdx_map_fst 1 draft.claims] at hclaim
    obtain ⟨entry, hentry, rfl⟩ := List.mem_map.mp hclaim
    exact ⟨entry, hentry, h⟩

theorem checked_adds (bundle : FrozenEvidenceBundle) (projectId : UUID)
    (draft : GroundedAnswerDraft) :
    Adds (((∀ claim ∈ draft.claims, claim.evidenceIds ≠ [] ∧
      ∀ label ∈ claim.evidenceIds, CitedOk bundle projectId label) ∧
        ∀ label ∈ draft.disclosed, DisclosedOk bundle projectId label) ∧
        (∀ conflict ∈ bundle.unresolvedConflicts,
          ∃ d, draft.conflictDisclosure = some d ∧ ∀ label ∈ conflict.2, label ∈ d.evidenceIds) ∧
            draft.claims ≠ [])
      (fun l => (l ∈ draft.claimed ∨ l ∈ draft.disclosed) ∧
        (bundle.byLabel l).isSome) draft.claims.length
      { errors := duplicates bundle } (checked bundle projectId draft) := by
  have hclaims := Adds.foldl (@checkClaim_adds bundle projectId) (draft.claims.zipIdx 1)
    { errors := duplicates bundle }
  have hdisclosed := Adds.foldl (@checkDisclosed_adds bundle projectId) draft.disclosed
    ((draft.claims.zipIdx 1).foldl (checkClaim bundle projectId) { errors := duplicates bundle })
  have hconflicts := Adds.foldl (checkConflict_adds draft.conflictDisclosure)
    bundle.unresolvedConflicts
    (draft.disclosed.foldl (checkDisclosed bundle projectId)
      ((draft.claims.zipIdx 1).foldl (checkClaim bundle projectId) { errors := duplicates bundle }))
  have hloops := (hclaims.trans hdisclosed).trans hconflicts
  have huses (l : String) : ((∃ entry ∈ draft.claims.zipIdx 1, l ∈ entry.1.evidenceIds ∧
    (bundle.byLabel l).isSome) ∨
      ∃ label ∈ draft.disclosed, l = label ∧ (bundle.byLabel label).isSome) ∨
      (∃ conflict ∈ bundle.unresolvedConflicts, False) ↔
      (l ∈ draft.claimed ∨ l ∈ draft.disclosed) ∧ (bundle.byLabel l).isSome := by
    rw [exists_claims (P := fun claim => l ∈ claim.evidenceIds ∧ (bundle.byLabel l).isSome)]
    unfold GroundedAnswerDraft.claimed
    rw [List.mem_flatMap]
    constructor
    · rintro ((⟨claim, hclaim, hl, hsome⟩ | ⟨label, hlabel, rfl, hsome⟩) | ⟨_, _, h⟩)
      · exact ⟨.inl ⟨claim, hclaim, hl⟩, hsome⟩
      · exact ⟨.inr hlabel, hsome⟩
      · exact h.elim
    · rintro ⟨⟨claim, hclaim, hl⟩ | hl, hsome⟩
      · exact .inl (.inl ⟨claim, hclaim, hl, hsome⟩)
      · exact .inl (.inr ⟨l, hl, rfl, hsome⟩)
  rw [forall_claims (P := fun claim => claim.evidenceIds ≠ [] ∧
    ∀ label ∈ claim.evidenceIds, CitedOk bundle projectId label)]
    at hloops
  have hchecked : checked bundle projectId draft = if draft.claims.isEmpty then
      Checked.error _ "NO_FACTUAL_CLAIMS" else _ := rfl
  rw [hchecked]
  by_cases hnone : draft.claims = []
  · rw [if_pos (List.isEmpty_iff.mpr hnone)]
    have h := hloops.trans (Adds.error _ "NO_FACTUAL_CLAIMS")
    refine ⟨h.errors.trans (and_congr_right fun _ => iff_of_false And.right fun hok =>
      hok.2.2 hnone), fun l => ?_, h.nodup,
      fun hok => absurd hnone hok.2.2⟩
    exact (h.used l).trans (or_congr_right ((or_iff_left id).trans (huses l)))
  · rw [if_neg fun h => hnone (List.isEmpty_iff.mp h)]
    have h := hloops.congr (and_congr_right fun _ => (and_iff_left hnone).symm) huses
    refine ⟨h.errors, h.used, h.nodup, fun hok => ?_⟩
    refine (h.covered hok).trans ?_
    rw [List.length_zipIdx]
    omega

/-- **A draft passes if the loops note no error.** -/
theorem valid_iff :
    (validate bundle projectId draft).valid = true ↔ Accepted bundle projectId draft := by
  have hadds := checked_adds bundle projectId draft
  have herrors : (checked bundle projectId draft).errors = [] ↔
      Accepted bundle projectId draft := by
    rw [hadds.errors, duplicates_eq_nil]
    exact ⟨fun ⟨hlabels, ⟨hcited, hdisclosed⟩, hconflicts, hclaims⟩ =>
      ⟨hlabels, hclaims, hcited, hdisclosed, hconflicts⟩,
      fun h => ⟨h.labels, ⟨h.cited, h.disclosed⟩, h.conflicts, h.claims⟩⟩
  unfold validate
  dsimp only
  rw [Bool.and_eq_true, List.isEmpty_iff, herrors, decide_eq_true_iff]
  refine and_iff_left_of_imp fun h => ?_
  have hcovered := hadds.covered ⟨⟨h.cited, h.disclosed⟩, h.conflicts, h.claims⟩
  have hpos : (draft.claims.length : ℚ) ≠ 0 :=
    Nat.cast_ne_zero.mpr fun hzero => h.claims (List.length_eq_zero_iff.mp hzero)
  rw [if_neg fun hempty => h.claims (List.isEmpty_iff.mp hempty), hcovered]
  dsimp only
  rw [Nat.zero_add]
  exact div_self hpos

/-- What it notes as used are the labels that find an item. -/
theorem used_of_valid (h : Accepted bundle projectId draft) :
    (validate bundle projectId draft).usedEvidenceIds.Nodup ∧
      ∀ label, label ∈ (validate bundle projectId draft).usedEvidenceIds ↔
        label ∈ draft.claimed ∨ label ∈ draft.disclosed := by
  have hadds := checked_adds bundle projectId draft
  refine ⟨hadds.nodup List.nodup_nil, fun label => ?_⟩
  have hused : label ∈ (validate bundle projectId draft).usedEvidenceIds ↔ _ := hadds.used label
  rw [hused, or_iff_right fun h => nomatch h]
  refine and_iff_left_of_imp ?_
  rintro (hclaimed | hdisclosed)
  · obtain ⟨claim, hclaim, hlabel⟩ := List.mem_flatMap.mp hclaimed
    obtain ⟨item, hitem, -⟩ := (h.cited claim hclaim).2 label hlabel
    rw [hitem]
    rfl
  · obtain ⟨item, hitem, -⟩ := h.disclosed label hdisclosed
    rw [hitem]
    rfl

end CitationGuard

open CitationGuard in
/--
**What the guard passes, and what it must pass.** A draft that passes has claims, each with a
citation; each label it cites names one item, of the project, and each that a claim cites names a
current one; the conflicts are disclosed, and the labels noted as used are those that are cited. A
draft that is all this, with each item its disclosure cites current too, passes if no two items of
the bundle share a label and the draft has a disclosure wherever there is a conflict.
-/
theorem guard_accepts (bundle : FrozenEvidenceBundle) (projectId : UUID)
    (draft : GroundedAnswerDraft) :
    ((validate bundle projectId draft).valid = true →
      Passed bundle projectId draft (validate bundle projectId draft).usedEvidenceIds) ∧
    (Supported bundle projectId draft → (bundle.evidence.map (·.label)).Nodup →
      (bundle.unresolvedConflicts ≠ [] → draft.conflictDisclosure ≠ none) →
        (validate bundle projectId draft).valid = true) := by
  constructor
  · intro hvalid
    have h := valid_iff.mp hvalid
    have hnames {label : String} {item : FrozenEvidence}
      (hitem : bundle.byLabel label = some item) :
        bundle.Names label item := names_of_byLabel h.labels hitem
    have hclaimed : ∀ label ∈ draft.claimed, CitedOk bundle projectId label :=
      fun label hlabel => by
      obtain ⟨claim, hclaim, hlabel⟩ := List.mem_flatMap.mp hlabel
      exact (h.cited claim hclaim).2 label hlabel
    obtain ⟨hnodup, hused⟩ := used_of_valid h
    refine ⟨h.claims, fun claim hclaim => (h.cited claim hclaim).1, ?_, fun label hlabel => ?_,
      fun conflict hconflict => ?_,
      hnodup, hused⟩
    · rintro label (hlabel | hlabel)
      · obtain ⟨item, hitem, hproject, -⟩ := hclaimed label hlabel
        exact ⟨item, hnames hitem, hproject⟩
      · obtain ⟨item, hitem, hproject⟩ := h.disclosed label hlabel
        exact ⟨item, hnames hitem, hproject⟩
    · obtain ⟨item, hitem, -, hcurrent⟩ := hclaimed label hlabel
      exact ⟨item, hnames hitem, hcurrent⟩
    · obtain ⟨d, hd, hall⟩ := h.conflicts conflict hconflict
      unfold GroundedAnswerDraft.disclosed
      rw [hd]
      exact hall
  · intro h hnodup hdisclosure
    refine valid_iff.mpr ⟨hnodup, h.claims, fun claim hclaim =>
      ⟨h.cited claim hclaim, fun label hlabel => ?_⟩,
      fun label hlabel => ?_, fun conflict hconflict => ?_⟩
    · obtain ⟨item, hitem, hproject, hcurrent⟩ :=
        h.labels label (.inl (List.mem_flatMap.mpr ⟨claim, hclaim, hlabel⟩))
      exact ⟨item, byLabel_of_names hitem, hproject, hcurrent⟩
    · obtain ⟨item, hitem, hproject, -⟩ := h.labels label (.inr hlabel)
      exact ⟨item, byLabel_of_names hitem, hproject⟩
    · obtain ⟨d, hd⟩ := Option.ne_none_iff_exists'.mp (hdisclosure (List.ne_nil_of_mem hconflict))
      have hall := h.conflicts conflict hconflict
      unfold GroundedAnswerDraft.disclosed at hall
      rw [hd] at hall
      exact ⟨d, hd, hall⟩

namespace Sample

def item (label : String) (lifecycleStatus : Documents.DocumentLifecycleStatus) :
    FrozenEvidence where
  snapshotId := ⟨20⟩
  label := label
  projectId := ⟨2⟩
  projectCode := "P-1"
  documentVersionId := ⟨7⟩
  documentCategory := .APPROVED_DESIGN
  documentTitle := "Design"
  versionNo := 1
  versionLabel := "v1"
  authorityLevel := .APPROVED_DESIGN
  lifecycleStatus := lifecycleStatus
  isCurrent := true
  effectiveFrom := none
  effectiveTo := none
  content := "locked for 30 minutes"
  contentHash := "digest"
  score := .finite (9 / 10)
  knowledgeSpaceId := some "space-1"
  providerRef := some "chunk-1"
  pageNo := none
  section_ := none
  conflictKey := none
  claimValue := none
  unresolvedConflict := false

def citing (label : String) (disclosure : Option ConflictDisclosure) : GroundedAnswerDraft :=
  ⟨[⟨"Locked for 30 minutes.", [label]⟩], disclosure⟩

def disclosing : GroundedAnswerDraft := citing "E1" (some ⟨"The two differ.", ["E1", "E2"]⟩)

def opposed (second : Documents.DocumentLifecycleStatus) : FrozenEvidenceBundle :=
  ⟨[item "E1" .PUBLISHED, item "E2" second], [("lock", ["E1", "E2"])]⟩

end Sample

theorem supported_sample : Supported (Sample.opposed .PUBLISHED) ⟨2⟩ Sample.disclosing := by
  refine ⟨List.cons_ne_nil _ _, by decide +kernel, ?_, by decide +kernel⟩
  rintro label (hlabel | hlabel)
  · obtain rfl := List.mem_singleton.mp hlabel
    exact ⟨Sample.item "E1" .PUBLISHED, by decide +kernel, rfl, rfl, rfl⟩
  · rcases List.mem_cons.mp hlabel with rfl | hlabel
    · exact ⟨Sample.item "E1" .PUBLISHED, by decide +kernel, rfl, rfl, rfl⟩
    · obtain rfl := List.mem_singleton.mp hlabel
      exact ⟨Sample.item "E2" .PUBLISHED, by decide +kernel, rfl, rfl, rfl⟩

/-- A draft with both sides of a conflict disclosed. -/
theorem guard_accepts_sample :
    (CitationGuard.validate (Sample.opposed .PUBLISHED) ⟨2⟩ Sample.disclosing).valid = true ∧
    Passed (Sample.opposed .PUBLISHED) ⟨2⟩ Sample.disclosing ["E1", "E2"] := by
  obtain ⟨hpassed, haccepted⟩ := guard_accepts (Sample.opposed .PUBLISHED) ⟨2⟩ Sample.disclosing
  have hvalid := haccepted supported_sample (by decide +kernel) fun _ => Option.some_ne_none _
  exact ⟨hvalid, hpassed hvalid⟩

/-- Two items share a label that nothing cites; a conflict has no labels, and nothing discloses it:
neither draft passes. A disclosure cites what is no longer published: that one does. -/
theorem guard_disagrees :
    (Supported ⟨[Sample.item "E1" .PUBLISHED, Sample.item "E2" .PUBLISHED,
      Sample.item "E2" .PUBLISHED], []⟩ ⟨2⟩
        (Sample.citing "E1" none) ∧
      (CitationGuard.validate ⟨[Sample.item "E1" .PUBLISHED, Sample.item "E2" .PUBLISHED,
        Sample.item "E2" .PUBLISHED], []⟩ ⟨2⟩
        (Sample.citing "E1" none)).valid = false) ∧
    (Supported ⟨[Sample.item "E1" .PUBLISHED], [("lock", [])]⟩ ⟨2⟩ (Sample.citing "E1" none) ∧
      (CitationGuard.validate ⟨[Sample.item "E1" .PUBLISHED], [("lock", [])]⟩ ⟨2⟩
        (Sample.citing "E1" none)).valid = false) ∧
    ((CitationGuard.validate (Sample.opposed .SUPERSEDED) ⟨2⟩ Sample.disclosing).valid = true ∧
      ¬ Supported (Sample.opposed .SUPERSEDED) ⟨2⟩ Sample.disclosing) := by
  have hcites (bundle : FrozenEvidenceBundle)
    (hnames : bundle.Names "E1" (Sample.item "E1" .PUBLISHED))
      (hconflicts : ∀ conflict ∈ bundle.unresolvedConflicts, conflict.2 = []) :
      Supported bundle ⟨2⟩ (Sample.citing "E1" none) := by
    refine ⟨List.cons_ne_nil _ _, by decide +kernel, ?_, fun conflict hconflict label hlabel => ?_⟩
    · rintro label (hlabel | hlabel)
      · obtain rfl := List.mem_singleton.mp hlabel
        exact ⟨_, hnames, rfl, rfl, rfl⟩
      · cases hlabel
    · rw [hconflicts conflict hconflict] at hlabel
      cases hlabel
  refine ⟨⟨hcites _ (by decide +kernel) (fun _ h => nomatch h), by decide +kernel⟩,
    ⟨hcites _ (by decide +kernel) (by decide +kernel), by decide +kernel⟩, by
      decide +kernel, fun h => ?_⟩
  obtain ⟨item, hnames, -, hpublished, -⟩ :=
    h.labels "E2" (.inr (List.mem_cons_of_mem _ List.mem_cons_self))
  have hitem : (Sample.opposed .SUPERSEDED).Names "E2" (Sample.item "E2" .SUPERSEDED) := by
    decide +kernel
  obtain rfl := List.singleton_inj.mp (hnames.symm.trans hitem)
  cases hpublished

end ProjectAgent.Evidence
