/-
`CitationGuard.validate` and what `citation_guard_node` makes of its result:
the text of the answer and the snapshots its citations point to.
-/
import ProjectAgent.Evidence.Rows
import ProjectAgent.Lib.Fallible
import ProjectAgent.Lib.Related

namespace ProjectAgent.Evidence

open Interleave

structure CitationValidationResult where
  valid : Bool
  coverage : ℚ
  errors : List String
  usedEvidenceIds : List String
deriving DecidableEq

/-- `evidence_by_label`, where of two items with one label the later stays. -/
def FrozenEvidenceBundle.byLabel (bundle : FrozenEvidenceBundle) (label : String) :
    Option FrozenEvidence :=
  bundle.evidence.reverse.find? (·.label == label)

namespace CitationGuard

/-- What the loops of `validate` go on with. -/
structure Checked where
  errors : List String := []
  used : List String := []
  claimValid : Bool := true
  coveredClaims : Nat := 0

namespace Checked

def error (checked : Checked) (text : String) : Checked :=
  { checked with errors := checked.errors ++ [text] }

def invalid (checked : Checked) (text : String) : Checked :=
  { checked with errors := checked.errors ++ [text], claimValid := false }

def use (checked : Checked) (label : String) : Checked :=
  if label ∈ checked.used then checked else { checked with used := checked.used ++ [label] }

end Checked

variable (bundle : FrozenEvidenceBundle) (projectId : UUID)

def checkLabel (checked : Checked) (label : String) : Checked :=
  match bundle.byLabel label with
  | none => checked.invalid ("UNKNOWN_EVIDENCE_ID:" ++ label)
  | some item =>
    let checked := if item.projectId ≠ projectId then
      checked.invalid ("CROSS_PROJECT_EVIDENCE:" ++ label) else checked
    let checked :=
      if item.lifecycleStatus ≠ .PUBLISHED ∨ item.isCurrent = false then
        checked.invalid ("NON_CURRENT_EVIDENCE:" ++ label)
      else checked
    checked.use label

def checkClaim (checked : Checked) (entry : GroundedAnswerClaim × Nat) : Checked :=
  if entry.1.evidenceIds.isEmpty then checked.error ("UNCITED_CLAIM:" ++ toString entry.2)
  else
    let checked := entry.1.evidenceIds.foldl (checkLabel bundle projectId) { checked with
      claimValid := true }
    if checked.claimValid then { checked with
      coveredClaims := checked.coveredClaims + 1 } else checked

def checkDisclosed (checked : Checked) (label : String) : Checked :=
  match bundle.byLabel label with
  | none => checked.error ("UNKNOWN_EVIDENCE_ID:" ++ label)
  | some item =>
    (if item.projectId ≠ projectId then checked.error ("CROSS_PROJECT_EVIDENCE:" ++ label)
      else checked).use label

def checkConflict (disclosure : Option ConflictDisclosure) (checked : Checked)
    (conflict : String × List String) : Checked :=
  if disclosure.any fun disclosure => conflict.2.all (· ∈ disclosure.evidenceIds) then checked
  else checked.error ("MISSING_CONFLICT_DISCLOSURE:" ++ conflict.1)

def duplicates : List String :=
  let labels := bundle.evidence.map (·.label)
  (labels.filter fun label => 1 < labels.count label).map ("DUPLICATE_EVIDENCE_LABEL:" ++ ·)

def checked (draft : GroundedAnswerDraft) : Checked :=
  let checked := (draft.claims.zipIdx 1).foldl (checkClaim bundle projectId)
    { errors := duplicates bundle }
  let checked := (draft.conflictDisclosure.map (·.evidenceIds)).getD [] |>.foldl
    (checkDisclosed bundle projectId) checked
  let checked := bundle.unresolvedConflicts.foldl (checkConflict draft.conflictDisclosure) checked
  if draft.claims.isEmpty then checked.error "NO_FACTUAL_CLAIMS" else checked

def validate (draft : GroundedAnswerDraft) : CitationValidationResult :=
  let checked := checked bundle projectId draft
  let coverage : ℚ := if draft.claims.isEmpty then 0
    else checked.coveredClaims / draft.claims.length
  { valid := checked.errors.isEmpty && coverage = 1
    coverage := coverage
    errors := checked.errors.eraseDups
    usedEvidenceIds := checked.used }

/-! ## What a pass means -/

variable {bundle} {projectId} {before after : Checked} {label : String}

theorem byLabel_mem {item : FrozenEvidence} (h : bundle.byLabel label = some item) :
    item ∈ bundle.evidence ∧ item.label = label := by
  unfold FrozenEvidenceBundle.byLabel at h
  refine ⟨List.mem_reverse.mp (List.mem_of_find?_eq_some h), ?_⟩
  have hlabel := List.find?_some h
  exact beq_iff_eq.mp hlabel

/-- The labels noted as used are those of items, and of the project's own unless an error has been
noted. -/
def UsedOk (bundle : FrozenEvidenceBundle) (projectId : UUID) (checked : Checked) : Prop :=
  ∀ label ∈ checked.used, ∃ item, bundle.byLabel label = some item ∧
    (checked.errors = [] → item.projectId = projectId)

theorem UsedOk.grow (h : UsedOk bundle projectId before) (hused : after.used = before.used)
    (herrors : after.errors = [] → before.errors = []) : UsedOk bundle projectId after := by
  intro label hlabel
  obtain ⟨item, hitem, hproject⟩ := h label (hused ▸ hlabel)
  exact ⟨item, hitem, fun hnone => hproject (herrors hnone)⟩

theorem UsedOk.error (h : UsedOk bundle projectId before) (text : String) :
    UsedOk bundle projectId (before.error text) :=
  h.grow rfl fun hnone => absurd hnone (List.append_ne_nil_of_right_ne_nil _ (List.cons_ne_nil _ _))

theorem UsedOk.invalid (h : UsedOk bundle projectId before) (text : String) :
    UsedOk bundle projectId (before.invalid text) :=
  h.grow rfl fun hnone => absurd hnone (List.append_ne_nil_of_right_ne_nil _ (List.cons_ne_nil _ _))

theorem UsedOk.use (h : UsedOk bundle projectId before) {item : FrozenEvidence}
    (hitem : bundle.byLabel label = some item)
    (hproject : before.errors = [] → item.projectId = projectId) :
    UsedOk bundle projectId (before.use label) := by
  unfold Checked.use
  split
  · exact h
  · intro label' hlabel'
    rcases List.mem_append.mp hlabel' with hlabel' | hlabel'
    · exact h label' hlabel'
    · obtain rfl := List.mem_singleton.mp hlabel'
      exact ⟨item, hitem, hproject⟩

/-- An error that is noted stays noted. -/
theorem error_ne_nil (checked : Checked) (text : String) : (checked.error text).errors ≠ [] :=
  List.append_ne_nil_of_right_ne_nil _ (List.cons_ne_nil _ _)

theorem UsedOk.checkLabel (h : UsedOk bundle projectId before) (label : String) :
    UsedOk bundle projectId (checkLabel bundle projectId before label) := by
  unfold CitationGuard.checkLabel
  cases hitem : bundle.byLabel label with
  | none => exact h.invalid _
  | some item =>
    dsimp only
    by_cases hproject : item.projectId = projectId
    · rw [if_neg (not_not.mpr hproject)]
      split
      · exact (h.invalid _).use hitem fun _ => hproject
      · exact h.use hitem fun _ => hproject
    · rw [if_pos hproject]
      split
      · exact ((h.invalid _).invalid _).use hitem fun hnone => absurd hnone (error_ne_nil _ _)
      · exact (h.invalid _).use hitem fun hnone => absurd hnone (error_ne_nil _ _)

theorem UsedOk.checkDisclosed (h : UsedOk bundle projectId before) (label : String) :
    UsedOk bundle projectId (checkDisclosed bundle projectId before label) := by
  unfold CitationGuard.checkDisclosed
  cases hitem : bundle.byLabel label with
  | none => exact h.error _
  | some item =>
    dsimp only
    split
    · exact (h.error _).use hitem fun hnone => absurd hnone (error_ne_nil _ _)
    · next hproject => exact h.use hitem fun _ => not_not.mp hproject

theorem UsedOk.foldl {α : Type} {f : Checked → α → Checked}
    (hf : ∀ checked a, UsedOk bundle projectId checked → UsedOk bundle projectId (f checked a))
    (as : List α) (h : UsedOk bundle projectId before) :
    UsedOk bundle projectId (as.foldl f before) := by
  induction as generalizing before with
  | nil => exact h
  | cons a as ih => exact ih (hf before a h)

theorem UsedOk.checkClaim (h : UsedOk bundle projectId before) (entry : GroundedAnswerClaim × Nat) :
    UsedOk bundle projectId (checkClaim bundle projectId before entry) := by
  unfold CitationGuard.checkClaim
  split
  · exact h.error _
  · dsimp only
    have hlabels : UsedOk bundle projectId
      (entry.1.evidenceIds.foldl (CitationGuard.checkLabel bundle projectId)
        { before with claimValid := true }) :=
      UsedOk.foldl (fun _ label hchecked => hchecked.checkLabel label) _ (h.grow rfl id)
    split
    · exact hlabels.grow rfl id
    · exact hlabels

theorem UsedOk.checkConflict (h : UsedOk bundle projectId before)
    (disclosure : Option ConflictDisclosure) (conflict : String × List String) :
    UsedOk bundle projectId (checkConflict disclosure before conflict) := by
  unfold CitationGuard.checkConflict
  split
  · exact h
  · exact h.error _

theorem checked_ok (draft : GroundedAnswerDraft) :
    UsedOk bundle projectId (checked bundle projectId draft) := by
  have hstart : UsedOk bundle projectId { errors := duplicates bundle } :=
    fun label hlabel => nomatch hlabel
  have hclaims := UsedOk.foldl (fun _ entry hchecked => hchecked.checkClaim entry)
    (draft.claims.zipIdx 1) hstart
  have hdisclosed := UsedOk.foldl (fun _ label hchecked => hchecked.checkDisclosed label)
    ((draft.conflictDisclosure.map (·.evidenceIds)).getD []) hclaims
  have hconflicts := UsedOk.foldl (fun _ conflict hchecked =>
    hchecked.checkConflict draft.conflictDisclosure conflict)
    bundle.unresolvedConflicts hdisclosed
  unfold checked
  dsimp only
  split
  · exact hconflicts.error _
  · exact hconflicts

/-- **What a draft that passes cites are items of the project.** -/
theorem validate_used {draft : GroundedAnswerDraft}
    (h : (validate bundle projectId draft).valid = true)
    (hlabel : label ∈ (validate bundle projectId draft).usedEvidenceIds) :
    ∃ item, bundle.byLabel label = some item ∧ item.projectId = projectId := by
  obtain ⟨item, hitem, hproject⟩ := checked_ok draft label hlabel
  obtain ⟨hnone, -⟩ := Bool.and_eq_true_iff.mp h
  exact ⟨item, hitem, hproject (List.isEmpty_iff.mp hnone)⟩

end CitationGuard

/-! ## The answer -/

def cited (labels : List String) : String :=
  String.join (labels.map fun label => "[" ++ label ++ "]")

/-- `str.rstrip`. -/
def rstrip (text : String) : String := String.ofList (text.toList.reverse.dropWhile isSpace).reverse

def renderAnswer (draft : GroundedAnswerDraft) : String :=
  "\n".intercalate (draft.claims.map (fun claim =>
    rstrip (claim.text ++ " " ++ cited claim.evidenceIds)) ++
    (draft.conflictDisclosure.map fun disclosure =>
      rstrip ("冲突说明：" ++ disclosure.text ++ " " ++ cited disclosure.evidenceIds)).toList)

/-- `int(label[1:])` and the snapshot of the label's item. -/
def citation (bundle : FrozenEvidenceBundle) (label : String) :
    Except StoreError CitationReference :=
  match intOfText (String.ofList (label.toList.drop 1)), bundle.byLabel label with
  | none, _ => .error (.valueError label)
  | some _, none => .error (.keyError label)
  | some citationNo, some item => .ok ⟨citationNo, item.snapshotId⟩

/-- The citations are those of a bundle. -/
structure Grounded where
  bundle : FrozenEvidenceBundle
  citations : List CitationReference
  ofBundle : ∀ reference ∈ citations, ∃ item ∈ bundle.evidence,
    item.snapshotId = reference.evidenceSnapshotId

/-- What `citation_guard_node` saves of a draft that passes. -/
def grounded (bundle : FrozenEvidenceBundle) (labels : List String) : Except StoreError Grounded :=
  match h : labels.mapM (citation bundle) with
  | .error e => .error e
  | .ok citations => .ok ⟨bundle, citations, fun reference hreference => by
      obtain ⟨label, -, hcitation⟩ := Related.mem_left (Fallible.mapM_eq_ok.mp h).flip hreference
      unfold citation at hcitation
      split at hcitation
      · cases hcitation
      · cases hcitation
      · next hitem =>
        cases hcitation
        exact ⟨_, (CitationGuard.byLabel_mem hitem).1, rfl⟩⟩

end ProjectAgent.Evidence
