/-
Evidence: the chunks the knowledge provider returns, the metadata of the
document versions they are of, and the packs and bundles made of them.

A float is the number its `repr` prints, or one of the three that print no
number; a date is its year, month and day.
-/
import ProjectAgent.Documents.Store
import ProjectAgent.Lib.Decimal
import ProjectAgent.Lib.Dict

namespace ProjectAgent.Evidence

open Documents (DocumentLifecycleStatus)

/-! ## Enumerations -/

inductive AuthorityLevel where
  | SIGNED_SCOPE | APPROVED_CHANGE | REQUIREMENT_BASELINE | APPROVED_MEETING_MINUTES
      | APPROVED_DESIGN
  | APPROVED_TEST_SPEC | RELEASE_RUNBOOK | ISSUE_RECORD | INFORMAL_NOTE
deriving DecidableEq

namespace AuthorityLevel

def value : AuthorityLevel → String
  | SIGNED_SCOPE => "signed_scope"
  | APPROVED_CHANGE => "approved_change"
  | REQUIREMENT_BASELINE => "requirement_baseline"
  | APPROVED_MEETING_MINUTES => "approved_meeting_minutes"
  | APPROVED_DESIGN => "approved_design"
  | APPROVED_TEST_SPEC => "approved_test_spec"
  | RELEASE_RUNBOOK => "release_runbook"
  | ISSUE_RECORD => "issue_record"
  | INFORMAL_NOTE => "informal_note"

def all : List AuthorityLevel :=
  [SIGNED_SCOPE, APPROVED_CHANGE, REQUIREMENT_BASELINE, APPROVED_MEETING_MINUTES, APPROVED_DESIGN,
    APPROVED_TEST_SPEC,
    RELEASE_RUNBOOK, ISSUE_RECORD, INFORMAL_NOTE]

def ofValue (text : String) : Option AuthorityLevel := all.find? (·.value == text)

@[simp] theorem ofValue_value (level : AuthorityLevel) : ofValue level.value = some level := by
  cases level <;> rfl

end AuthorityLevel

inductive DocumentCategory where
  | REQUIREMENT_BASELINE | APPROVED_DESIGN | API_SPECIFICATION | DATABASE_DESIGN
      | APPROVED_TEST_SPEC
  | RELEASE_RUNBOOK | APPROVED_MEETING_MINUTES | ISSUE_RECORD
deriving DecidableEq

namespace DocumentCategory

def value : DocumentCategory → String
  | REQUIREMENT_BASELINE => "requirement_baseline"
  | APPROVED_DESIGN => "approved_design"
  | API_SPECIFICATION => "api_specification"
  | DATABASE_DESIGN => "database_design"
  | APPROVED_TEST_SPEC => "approved_test_spec"
  | RELEASE_RUNBOOK => "release_runbook"
  | APPROVED_MEETING_MINUTES => "approved_meeting_minutes"
  | ISSUE_RECORD => "issue_record"

def all : List DocumentCategory :=
  [REQUIREMENT_BASELINE, APPROVED_DESIGN, API_SPECIFICATION, DATABASE_DESIGN, APPROVED_TEST_SPEC,
    RELEASE_RUNBOOK,
    APPROVED_MEETING_MINUTES, ISSUE_RECORD]

def ofValue (text : String) : Option DocumentCategory := all.find? (·.value == text)

@[simp] theorem ofValue_value (category : DocumentCategory) :
    ofValue category.value = some category := by
  cases category <;> rfl

end DocumentCategory

def lifecycleOfValue (text : String) : Option DocumentLifecycleStatus :=
  [DocumentLifecycleStatus.DRAFT, .UNDER_REVIEW, .APPROVED, .PUBLISHED, .SUPERSEDED, .ARCHIVED,
    .DELETE_PENDING,
    .DELETED].find? (·.value == text)

@[simp] theorem lifecycleOfValue_value (status : DocumentLifecycleStatus) :
    lifecycleOfValue status.value = some status := by
  cases status <;> rfl

/-! ## Dates -/

structure Date where
  year : Fin 10000
  /-- From zero, as the day. -/
  month : Fin 12
  day : Fin 31
deriving DecidableEq

instance neZero_years : NeZero 10000 := ⟨by decide⟩

instance neZero_months : NeZero 12 := ⟨by decide⟩

instance neZero_days : NeZero 31 := ⟨by decide⟩

namespace Date

/-- Later dates have larger codes. -/
def code (date : Date) : Nat := 372 * date.year + 31 * date.month + date.day

/-- The date of a code, which is how the rows of the documents hold theirs. -/
def ofCode (n : Nat) : Date := ⟨Fin.ofNat _ (n / 372), Fin.ofNat _ (n / 31), Fin.ofNat _ n⟩

def isoformatChars (date : Date) : List Char :=
  Decimal.digits 4 date.year ++ '-' ::
    (Decimal.digits 2 (date.month + 1) ++ '-' :: Decimal.digits 2 (date.day + 1))

def isoformat (date : Date) : String := String.ofList date.isoformatChars

/-- Of the texts `isoformat` prints. -/
def fromisoformat (text : String) : Option Date := do
  let cs := text.toList
  let year ← Decimal.value (cs.take 4)
  let month ← Decimal.value ((cs.drop 5).take 2)
  let day ← Decimal.value (cs.drop 8)
  if h : year < 10000 ∧ (0 < month ∧ month ≤ 12) ∧ (0 < day ∧ day ≤ 31) ∧ cs[4]? = some '-' ∧
    cs[7]? = some '-' then
    pure ⟨⟨year, h.1⟩, ⟨month - 1, by omega⟩, ⟨day - 1, by omega⟩⟩
  else none

@[simp] theorem fromisoformat_isoformat (date : Date) :
    fromisoformat date.isoformat = some date := by
  obtain ⟨⟨year, hyear⟩, ⟨month, hmonth⟩, ⟨day, hday⟩⟩ := date
  have hy : Decimal.value (Decimal.digits 4 year) = some year :=
    Decimal.value_digits_of_lt (by omega)
  have hm : Decimal.value (Decimal.digits 2 (month + 1)) = some (month + 1) :=
    Decimal.value_digits_of_lt (by omega)
  have hd : Decimal.value (Decimal.digits 2 (day + 1)) = some (day + 1) :=
    Decimal.value_digits_of_lt (by omega)
  have htake : (isoformatChars ⟨⟨year, hyear⟩, ⟨month, hmonth⟩, ⟨day, hday⟩⟩).take 4 =
      Decimal.digits 4 year := by
    rw [isoformatChars, List.take_left' (Decimal.length_digits 4 year)]
  have hdrop : (isoformatChars ⟨⟨year, hyear⟩, ⟨month, hmonth⟩, ⟨day, hday⟩⟩).drop 5 =
      Decimal.digits 2 (month + 1) ++ '-' :: Decimal.digits 2 (day + 1) := by
    rw [isoformatChars, ← List.singleton_append, ← List.append_assoc, List.drop_left' (by simp)]
  have hlast : (isoformatChars ⟨⟨year, hyear⟩, ⟨month, hmonth⟩, ⟨day, hday⟩⟩).drop 8 =
      Decimal.digits 2 (day + 1) := by
    rw [show 8 = 5 + 3 from rfl, ← List.drop_drop, hdrop, ← List.singleton_append,
      ← List.append_assoc,
      List.drop_left' (by simp)]
  have hfirst : (isoformatChars ⟨⟨year, hyear⟩, ⟨month, hmonth⟩, ⟨day, hday⟩⟩)[4]? = some '-' := by
    rw [isoformatChars, List.getElem?_append_right (by simp)]
    simp
  have hsecond : (isoformatChars ⟨⟨year, hyear⟩, ⟨month, hmonth⟩, ⟨day, hday⟩⟩)[7]? = some '-' := by
    rw [isoformatChars, List.getElem?_append_right (by simp)]
    simp
  unfold fromisoformat isoformat
  simp only [String.toList_ofList]
  rw [htake, hdrop, List.take_left' (Decimal.length_digits 2 (month + 1)), hlast, hy, hm, hd]
  simp only [Option.bind_eq_bind, Option.bind_some]
  rw [dif_pos ⟨hyear, ⟨by omega, by omega⟩, ⟨by omega, by omega⟩, hfirst, hsecond⟩]
  simp

end Date

/-! ## Scores -/

inductive Score where
  | nan | negInf | posInf
  | finite (value : ℚ)
deriving DecidableEq

namespace Score

/-- `<` of floats. -/
def lt : Score → Score → Bool
  | finite a, finite b => a < b
  | negInf, finite _ | negInf, posInf | finite _, posInf => true
  | _, _ => false

/-- `==` of floats. -/
def eq : Score → Score → Bool
  | finite a, finite b => a = b
  | negInf, negInf | posInf, posInf => true
  | _, _ => false

end Score

/-! ## What is passed on -/

structure KnowledgeChunk where
  projectId : String
  documentVersionId : String
  content : String
  score : Score
  knowledgeSpaceId : Option String
  providerRef : Option String
  pageNo : Option Int
  section_ : Option String
  metadata : Dict String
deriving DecidableEq

structure DocumentEvidenceMetadata where
  documentVersionId : UUID
  documentId : UUID
  projectId : UUID
  documentCategory : DocumentCategory
  title : String
  authorityLevel : AuthorityLevel
  lifecycleStatus : DocumentLifecycleStatus
  versionNo : Nat
  versionLabel : String
  effectiveFrom : Option Date
  effectiveTo : Option Date
  isCurrent : Bool

structure GovernedEvidence where
  label : String
  projectId : UUID
  projectCode : String
  documentVersionId : UUID
  documentCategory : DocumentCategory
  documentTitle : String
  versionNo : Nat
  versionLabel : String
  authorityLevel : AuthorityLevel
  lifecycleStatus : DocumentLifecycleStatus
  isCurrent : Bool
  effectiveFrom : Option Date
  effectiveTo : Option Date
  content : String
  score : Score
  knowledgeSpaceId : Option String
  providerRef : Option String
  pageNo : Option Int
  section_ : Option String
  providerMetadata : Dict String
  conflictKey : Option String
  claimValue : Option String
  unresolvedConflict : Bool
deriving DecidableEq

/-- What `content_hash` is the digest of. -/
def GovernedEvidence.hashed (item : GovernedEvidence) : String :=
  "\n".intercalate [item.projectId.str, item.documentVersionId.str, item.authorityLevel.value,
    item.versionLabel, item.content]

def GovernedEvidence.contentHash (sha256 : String → String) (item : GovernedEvidence) : String :=
  sha256 item.hashed

structure GovernedEvidencePack where
  evidence : List GovernedEvidence
  /-- A dictionary, in its own order. -/
  unresolvedConflicts : List (String × List String)
deriving DecidableEq

structure FrozenEvidence where
  snapshotId : UUID
  label : String
  projectId : UUID
  projectCode : String
  documentVersionId : UUID
  documentCategory : DocumentCategory
  documentTitle : String
  versionNo : Int
  versionLabel : String
  authorityLevel : AuthorityLevel
  lifecycleStatus : DocumentLifecycleStatus
  isCurrent : Bool
  effectiveFrom : Option Date
  effectiveTo : Option Date
  content : String
  contentHash : String
  score : Score
  knowledgeSpaceId : Option String
  providerRef : Option String
  pageNo : Option Int
  section_ : Option String
  conflictKey : Option String
  claimValue : Option String
  unresolvedConflict : Bool
deriving DecidableEq

structure FrozenEvidenceBundle where
  evidence : List FrozenEvidence
  /-- A dictionary, in its own order. -/
  unresolvedConflicts : List (String × List String)
deriving DecidableEq

structure GroundedAnswerClaim where
  text : String
  evidenceIds : List String
deriving DecidableEq

structure ConflictDisclosure where
  text : String
  evidenceIds : List String
deriving DecidableEq

structure GroundedAnswerDraft where
  claims : List GroundedAnswerClaim
  conflictDisclosure : Option ConflictDisclosure
deriving DecidableEq

structure CitationReference where
  citationNo : Int
  evidenceSnapshotId : UUID
deriving DecidableEq

end ProjectAgent.Evidence
