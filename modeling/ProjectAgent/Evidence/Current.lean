/-
The current version of a document, computed three times: by the authorization
repository as the first published version of each document in a sort, by the
evidence governance repository as the one with the greatest published number,
and by the evaluation collector for the rows of a run. All three are `Current`.

`text` is the collector's `_text`, which redacts what looks like a secret.
-/
import ProjectAgent.Evidence.Rows
import ProjectAgent.Lib.Fallible
import ProjectAgent.Lib.Ranking
import ProjectAgent.Lib.Related

namespace ProjectAgent.Evidence

open Documents (Document DocumentVersion DocumentLifecycleStatus Tables)
open Interleave

/-! ## The tables -/

/-- What the schema keeps: the primary keys, `uq_document_versions_document_no`, and the foreign key
of a version. -/
structure Schema (t : Tables) : Prop where
  documents : (t.documents.map (·.id)).Nodup
  versions : (t.versions.map (·.id)).Nodup
  numbers : (t.versions.map fun version => (version.documentId, version.versionNo)).Nodup
  document : ∀ version ∈ t.versions, ∃ document ∈ t.documents, document.id = version.documentId

structure Snapshot where
  tables : Tables
  schema : Schema tables

/-- `document_versions` joined with `documents`. -/
def joined (t : Tables) : List (DocumentVersion × Document) :=
  t.versions.flatMap fun version => (t.documents.filter (·.id == version.documentId)).map
    fun document => (version, document)

/-- The published numbers of a document. -/
def publishedNumbers (t : Tables) (documentId : UUID) : List Nat :=
  (t.versions.filter fun version => version.documentId == documentId && version.lifecycleStatus ==
    .PUBLISHED).map (·.versionNo)

/-- `max(version_no)` of the published versions, for each of these documents that has one. -/
def currentVersions (t : Tables) (documentIds : List UUID) (documentId : UUID) : Option Nat :=
  if documentId ∈ documentIds then (publishedNumbers t documentId).max? else none

/-! ## `list_published_document_access` -/

structure DocumentAccessRecord where
  documentVersionId : UUID
  documentCategory : String
deriving DecidableEq

/-- `ORDER BY document_id, version_no DESC`. -/
def AccessBefore (a b : DocumentVersion × Document) : Prop :=
  a.1.documentId.int < b.1.documentId.int ∨ a.1.documentId = b.1.documentId ∧
    b.1.versionNo ≤ a.1.versionNo

instance : DecidableRel AccessBefore := fun _ _ => inferInstanceAs (Decidable (_ ∨ _))

/-- The published versions of a project. -/
def publishedRows (t : Tables) (projectId : UUID) : List (DocumentVersion × Document) :=
  (joined t).filter fun row => row.2.projectId == projectId && row.1.lifecycleStatus == .PUBLISHED

def listPublishedDocumentAccess (t : Tables) (projectId : UUID) : List DocumentAccessRecord :=
  (Ranking.firsts (fun row => row.1.documentId) []
    ((publishedRows t projectId).insertionSort AccessBefore)).map fun row =>
    ⟨row.1.id, row.2.documentCategory⟩

/-! ## `get_document_evidence_metadata` -/

def evidenceMetadata (t : Tables) (documentIds : List UUID) (row : DocumentVersion × Document) :
    Except StoreError (UUID × DocumentEvidenceMetadata) :=
  match DocumentCategory.ofValue row.2.documentCategory,
    AuthorityLevel.ofValue row.1.authorityLevel with
  | some category, some authority => .ok (row.1.id, {
      documentVersionId := row.1.id
      documentId := row.1.documentId
      projectId := row.2.projectId
      documentCategory := category
      title := row.2.title
      authorityLevel := authority
      lifecycleStatus := row.1.lifecycleStatus
      versionNo := row.1.versionNo
      versionLabel := row.1.versionLabel
      effectiveFrom := row.1.effectiveFrom.map Date.ofCode
      effectiveTo := row.1.effectiveTo.map Date.ofCode
      isCurrent := row.1.lifecycleStatus = .PUBLISHED &&
        currentVersions t documentIds row.1.documentId == some row.1.versionNo })
  | none, _ => .error (.valueError row.2.documentCategory)
  | _, none => .error (.valueError row.1.authorityLevel)

def requestedRows (t : Tables) (versionIds : List UUID) : List (DocumentVersion × Document) :=
  (joined t).filter fun row => row.1.id ∈ versionIds

def getDocumentEvidenceMetadata (t : Tables) (versionIds : List UUID) :
    Except StoreError (List (UUID × DocumentEvidenceMetadata)) :=
  if versionIds.isEmpty then .ok []
  else (requestedRows t versionIds).mapM
    (evidenceMetadata t ((requestedRows t versionIds).map (·.1.documentId)))

/-! ## The collector -/

structure EvidenceArtifact where
  evidenceId : UUID
  docCode : Option String
  projectCode : Option String
  rank : Nat
  documentVersionId : Option UUID
  lifecycleStatus : Option String
  isCurrent : Option Bool
  metadata : Dict JsonValue
  /-- Under "score" of `metadata`. -/
  score : Option Score

/-- What `read` finds of the versions of a run's snapshots: the version, its document and the
document's current number. -/
def readDocuments (t : Tables) (snapshots : List (EvidenceSnapshot Numeric)) (projectId : UUID) :
    List (UUID × DocumentVersion × Document × Option Nat) :=
  let versionIds := snapshots.filterMap (·.documentVersionId)
  let rows := (joined t).filter fun row => row.1.id ∈ versionIds && row.2.projectId == projectId
  rows.map fun row => (row.1.id, row.1, row.2,
    currentVersions t (rows.map (·.1.documentId)) row.1.documentId)

/-- `value is None`. -/
def orNull (value : JsonValue) : Option JsonValue := if value.isNull then none else some value

def safeIdentifier (text : String → String) (value : Option JsonValue) : Option String :=
  (value.bind JsonValue.str?).bind fun s => if text s ≠ "" && text s ≠ "[REDACTED]" then
    some (text s) else none

def safeNames : List String :=
  ["authority_level", "document_category", "version_no", "version_label", "unresolved_conflict",
    "conflict_key",
    "content_hash", "evidence_label"]

def safeMeta (text : String → String) (metadata : Dict JsonValue) : Dict JsonValue :=
  Dict.filterMap (fun key value =>
    if key ∈ safeNames then
      match value with
      | .null => none
      | .str s => some (.str (text s))
      | value => some value
    else none) metadata

def evidence (text : String → String) (row : EvidenceSnapshot Numeric) (versionToCode : Dict String)
    (documents : List (UUID × DocumentVersion × Document × Option Nat))
    (expectedProjectCode : String) (expectedProjectId : UUID) :
    Except StoreError EvidenceArtifact :=
  if row.projectId ≠ expectedProjectId then
    .error (.valueError "evaluation evidence belongs to a different project")
  else
    let found := row.documentVersionId.bind fun versionId => documents.lookup versionId
    if found.any fun entry => entry.2.1.projectId ≠ expectedProjectId then
      .error (.valueError "evaluation evidence document belongs to a different project")
    else
      let lifecycle := (orNull (row.value "lifecycle_status")).orElse fun _ =>
        found.map fun entry => .str entry.1.lifecycleStatus.value
      let isCurrent := (orNull (row.value "is_current")).orElse fun _ =>
        found.map fun entry => .bool (entry.1.lifecycleStatus = .PUBLISHED && entry.2.2 ==
          some entry.1.versionNo)
      if (orNull (row.value "project_code")).any (· ≠ .str expectedProjectCode) then
        .error (.valueError "evaluation evidence metadata has a different project")
      else .ok {
        evidenceId := row.id
        docCode := row.documentVersionId.bind fun versionId => versionToCode.lookup versionId.str
        projectCode := safeIdentifier text ((orNull (row.value "project_code")).orElse fun _ =>
          some (.str expectedProjectCode))
        rank := row.rank
        documentVersionId := row.documentVersionId
        lifecycleStatus := safeIdentifier text lifecycle
        isCurrent := match isCurrent with
          | some (.bool b) => some b
          | _ => none
        metadata := safeMeta text row.metadataJson
        score := row.score.map Numeric.toScore }

end ProjectAgent.Evidence
