/-
The bundles of a run: how `SqlAlchemyQAGraphStore` saves the retrieved chunks
and the governed pack, and what it loads of them.
-/
import ProjectAgent.Evidence.Packs

namespace ProjectAgent.Evidence

/-- The ids `uuid4` draws for a bundle and for its snapshots, by rank. -/
structure Ids where
  bundle : UUID
  snapshot : Nat → UUID

/-- `text or default`. -/
def orElse (text : Option String) (default : String) : String := (orNone text).getD default

/-! ## Retrieved chunks -/

/-- The keys `save_evidence_bundle` writes of its own. -/
def reservedKeys : List String :=
  ["retrieval_round", "project_code", "knowledge_space_id", "page_no", "section"]

def candidateMetadata (retrievalRound : Int) (chunk : KnowledgeChunk) : Dict JsonValue :=
  .insert "section" (.ofOption .str chunk.section_) <|
    .insert "page_no" (.ofOption .int chunk.pageNo) <|
    .insert "knowledge_space_id" (.ofOption .str chunk.knowledgeSpaceId) <|
    .insert "project_code" (.str chunk.projectId) <|
      .insert "retrieval_round" (.int retrievalRound) <|
    Dict.map .str chunk.metadata

def candidateRow (ids : Ids) (projectId : UUID) (retrievalRound : Int)
    (entry : KnowledgeChunk × Nat) :
    Except StoreError (EvidenceSnapshot Score) :=
  match UUID.parse entry.1.documentVersionId with
  | none => .error (.valueError "badly formed hexadecimal UUID string")
  | some versionId => .ok {
      id := ids.snapshot entry.2
      bundleId := ids.bundle
      projectId := projectId
      documentVersionId := some versionId
      sourceType := "retrieval_candidate"
      sourceRef := orElse entry.1.providerRef ("retrieval:" ++ toString entry.2)
      content := entry.1.content
      rank := entry.2
      score := some entry.1.score
      metadataJson := candidateMetadata retrievalRound entry.1 }

/-- What an empty round leaves. -/
def roundMarker (ids : Ids) (projectId : UUID) (retrievalRound : Int) : EvidenceSnapshot Score where
  id := ids.snapshot 0
  bundleId := ids.bundle
  projectId := projectId
  documentVersionId := none
  sourceType := "retrieval_round_marker"
  sourceRef := "evaluation:empty-retrieval-round"
  content := ""
  rank := 0
  score := none
  metadataJson := Dict.ofList [("retrieval_round", .int retrievalRound)]

def saveEvidenceBundle (db : EvidenceTables) (ids : Ids) (runId projectId : UUID)
    (queryText : String) (chunks : List KnowledgeChunk) (retrievalRound : Int) :
    Except StoreError EvidenceTables :=
  if retrievalRound < 1 then .error (.valueError "retrieval_round must be positive")
  else do
    let db ← db.insertBundle ⟨ids.bundle, runId, queryText⟩
    let rows ← (chunks.zipIdx 1).mapM (candidateRow ids projectId retrievalRound)
    db.insertSnapshots (if chunks.isEmpty then [roundMarker ids projectId retrievalRound] else rows)

def loadCandidate (row : EvidenceSnapshot Numeric) : Except StoreError KnowledgeChunk :=
  match (row.value "project_code").str?, row.documentVersionId with
  | some projectCode, some versionId => .ok {
      projectId := projectCode
      documentVersionId := versionId.str
      content := row.content
      score := (row.score.map Numeric.toScore).getD (.finite 0)
      knowledgeSpaceId :=
        if (row.value "knowledge_space_id").isNull then none
          else some (row.value "knowledge_space_id").toStr
      providerRef := some row.sourceRef
      pageNo := (row.value "page_no").int?
      section_ := (row.value "section").str?
      metadata := Dict.map JsonValue.toStr
        (reservedKeys.foldl (fun metadata key => metadata.erase key) row.metadataJson) }
  | _, _ =>
    .error (.valueError ("evidence snapshot " ++ row.id.str ++
      " is missing project/version mapping"))

def loadEvidenceBundle (db : EvidenceTables) (bundleId : UUID) :
    Except StoreError (List KnowledgeChunk) :=
  (db.ranked bundleId "retrieval_candidate").mapM loadCandidate

/-! ## Governed evidence -/

/-- `provider_metadata`, which is not read again, is left out. -/
def governedMetadata (sha256 : String → String) (item : GovernedEvidence) : Dict JsonValue :=
  Dict.ofList [
    ("evidence_label", .str item.label),
    ("project_code", .str item.projectCode),
    ("knowledge_space_id", .ofOption .str item.knowledgeSpaceId),
    ("page_no", .ofOption .int item.pageNo),
    ("section", .ofOption .str item.section_),
    ("document_version_id", .str item.documentVersionId.str),
    ("document_category", .str item.documentCategory.value),
    ("document_title", .str item.documentTitle),
    ("version_no", .int item.versionNo),
    ("version_label", .str item.versionLabel),
    ("authority_level", .str item.authorityLevel.value),
    ("lifecycle_status", .str item.lifecycleStatus.value),
    ("is_current", .bool item.isCurrent),
    ("effective_from", .ofOption (fun date => .str date.isoformat) item.effectiveFrom),
    ("effective_to", .ofOption (fun date => .str date.isoformat) item.effectiveTo),
    ("content_hash", .str (item.contentHash sha256)),
    ("conflict_key", .ofOption .str item.conflictKey),
    ("claim_value", .ofOption .str item.claimValue),
    ("unresolved_conflict", .bool item.unresolvedConflict)]

def governedRow (sha256 : String → String) (ids : Ids) (projectId : UUID)
    (entry : GovernedEvidence × Nat) :
    EvidenceSnapshot Score where
  id := ids.snapshot entry.2
  bundleId := ids.bundle
  projectId := projectId
  documentVersionId := some entry.1.documentVersionId
  sourceType := "governed_evidence"
  sourceRef := orElse entry.1.providerRef entry.1.label
  content := entry.1.content
  rank := entry.2
  score := some entry.1.score
  metadataJson := governedMetadata sha256 entry.1

def saveGovernedEvidenceBundle (sha256 : String → String) (db : EvidenceTables) (ids : Ids)
    (runId projectId : UUID)
    (queryText : String) (pack : GovernedEvidencePack) : Except StoreError EvidenceTables := do
  let db ← db.insertBundle ⟨ids.bundle, runId, queryText⟩
  db.insertSnapshots ((pack.evidence.zipIdx 1).map (governedRow sha256 ids projectId))

section Loading

variable (row : EvidenceSnapshot Numeric)

/-- `metadata[key]`. -/
def required (key : String) : Except StoreError JsonValue :=
  match row.metadataJson.lookup key with
  | some value => .ok value
  | none => .error (.keyError key)

def parsed {α : Type} (f : String → Option α) (key : String) : Except StoreError α := do
  let value ← required row key
  match f value.toStr with
  | some a => .ok a
  | none => .error (.valueError key)

/-- `int(metadata[key])`. -/
def requiredInt (key : String) : Except StoreError Int := do
  let value ← required row key
  match value with
  | .null => .error .typeError
  | .bool b => .ok (if b then 1 else 0)
  | .int i => .ok i
  | .str s =>
    match intOfText s with
    | some i => .ok i
    | none => .error (.valueError key)

def optionalDate (key : String) : Except StoreError (Option Date) :=
  if (row.value key).truthy then
    match Date.fromisoformat (row.value key).toStr with
    | some date => .ok (some date)
    | none => .error (.valueError key)
  else .ok none

def optionalStr (key : String) : Option String :=
  if (row.value key).isNull then none else some (row.value key).toStr

def frozenVersionId : Except StoreError UUID :=
  match row.documentVersionId, row.value "document_version_id" with
  | some versionId, _ => .ok versionId
  | none, .null =>
    .error (.valueError ("governed evidence " ++ row.id.str ++ " is missing document version"))
  | none, value =>
    match UUID.parse value.toStr with
    | some versionId => .ok versionId
    | none => .error (.valueError "badly formed hexadecimal UUID string")

def loadGoverned : Except StoreError FrozenEvidence := do
  let versionId ← frozenVersionId row
  match (row.value "evidence_label").str?, (row.value "project_code").str? with
  | some label, some projectCode =>
    let category ← parsed row DocumentCategory.ofValue "document_category"
    let title ← required row "document_title"
    let versionNo ← requiredInt row "version_no"
    let versionLabel ← required row "version_label"
    let authority ← parsed row AuthorityLevel.ofValue "authority_level"
    let lifecycle ← parsed row lifecycleOfValue "lifecycle_status"
    let isCurrent ← required row "is_current"
    let effectiveFrom ← optionalDate row "effective_from"
    let effectiveTo ← optionalDate row "effective_to"
    let contentHash ← required row "content_hash"
    pure {
      snapshotId := row.id
      label := label
      projectId := row.projectId
      projectCode := projectCode
      documentVersionId := versionId
      documentCategory := category
      documentTitle := title.toStr
      versionNo := versionNo
      versionLabel := versionLabel.toStr
      authorityLevel := authority
      lifecycleStatus := lifecycle
      isCurrent := isCurrent.truthy
      effectiveFrom := effectiveFrom
      effectiveTo := effectiveTo
      content := row.content
      contentHash := contentHash.toStr
      score := (row.score.map Numeric.toScore).getD (.finite 0)
      knowledgeSpaceId := optionalStr row "knowledge_space_id"
      providerRef := some row.sourceRef
      pageNo := (row.value "page_no").int?
      section_ := optionalStr row "section"
      conflictKey := optionalStr row "conflict_key"
      claimValue := optionalStr row "claim_value"
      unresolvedConflict := (row.value "unresolved_conflict").truthy }
  | _, _ => .error (.valueError ("governed evidence " ++ row.id.str ++ " is missing label/project"))

/-- The key under which the loop notes the row's label. -/
def notedKey : Option String :=
  if (row.value "unresolved_conflict").truthy then (row.value "conflict_key").str? else none

end Loading

/-- `conflicts`, which `setdefault` makes. -/
def notedConflicts (rows : List (EvidenceSnapshot Numeric)) : List (String × List String) :=
  (rows.filterMap notedKey).eraseDups.map fun key =>
    (key, (rows.filter fun row => notedKey row == some key).filterMap fun row =>
      (row.value "evidence_label").str?)

def loadGovernedEvidenceBundle (db : EvidenceTables) (bundleId : UUID) :
    Except StoreError FrozenEvidenceBundle := do
  let rows := db.ranked bundleId "governed_evidence"
  let evidence ← rows.mapM loadGoverned
  pure ⟨evidence, notedConflicts rows⟩

end ProjectAgent.Evidence
