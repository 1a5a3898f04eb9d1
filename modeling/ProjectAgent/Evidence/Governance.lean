/-
`EvidenceGovernanceService.pack`: which chunks become evidence, which of them
are in conflict, and in what order and under which labels they are packed.

`list.sort` is a stable sort by the order of the keys. An object is known by
its place in the list of candidates.
-/
import ProjectAgent.Evidence.Rows
import Mathlib.Data.List.Forall2
import Mathlib.Data.List.Sort

namespace ProjectAgent.Evidence

open Documents (DocumentLifecycleStatus)

/-! ## The order of evidence -/

def authorityOrder : List AuthorityLevel :=
  [.SIGNED_SCOPE, .APPROVED_CHANGE, .REQUIREMENT_BASELINE, .APPROVED_MEETING_MINUTES,
    .APPROVED_DESIGN,
    .APPROVED_TEST_SPEC, .RELEASE_RUNBOOK, .ISSUE_RECORD, .INFORMAL_NOTE]

def authorityRank (level : AuthorityLevel) : Nat := authorityOrder.idxOf level

/-- `<` of the sort keys: by authority, the greater score first, the later version first, and the
version's id. -/
def keyLt (a b : GovernedEvidence) : Bool :=
  if authorityRank a.authorityLevel ≠ authorityRank b.authorityLevel then
    authorityRank a.authorityLevel < authorityRank b.authorityLevel
  else if !Score.eq a.score b.score then Score.lt b.score a.score
  else if a.versionNo ≠ b.versionNo then b.versionNo < a.versionNo
  else a.documentVersionId.str < b.documentVersionId.str

/-- Where a score is no number the keys are not in order, and CPython's `list.sort`
may leave the items in another order than this. -/
def sortEvidence (items : List GovernedEvidence) : List GovernedEvidence :=
  items.insertionSort fun a b => keyLt b a = false

/-! ## The candidates -/

def parsedChunks (projectCode : String) (chunks : List KnowledgeChunk) :
    List (KnowledgeChunk × UUID) :=
  chunks.filterMap fun chunk =>
    if chunk.projectId ≠ projectCode then none
      else (UUID.parse chunk.documentVersionId).map (chunk, ·)

/-- Of the project, published, current and in its effective dates. -/
def eligible (projectId : UUID) (today : Date) (info : DocumentEvidenceMetadata) : Bool :=
  info.projectId == projectId && info.lifecycleStatus == .PUBLISHED && info.isCurrent &&
    info.effectiveFrom.all (·.code ≤ today.code) && info.effectiveTo.all (today.code ≤ ·.code)

def candidate (projectId : UUID) (projectCode : String) (chunk : KnowledgeChunk) (versionId : UUID)
    (info : DocumentEvidenceMetadata) : GovernedEvidence where
  label := ""
  projectId := projectId
  projectCode := projectCode
  documentVersionId := versionId
  documentCategory := info.documentCategory
  documentTitle := info.title
  versionNo := info.versionNo
  versionLabel := info.versionLabel
  authorityLevel := info.authorityLevel
  lifecycleStatus := info.lifecycleStatus
  isCurrent := info.isCurrent
  effectiveFrom := info.effectiveFrom
  effectiveTo := info.effectiveTo
  content := chunk.content
  score := chunk.score
  knowledgeSpaceId := chunk.knowledgeSpaceId
  providerRef := chunk.providerRef
  pageNo := chunk.pageNo
  section_ := chunk.section_
  providerMetadata := chunk.metadata
  conflictKey := orNone (chunk.metadata.lookup "conflict_key")
  claimValue := orNone (chunk.metadata.lookup "claim_value")
  unresolvedConflict := false

/-- The loop over the parsed chunks; `seen` is of versions and contents. -/
def candidates (metadata : UUID → Option DocumentEvidenceMetadata) (today : Date) (projectId : UUID)
    (projectCode : String) :
    List (UUID × String) → List (KnowledgeChunk × UUID) → List GovernedEvidence
  | _, [] => []
  | seen, (chunk, versionId) :: rest =>
    match (metadata versionId).filter (eligible projectId today) with
    | none => candidates metadata today projectId projectCode seen rest
    | some info =>
      if (versionId, strip chunk.content) ∈ seen then
        candidates metadata today projectId projectCode seen rest
      else
        candidate projectId projectCode chunk versionId info ::
          candidates metadata today projectId projectCode
            ((versionId, strip chunk.content) :: seen) rest

/-! ## Conflicts -/

/-- `len(set(values))`. -/
def distinctCount {α : Type} [DecidableEq α] (values : List α) : Nat := values.eraseDups.length

def GovernedEvidence.grouped (item : GovernedEvidence) : Bool :=
  item.conflictKey.any (· ≠ "") && item.claimValue.isSome

def GovernedEvidence.flagged (item : GovernedEvidence) : GovernedEvidence :=
  { item with unresolvedConflict := true }

def bestRank (values : List GovernedEvidence) : Nat :=
  ((values.map fun item => authorityRank item.authorityLevel).min?).getD 0

/-- Those of the best authority. -/
def topOf (values : List GovernedEvidence) : List GovernedEvidence :=
  values.filter fun item => authorityRank item.authorityLevel = bestRank values

def resolveGroup (values : List GovernedEvidence) : List GovernedEvidence :=
  if distinctCount (values.map (·.claimValue)) ≤ 1 then values
  else if distinctCount ((topOf values).map (·.claimValue)) = 1 then topOf values
  else (topOf values).map (·.flagged)

/-- The keys of the groups, in the order they were made. -/
def groupKeys (items : List GovernedEvidence) : List String :=
  ((items.filter (·.grouped)).filterMap (·.conflictKey)).eraseDups

def groupOf (items : List GovernedEvidence) (key : String) : List GovernedEvidence :=
  items.filter fun item => item.grouped && item.conflictKey == some key

def resolveExplicitConflicts (items : List GovernedEvidence) : List GovernedEvidence :=
  items.filter (!·.grouped) ++ (groupKeys items).flatMap fun key => resolveGroup (groupOf items key)

/-! ## The pack -/

def protectedKeys (sorted : List GovernedEvidence) : List String :=
  sorted.filterMap fun item => if item.unresolvedConflict then item.conflictKey else none

def isProtected (sorted : List GovernedEvidence) (item : GovernedEvidence) : Bool :=
  item.unresolvedConflict && item.conflictKey.any (· ∈ protectedKeys sorted)

/-- The first few, and every protected one after them. -/
def select (maxEvidence : Nat) (sorted : List GovernedEvidence) : List GovernedEvidence :=
  if (protectedKeys sorted).isEmpty then sorted.take maxEvidence
  else sortEvidence (sorted.take maxEvidence ++
    (sorted.drop maxEvidence).filter (isProtected sorted))

def labelOf (index : Nat) : String := "E" ++ toString index

def labeled (selected : List GovernedEvidence) : List GovernedEvidence :=
  (selected.zipIdx 1).map fun (item, index) => { item with label := labelOf index }

/-- The packed items of a conflict. -/
def conflicting (items : List GovernedEvidence) (key : String) : List GovernedEvidence :=
  items.filter fun item => item.unresolvedConflict && item.conflictKey == some key && key ≠ ""

def conflictKeys (items : List GovernedEvidence) : List String :=
  ((items.filter (·.unresolvedConflict)).filterMap fun item =>
    item.conflictKey.filter (· ≠ "")).eraseDups

def unresolvedConflicts (items : List GovernedEvidence) : List (String × List String) :=
  ((conflictKeys items).insertionSort (· ≤ ·)).filterMap fun key =>
    if 1 < distinctCount ((conflicting items key).map (·.claimValue)) then
      some (key, (conflicting items key).map (·.label))
    else none

def packOf (maxEvidence : Nat) (items : List GovernedEvidence) : GovernedEvidencePack :=
  let evidence := labeled (select maxEvidence (sortEvidence (resolveExplicitConflicts items)))
  ⟨evidence, unresolvedConflicts evidence⟩

/-- `get_document_evidence_metadata`. -/
abbrev Repository := List UUID → Except StoreError (List (UUID × DocumentEvidenceMetadata))

def pack (repository : Repository) (maxEvidence : Nat) (today : Date) (projectId : UUID)
    (projectCode : String)
    (chunks : List KnowledgeChunk) : Except StoreError GovernedEvidencePack := do
  let parsed := parsedChunks projectCode chunks
  let metadata ← repository (parsed.map (·.2)).eraseDups
  pure (packOf maxEvidence (candidates (fun versionId =>
    metadata.lookup versionId) today projectId projectCode [] parsed))

end ProjectAgent.Evidence
