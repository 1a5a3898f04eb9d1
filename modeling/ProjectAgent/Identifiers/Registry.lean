/-
The registry of identifiers: its table, the repository that replaces the rows
of a document version and finds rows by equality, the service over it, and
`ExactIdentifierResolver`, which looks the identifiers of a query up.

A row's id and time are drawn by the insert.
-/
import ProjectAgent.Identifiers.Extractor
import ProjectAgent.Lib.Fallible

namespace ProjectAgent.Identifiers

/-! ## The table -/

structure DocumentIdentifier where
  id : UUID
  companyId : UUID
  projectId : UUID
  documentVersionId : UUID
  identifierType : String
  normalizedValue : String
  rawValue : String
  pageNo : Option Int
  section_ : Option String
  source : String
  confidence : Option ℚ
  createdAt : Nat

structure IdentifierRegistryEntry where
  id : UUID
  companyId : UUID
  projectId : UUID
  documentVersionId : UUID
  identifierType : IdentifierType
  normalizedValue : String
  rawValue : String
  source : IdentifierSource
  confidence : Option ℚ
  pageNo : Option Int
  section_ : Option String

/-- `_to_entry`. -/
def toEntry (row : DocumentIdentifier) : Except IdentifierError IdentifierRegistryEntry :=
  match IdentifierType.ofValue row.identifierType, IdentifierSource.ofValue row.source with
  | none, _ => .error (.valueError row.identifierType)
  | some _, none => .error (.valueError row.source)
  | some identifierType, some source =>
    if row.confidence.all fun confidence => decide (0 ≤ confidence ∧ confidence ≤ 1) then
      .ok ⟨row.id, row.companyId, row.projectId, row.documentVersionId, identifierType,
        row.normalizedValue, row.rawValue,
        source, row.confidence, row.pageNo, row.section_⟩
    else .error (.validationError "IdentifierRegistryEntry")

/-- The values an insert draws. -/
structure Draws where
  id : Nat → UUID
  now : Nat

def identifierRow (draws : Draws) (companyId projectId documentVersionId : UUID)
    (entry : ExtractedIdentifier × Nat) :
    DocumentIdentifier :=
  ⟨draws.id entry.2, companyId, projectId, documentVersionId, entry.1.identifierType.value,
    entry.1.normalizedValue,
    entry.1.rawValue, entry.1.pageNo, entry.1.section_, entry.1.source.value,
      some entry.1.confidence, draws.now⟩

def replaceForDocumentVersion (draws : Draws) (rows : List DocumentIdentifier)
    (companyId projectId documentVersionId : UUID) (identifiers : List ExtractedIdentifier) :
    List DocumentIdentifier :=
  rows.filter (·.documentVersionId ≠ documentVersionId) ++
    identifiers.zipIdx.map (identifierRow draws companyId projectId documentVersionId)

/-- `ORDER BY created_at, id`. -/
def RowBefore (a b : DocumentIdentifier) : Prop :=
  a.createdAt < b.createdAt ∨ a.createdAt = b.createdAt ∧ a.id.int ≤ b.id.int

instance : DecidableRel RowBefore := fun _ _ => inferInstanceAs (Decidable (_ ∨ _))

/-- The rows of the `SELECT`. -/
def exactRows (rows : List DocumentIdentifier) (projectId : UUID) (identifierType : IdentifierType)
    (normalizedValue : String) :
    List DocumentIdentifier :=
  (rows.filter fun row => row.projectId = projectId && row.identifierType = identifierType.value &&
    row.normalizedValue = normalizedValue).insertionSort RowBefore

/-! ## The service -/

def indexText (py : Python) (draws : Draws) (rows : List DocumentIdentifier)
    (companyId projectId documentVersionId : UUID)
    (text : String) (manualIdentifiers : List ManualIdentifier)
    (manualOverrideTypes : List IdentifierType)
    (pageNo : Option Int) (section_ : Option String) :
    Except IdentifierError (List DocumentIdentifier) := do
  let identifiers ← extract py pageNo section_ text manualIdentifiers manualOverrideTypes
  pure (replaceForDocumentVersion draws rows companyId projectId documentVersionId identifiers)

def findExact (py : Python) (rows : List DocumentIdentifier) (projectId : UUID)
    (identifierType : IdentifierType)
    (value : String) : Except IdentifierError (List IdentifierRegistryEntry) := do
  let normalized ← normalizeIdentifier py identifierType value
  (exactRows rows projectId identifierType normalized).mapM toEntry

/-! ## Queries -/

structure QueryExactIdentifier where
  identifierType : IdentifierType
  rawValue : String
  normalizedValue : String
deriving DecidableEq

structure QueryAnalysis where
  originalQuery : String
  standaloneQuery : String
  exactIdentifiers : List QueryExactIdentifier

def QueryAnalysis.projectCodes (analysis : QueryAnalysis) : List String :=
  (analysis.exactIdentifiers.filter (·.identifierType = .PROJECT_CODE)).map (·.normalizedValue)

def queryIdentifier (item : ExtractedIdentifier) : QueryExactIdentifier :=
  ⟨item.identifierType, item.rawValue, item.normalizedValue⟩

/-- `QueryAnalysisService.analyze`. -/
def analyze (py : Python) (query : String) : Except IdentifierError QueryAnalysis :=
  if strip query = "" then .error (.valueError "query cannot be blank")
  else do
    let extracted ← extract py none none (strip query) [] []
    pure ⟨query, strip query, extracted.map queryIdentifier⟩

structure IdentifierResolution where
  identifierType : IdentifierType
  rawValue : String
  normalizedValue : String
  authorizedDocumentVersionIds : List UUID
  uniqueAuthorizedHit : Bool
deriving DecidableEq

structure ExactResolutionResult where
  resolutions : List IdentifierResolution
  constrainedDocumentVersionIds : List UUID
deriving DecidableEq

/-- `sorted(set(ids), key=str)`. -/
def sortedIds (ids : List UUID) : List UUID := ids.eraseDups.insertionSort fun a b => a.str ≤ b.str

/-- One round of the resolver's loop. -/
def resolution (identifier : QueryExactIdentifier) (hits : List UUID) (allowed : List UUID) :
    IdentifierResolution :=
  let authorized := sortedIds (hits.filter (· ∈ allowed))
  ⟨identifier.identifierType, identifier.rawValue, identifier.normalizedValue, authorized,
    authorized.length = 1⟩

/-- The identifiers that are looked up. -/
def lookedUp (identifiers : List QueryExactIdentifier) : List QueryExactIdentifier :=
  identifiers.filter (·.identifierType ≠ .PROJECT_CODE)

/-- The version that is the only hit, of each identifier that has one. -/
def uniqueVersions (resolutions : List IdentifierResolution) : List UUID :=
  (resolutions.filter (·.uniqueAuthorizedHit)).flatMap (·.authorizedDocumentVersionIds)

/-- `ExactIdentifierResolver.resolve`. -/
def resolve (py : Python) (rows : List DocumentIdentifier) (projectId : UUID)
    (analysis : QueryAnalysis)
    (allowedDocumentVersionIds : List UUID) : Except IdentifierError ExactResolutionResult := do
  let resolutions ← (lookedUp analysis.exactIdentifiers).mapM fun identifier => do
    let hits ← findExact py rows projectId identifier.identifierType identifier.normalizedValue
    pure (resolution identifier (hits.map (·.documentVersionId)) allowedDocumentVersionIds)
  pure ⟨resolutions, sortedIds (uniqueVersions resolutions)⟩

end ProjectAgent.Identifiers
