/-
`RagflowAdapter`: its maps and its methods, as programs that send requests to
RAGFlow, load objects, and read and write the maps.

The loop over the pages of datasets is given a number of pages; a provider
that goes on beyond it is one the call does not return from.
-/
import Mathlib.Data.Finset.Sort
import Mathlib.Data.String.Basic
import Mathlib.Order.RelClasses
import ProjectAgent.Lib.Calls
import ProjectAgent.Lib.Double
import ProjectAgent.Ragflow.Provider

namespace ProjectAgent.Ragflow

open Documents (KnowledgeIngestionRequest DeleteKnowledgeDocumentRequest)
open Double (double)
open Evidence (Score KnowledgeChunk KnowledgeRetrievalRequest intOfText)
open Interleave Interleave.Prog

/-! ## Maps -/

structure Maps where
  spaceToProject : Dict String
  projectToSpaces : Dict (Finset String)
  documentMappings : Finmap fun _ : String × String => DocumentMapping

namespace Maps

def empty : Maps := ⟨∅, ∅, ∅⟩

def spaces (maps : Maps) (projectId : String) : Finset String :=
  (maps.projectToSpaces.lookup projectId).getD ∅

/-- `space_ids_for_project`. -/
def spaceIdsForProject (maps : Maps) (projectId : String) : List String :=
  (maps.spaces projectId).sort (· ≤ ·)

def bind (maps : Maps) (projectId datasetId : String) : Maps where
  spaceToProject := maps.spaceToProject.insert datasetId projectId
  projectToSpaces := maps.projectToSpaces.insert projectId
    (insert datasetId (maps.spaces projectId))
  documentMappings := maps.documentMappings

def unbind (maps : Maps) (projectId datasetId : String) : Maps where
  spaceToProject := maps.spaceToProject.erase datasetId
  projectToSpaces := maps.projectToSpaces.insert projectId ((maps.spaces projectId).erase datasetId)
  documentMappings := maps.documentMappings

/-- The dataset is bound to no other project. -/
def Free (maps : Maps) (projectId datasetId : String) : Prop :=
  ∀ other, maps.spaceToProject.lookup datasetId = some other → other = projectId

def noteDocument (maps : Maps) (datasetId documentId : String) (mapping : DocumentMapping) : Maps :=
  { maps with documentMappings := maps.documentMappings.insert (datasetId, documentId) mapping }

def forgetDocuments (maps : Maps) (datasetId : String) (ids : List String) : Maps :=
  { maps with
    documentMappings := ids.foldl (fun mappings id => mappings.erase (datasetId, id)) maps.documentMappings }

end Maps

/-! ## Statements -/

structure StoredObject where
  data : List UInt8
  mimeType : String

inductive Stmt where
  | request (r : Request)
  | load (objectKey : String)
  | read
  | write (maps : Maps)

abbrev Stmt.Answer : Stmt → Type
  | .request _ => Any
  | .load _ => StoredObject
  | .read => Maps
  | .write _ => Unit

abbrev Call (α : Type) := Prog Stmt Stmt.Answer RagflowError α

def request (r : Request) : Call Any := Prog.exec (Stmt.request r)

def ofExcept {α : Type} : Except RagflowError α → Call α
  | .ok a => .ret a
  | .error e => .raise e

structure Config where
  py : Python
  /-- An object store is configured. -/
  objectStore : Bool
  embeddingModel : Option String
  chunkMethod : String
  pages : Nat

structure EnsureKnowledgeSpaceRequest where
  projectId : String
  spaceKey : String

structure KnowledgeSpace where
  knowledgeSpaceId : String
  projectId : String
  spaceKey : String

structure KnowledgeIngestionReceipt where
  ingestionJobId : String
  projectId : String
  documentVersionId : String

variable (config : Config)

/-! ## Binding -/

def bindSpace (projectId datasetId : String) : Call Unit := do
  let maps ← Prog.exec Stmt.read
  match maps.spaceToProject.lookup datasetId with
  | some existing =>
    if existing ≠ projectId then
      .raise (.projectIsolation ("RAGFlow dataset " ++ quoted config.py datasetId ++
        " is already bound to project " ++
        quoted config.py existing))
    else Prog.exec (Stmt.write (maps.bind projectId datasetId))
  | none => Prog.exec (Stmt.write (maps.bind projectId datasetId))

def assertSpaceForProject (maps : Maps) (projectId datasetId : String) : Except RagflowError Unit :=
  if maps.spaceToProject.lookup datasetId ≠ some projectId then
    .error (.projectIsolation ("RAGFlow dataset " ++ quoted config.py datasetId ++
      " is not bound to project " ++
      quoted config.py projectId))
  else .ok ()

def baselineDatasetBindings : List (String × String) :=
  [("company-public", "company-public"), ("PRJ-RETAIL-ALPHA", "client-a-project-alpha"),
    ("PRJ-LOGISTICS-BETA", "client-b-project-beta")]

def validateBaselineBinding (projectId spaceKey : String) : Except RagflowError Unit :=
  match baselineDatasetBindings.find? fun binding => binding.2 = spaceKey ∧
    binding.1 ≠ projectId with
  | some binding =>
    .error (.projectIsolation ("baseline dataset " ++ quoted config.py spaceKey ++ " belongs to " ++
      quoted config.py binding.1 ++ ", not " ++ quoted config.py projectId))
  | none => .ok ()

def bindAuthorizedSpace (projectId datasetId : String) : Call Unit :=
  bindSpace config projectId datasetId

/-! ## Datasets -/

def findVisibleDatasetByName (name : String) :
    (pages page : Nat) → List String → Call (Option Fields)
  | 0, _, _ => .raise .notReturned
  | pages + 1, page, seen => do
    let data ← request (.listDatasets page)
    let datasets ← ofExcept (datasetList data)
    match datasets.find? fun item => config.py.casefold (fieldText config.py item "name") =
      config.py.casefold name with
    | some item => .ret (some item)
    | none =>
      if datasets.length < 100 then .ret none
      else
        let pageIds := datasets.filterMap fun item =>
          match item.lookup "id" with
          | none | some .null => none
          | some value => some (value.text config.py)
        if ¬ pageIds.isEmpty ∧ pageIds.all (· ∈ seen) then
          .raise (.protocol "list datasets pagination did not advance")
        else findVisibleDatasetByName name pages (page + 1) (seen ++ pageIds)

/-- The description `ensure_space` sends. -/
def managedBy (scope : String) : String := "Managed by project-agent for scope " ++ scope

/-- The dataset of the name, or a new one. -/
def findOrCreate (req : EnsureKnowledgeSpaceRequest) : Call String := do
  let existing ← findVisibleDatasetByName config req.spaceKey config.pages 1 []
  match existing with
  | some existing => ofExcept (requiredString existing "id" "dataset")
  | none =>
    let created ← request (.createDataset req.spaceKey (managedBy req.projectId) config.chunkMethod
      config.embeddingModel)
    match created with
    | .dict created => ofExcept (requiredString created "id" "created dataset")
    | _ => .raise (.protocol "create dataset response must be an object")

def ensureSpace (req : EnsureKnowledgeSpaceRequest) : Call KnowledgeSpace := do
  ofExcept (validateBaselineBinding config req.projectId req.spaceKey)
  let datasetId ← findOrCreate config req
  bindSpace config req.projectId datasetId
  .ret ⟨datasetId, req.projectId, req.spaceKey⟩

def deleteOwnedSpace (projectId datasetId expectedName : String) : Call Unit := do
  let maps ← Prog.exec Stmt.read
  ofExcept (assertSpaceForProject config maps projectId datasetId)
  let actual ← findVisibleDatasetByName config expectedName config.pages 1 []
  match actual with
  | none => .ret ()
  | some actual =>
    let actualId := ((actual.lookup "id").getD .null).text config.py
    if actualId ≠ datasetId then
      .raise (.projectIsolation ("dataset name " ++ quoted config.py expectedName ++
        " does not match bound ID " ++
        quoted config.py datasetId))
    else
      let _ ← request (.deleteDatasets [datasetId])
      let maps ← Prog.exec Stmt.read
      Prog.exec (Stmt.write (maps.unbind projectId datasetId))

/-! ## Documents -/

def listDocuments (datasetId : String) (documentId : Option String)
    (condition : Option (String × String)) :
    Call (List Fields) := do
  let data ← request (.listDocuments datasetId documentId condition)
  ofExcept (documentList data)

def encodeIngestionJobId (datasetId documentId : String) : String :=
  "ragflow:" ++ datasetId ++ ":" ++ documentId

/-- The metadata of a request that is its own. -/
def publicMetadata (req : KnowledgeIngestionRequest) : List (String × String) :=
  req.metadata.filter fun entry => entry.1 ∉ reservedMetadata

/-- The mapping of a document of the request. -/
def mappingOf (req : KnowledgeIngestionRequest) : DocumentMapping :=
  ⟨req.projectId, req.documentVersionId, Dict.ofList (publicMetadata req)⟩

def receiptOf (req : KnowledgeIngestionRequest) (documentId : String) : KnowledgeIngestionReceipt :=
  ⟨encodeIngestionJobId req.knowledgeSpaceId documentId, req.projectId, req.documentVersionId⟩

def metaFields (req : KnowledgeIngestionRequest) : List (String × String) :=
  publicMetadata req ++
    [(projectMetadataField, req.projectId), (documentVersionMetadataField, req.documentVersionId)]

def safeFilename (filename : String) : Except RagflowError String :=
  if filename = "" ∨ '\x00' ∈ filename.toList then
    .error (.configuration "RAGFlow upload filename is invalid")
  else if ¬ config.py.isPlainName filename then
    .error (.configuration "RAGFlow upload filename must not contain a path")
  else if 128 < filename.utf8ByteSize then
    .error (.configuration "RAGFlow upload filename exceeds 128 bytes")
  else .ok filename

def bestEffortDelete (datasetId documentId : String) : Call Unit :=
  ((request (.deleteDocuments datasetId [documentId])).bind fun _ => .ret ()).tryCatch
    fun _ => .ret ()

/-- The upload, the metadata and the parse request of a new document. -/
def uploadNew (req : KnowledgeIngestionRequest) : Call String := do
  let payload ← Prog.exec (Stmt.load req.objectKey)
  let named := match req.metadata.lookup "filename" with
    | some filename => if filename = "" then req.documentVersionId ++ ".bin" else filename
    | none => req.documentVersionId ++ ".bin"
  let filename ← ofExcept (safeFilename config named)
  let uploaded ← request (.uploadDocument req.knowledgeSpaceId filename payload.data
    payload.mimeType)
  let documentId ← ofExcept (uploadedId uploaded)
  let _ ← (request (.updateDocument req.knowledgeSpaceId documentId (metaFields req))).tryCatch
    fun e =>
    (bestEffortDelete req.knowledgeSpaceId documentId).bind fun _ => .raise e
  let maps ← Prog.exec Stmt.read
  Prog.exec (Stmt.write (maps.noteDocument req.knowledgeSpaceId documentId (mappingOf req)))
  let _ ← request (.parseDocuments req.knowledgeSpaceId [documentId])
  .ret documentId

def ingest (req : KnowledgeIngestionRequest) : Call KnowledgeIngestionReceipt := do
  bindSpace config req.projectId req.knowledgeSpaceId
  if ¬ config.objectStore then
    .raise (.configuration "Knowledge ingestion requires an ObjectStorePort")
  else
    let documents ← listDocuments req.knowledgeSpaceId none
      (some (req.projectId, req.documentVersionId))
    match documents.find? fun item => mappingFromDocument config.py item = some (mappingOf req) with
    | some existing =>
      let documentId ← ofExcept (requiredString existing "id" "existing document")
      .ret (receiptOf req documentId)
    | none =>
      let documentId ← uploadNew config req
      .ret (receiptOf req documentId)

/-- `mapping == _DocumentMapping(project, version, public metadata)`. -/
def ofVersion (req : DeleteKnowledgeDocumentRequest) (item : Fields) : Bool :=
  match mappingFromDocument config.py item with
  | some mapping =>
    mapping.projectId = req.projectId ∧ mapping.documentVersionId = req.documentVersionId
  | none => false

def deleteDocument (req : DeleteKnowledgeDocumentRequest) : Call Unit := do
  bindSpace config req.projectId req.knowledgeSpaceId
  let documents ← listDocuments req.knowledgeSpaceId none
    (some (req.projectId, req.documentVersionId))
  let ids ← ofExcept ((documents.filter (ofVersion config req)).mapM fun item =>
    requiredString item "id" "document")
  if ids.isEmpty then .ret ()
  else
    let _ ← request (.deleteDocuments req.knowledgeSpaceId ids)
    let maps ← Prog.exec Stmt.read
    Prog.exec (Stmt.write (maps.forgetDocuments req.knowledgeSpaceId ids))

/-! ## Retrieval -/

def datasetIdsForRetrieval (req : KnowledgeRetrievalRequest) : Call (List String) := do
  let maps ← Prog.exec Stmt.read
  if req.knowledgeSpaceIds.isEmpty then
    let datasets := maps.spaceIdsForProject req.projectId
    if datasets.isEmpty then
      .raise (.configuration ("no RAGFlow dataset is bound to project " ++
        quoted config.py req.projectId))
    else .ret datasets
  else
    let _ ← ofExcept (req.knowledgeSpaceIds.mapM fun datasetId =>
      assertSpaceForProject config maps req.projectId datasetId)
    .ret req.knowledgeSpaceIds

def getDocument (datasetId documentId : String) : Call Fields := do
  let documents ← listDocuments datasetId (if documentId = "" then none else some documentId) none
  match documents.find? fun item => fieldText config.py item "id" = documentId with
  | some item => .ret item
  | none =>
    .raise (.protocol ("RAGFlow document " ++ quoted config.py documentId ++
      " was not returned by dataset " ++
      quoted config.py datasetId))

def resolveDocumentMapping (datasetId documentId : String) : Call (Option DocumentMapping) := do
  let maps ← Prog.exec Stmt.read
  match maps.documentMappings.lookup (datasetId, documentId) with
  | some cached => .ret (some cached)
  | none =>
    let document ← getDocument config datasetId documentId
    match mappingFromDocument config.py document with
    | some mapping =>
      let maps ← Prog.exec Stmt.read
      Prog.exec (Stmt.write (maps.noteDocument datasetId documentId mapping))
      .ret (some mapping)
    | none => .ret none

/-- `float(value)`, or zero where it raises a `TypeError` or a `ValueError`; the `OverflowError` of
an integer that is rounded to none of the floats is not caught. -/
def scoreOf (value : Option Any) : Except RagflowError Score :=
  match value with
  | none => .ok (.finite 0)
  | some (.float score) => .ok score
  | some (.int i) =>
    if 2 ^ 1024 ≤ |double i| then .error (.raised "int too large to convert to float")
    else .ok (.finite (double i))
  | some (.bool b) => .ok (.finite (if b then 1 else 0))
  | some (.str text) => .ok ((config.py.float text).getD (.finite 0))
  | some _ => .ok (.finite 0)

def contentOf (raw : Fields) : Option String :=
  match (raw.lookup "content").orElse fun _ => raw.lookup "content_with_weight" with
  | some (.str content) => if content = "" then none else some content
  | _ => none

/-- The chunk that is appended. -/
def chunkWith (req : KnowledgeRetrievalRequest) (raw : Fields) (datasetId : String)
    (mapping : DocumentMapping) (content : String) (score : Score) : KnowledgeChunk where
  projectId := req.projectId
  documentVersionId := mapping.documentVersionId
  content := content
  score := score
  knowledgeSpaceId := some datasetId
  providerRef :=
    match raw.lookup "id" with
    | none | some .null => none
    | some value => some (value.text config.py)
  pageNo := (mapping.metadata.lookup "page_no").bind intOfText
  section_ := mapping.metadata.lookup "section"
  metadata := mapping.metadata

def chunkOfMapping (req : KnowledgeRetrievalRequest) (raw : Fields) (datasetId : String)
    (mapping : DocumentMapping) : Except RagflowError (Option KnowledgeChunk) :=
  if mapping.projectId ≠ req.projectId then .ok none
  else if ¬ req.documentVersionIds.isEmpty ∧
    mapping.documentVersionId ∉ req.documentVersionIds then .ok none
  else
    match contentOf raw with
    | none => .ok none
    | some content =>
      (scoreOf config (raw.lookup "similarity")).map fun score =>
        some (chunkWith config req raw datasetId mapping content score)

def chunkOf (req : KnowledgeRetrievalRequest) (datasetIds : List String) (raw : Any) :
    Call (Option KnowledgeChunk) :=
  match raw with
  | .dict raw =>
    let datasetId := fieldText config.py raw "dataset_id"
    let documentId := fieldText config.py raw "document_id"
    if datasetId ∉ datasetIds ∨ documentId = "" then .ret none
    else do
      let mapping ← resolveDocumentMapping config datasetId documentId
      match mapping with
      | none => .ret none
      | some mapping => ofExcept (chunkOfMapping config req raw datasetId mapping)
  | _ => .ret none

def collectChunks (req : KnowledgeRetrievalRequest) (datasetIds : List String) :
    List Any → List KnowledgeChunk → Call (List KnowledgeChunk)
  | [], result => .ret result
  | raw :: rest, result => do
    let chunk ← chunkOf config req datasetIds raw
    match chunk with
    | none => collectChunks req datasetIds rest result
    | some chunk =>
      if req.limit ≤ (result ++ [chunk]).length then .ret (result ++ [chunk])
      else collectChunks req datasetIds rest (result ++ [chunk])

def pageSize (limit : Int) : Int := max 1 (min (max (limit * 2) 10) 100)

def retrieve (req : KnowledgeRetrievalRequest) : Call (List KnowledgeChunk) := do
  let datasetIds ← datasetIdsForRetrieval config req
  let data ← request (.retrieval req.query datasetIds (pageSize req.limit) req.projectId)
  let raw ← ofExcept (rawChunks data)
  collectChunks config req datasetIds raw []

/-! ## What the lookups of datasets ask for -/

section Only

variable {P : Stmt → Prop}

theorem ofExcept_only {α : Type} (x : Except RagflowError α) : (ofExcept x).Only P := by
  cases x <;> exact trivial

theorem findVisible_only (hlist : ∀ page, P (.request (.listDatasets page))) (name : String)
    (pages page : Nat) (seen : List String) :
    (findVisibleDatasetByName config name pages page seen).Only P := by
  induction pages generalizing page seen with
  | zero => exact trivial
  | succ pages ih =>
    unfold findVisibleDatasetByName
    refine (Only.exec (hlist page)).bind fun data => (ofExcept_only _).bind fun datasets => ?_
    split
    · exact trivial
    · split
      · exact trivial
      · dsimp only
        split
        · exact trivial
        · exact ih _ _

theorem findOrCreate_only (hlist : ∀ page, P (.request (.listDatasets page)))
    (req : EnsureKnowledgeSpaceRequest)
    (hcreate : P (.request (.createDataset req.spaceKey
      (managedBy req.projectId) config.chunkMethod config.embeddingModel))) :
    (findOrCreate config req).Only P := by
  unfold findOrCreate
  refine (findVisible_only config hlist _ _ _ _).bind fun existing => ?_
  split
  · exact ofExcept_only _
  · refine (Only.exec hcreate).bind fun created => ?_
    split
    · exact ofExcept_only _
    · exact trivial

end Only

/-! ## The maps as statements see them -/

section Local

variable {τ α : Type} {answers : (s : Stmt) → τ → Except RagflowError s.Answer → τ → Prop}
  {get : τ → Maps}
  {set : Maps → τ → τ} {τ₀ : τ} {post : Except RagflowError α → τ → Prop}

/-- The adapter's own statements read and write its maps. -/
structure Local (answers : (s : Stmt) → τ → Except RagflowError s.Answer → τ → Prop)
    (get : τ → Maps) (set : Maps → τ → τ) :
    Prop where
  read : ∀ τ₀ x τ₁, answers .read τ₀ x τ₁ → x = .ok (get τ₀) ∧ τ₁ = τ₀
  write : ∀ maps τ₀ x τ₁, answers (.write maps) τ₀ x τ₁ → x = .ok () ∧ τ₁ = set maps τ₀

theorem Local.read_then (hl : Local answers get set) {f : Maps → Call α}
    (h : Ends answers post (f (get τ₀)) τ₀) :
    Ends answers post ((Prog.exec Stmt.read).bind f) τ₀ := by
  refine Ends.bind (Ends.exec fun x τ₁ hx => hl.read τ₀ x τ₁ hx) (fun maps τ₁ hx => ?_)
    fun e τ₁ hx => nomatch hx.1
  obtain ⟨hmaps, hsame⟩ := hx
  cases hmaps
  rw [hsame]
  exact h

theorem Local.write_then (hl : Local answers get set) {f : Unit → Call α} (maps : Maps)
    (h : Ends answers post (f ()) (set maps τ₀)) :
    Ends answers post ((Prog.exec (Stmt.write maps)).bind f) τ₀ := by
  refine Ends.bind (Ends.exec fun x τ₁ hx => hl.write maps τ₀ x τ₁ hx) (fun _ τ₁ hx => ?_)
    fun e τ₁ hx => nomatch hx.1
  obtain ⟨-, rfl⟩ := hx
  exact h

theorem Local.write_ends (hl : Local answers get set) {post : Except RagflowError Unit → τ → Prop}
    (maps : Maps) (h : post (.ok ()) (set maps τ₀)) :
    Ends answers post (Prog.exec (Stmt.write maps)) τ₀ := by
  refine Ends.exec fun x τ₁ hx => ?_
  obtain ⟨rfl, rfl⟩ := hl.write maps τ₀ x τ₁ hx
  exact h

/-- **`_bind_space` binds, unless another project has the dataset: then it raises and does
nothing.** -/
theorem Local.bindSpace_ends (hl : Local answers get set) (projectId datasetId : String) :
    Ends answers (fun r τ₁ =>
    ((get τ₀).Free projectId datasetId ∧ r = .ok () ∧
      τ₁ = set ((get τ₀).bind projectId datasetId) τ₀) ∨
      (¬ (get τ₀).Free projectId datasetId ∧ (∃ e, r = .error e) ∧ τ₁ = τ₀))
        (bindSpace config projectId datasetId) τ₀ := by
  unfold bindSpace
  refine hl.read_then ?_
  split
  · next existing hlookup =>
    split
    · next hne => exact .inr ⟨fun hfree => hne (hfree existing hlookup), ⟨_, rfl⟩, rfl⟩
    · next heq =>
      refine hl.write_ends _ (.inl ⟨fun other hother => ?_, rfl, rfl⟩)
      cases hlookup.symm.trans hother
      exact not_not.mp heq
  · next hlookup =>
    refine hl.write_ends _ (.inl ⟨fun other hother => ?_, rfl, rfl⟩)
    cases hlookup.symm.trans hother

theorem ofExcept_ends (x : Except RagflowError α) :
    Ends answers (fun r τ₁ => r = x ∧ τ₁ = τ₀) (ofExcept x) τ₀ := by
  cases x <;> exact ⟨rfl, rfl⟩

end Local

end ProjectAgent.Ragflow
