/-
What RAGFlow is asked and what it answers, and how `RagflowAdapter` reads the
answers. An answer is any JSON value at all; a request either gets one or
raises, after as many attempts as the client makes.

`Python` holds what is taken from the language as it is: how a value prints,
which texts are floats, case folding, and which texts are plain file names.
-/
import ProjectAgent.Evidence.Access
import ProjectAgent.Evidence.Rows

namespace ProjectAgent.Ragflow

open Evidence (Score KnowledgeChunk KnowledgeRetrievalRequest intOfText)

/-- A value of a JSON answer. -/
inductive Any where
  | null
  | bool (value : Bool)
  | int (value : Int)
  | float (value : Score)
  | str (value : String)
  | list (items : List Any)
  | dict (fields : List (String × Any))

abbrev Fields := List (String × Any)

structure Python where
  repr : Any → String
  /-- `float(text)`. -/
  float : String → Option Score
  casefold : String → String
  /-- The name of the text as a POSIX path and as a Windows path is the text. -/
  isPlainName : String → Bool

inductive RagflowError where
  | projectIsolation (text : String)
  | protocol (text : String)
  | configuration (text : String)
  /-- What the client or the object store raised. -/
  | raised (text : String)
  /-- The call goes on asking for pages. -/
  | notReturned
deriving DecidableEq

/-! ## Requests -/

inductive Request where
  | listDatasets (page : Nat)
  /-- The permission is `me` in all of them. -/
  | createDataset (name description chunkMethod : String) (embeddingModel : Option String)
  | deleteDatasets (ids : List String)
  /-- Of one id, or of a project and a version. -/
  | listDocuments (datasetId : String) (documentId : Option String)
      (condition : Option (String × String))
  | uploadDocument (datasetId filename : String) (data : List UInt8) (mimeType : String)
  | updateDocument (datasetId documentId : String) (metaFields : List (String × String))
  | deleteDocuments (datasetId : String) (ids : List String)
  /-- `POST .../chunks`. -/
  | parseDocuments (datasetId : String) (ids : List String)
  | retrieval (question : String) (datasetIds : List String) (pageSize : Int) (projectId : String)
deriving DecidableEq

/-! ## Reading answers -/

/-- `str(value)`. -/
def Any.text (py : Python) : Any → String
  | .str s => s
  | value => py.repr value

def Any.fields? : Any → Option Fields
  | .dict fields => some fields
  | _ => none

/-- `str(item.get(field, ""))`. -/
def fieldText (py : Python) (item : Fields) (field : String) : String :=
  match item.lookup field with
  | some value => value.text py
  | none => ""

/-- `repr` of a text, as messages quote it. -/
def quoted (py : Python) (text : String) : String := py.repr (.str text)

def requiredString (item : Fields) (field context : String) : Except RagflowError String :=
  match item.lookup field with
  | some (.str value) =>
    if value = "" then .error (.protocol (context ++ " is missing non-empty '" ++ field ++ "'"))
      else .ok value
  | _ => .error (.protocol (context ++ " is missing non-empty '" ++ field ++ "'"))

def datasetList (data : Any) : Except RagflowError (List Fields) :=
  match data with
  | .list items => .ok (items.filterMap Any.fields?)
  | _ => .error (.protocol "list datasets response data must be a list")

def documentList (data : Any) : Except RagflowError (List Fields) :=
  match data with
  | .list items => .ok (items.filterMap Any.fields?)
  | .dict fields =>
    match fields.lookup "docs" with
    | none => .ok []
    | some (.list items) => .ok (items.filterMap Any.fields?)
    | some _ => .error (.protocol "list documents data.docs must be a list")
  | _ => .error (.protocol "list documents response has unexpected data shape")

def rawChunks (data : Any) : Except RagflowError (List Any) :=
  match data with
  | .dict fields =>
    match fields.lookup "chunks" with
    | none => .ok []
    | some (.list items) => .ok items
    | some _ => .error (.protocol "retrieval data.chunks must be a list")
  | _ => .ok []

def uploadedId (data : Any) : Except RagflowError String :=
  match data with
  | .list (.dict fields :: _) => requiredString fields "id" "uploaded document"
  | _ => .error (.protocol "upload documents response must contain one document")

/-! ## Metadata -/

def projectMetadataField : String := "project_agent_project_id"

def documentVersionMetadataField : String := "project_agent_document_version_id"

def reservedMetadata : List String :=
  [projectMetadataField, documentVersionMetadataField, "filename"]

/-- `_DocumentMapping`. -/
structure DocumentMapping where
  projectId : String
  documentVersionId : String
  metadata : Dict String
deriving DecidableEq

def mappingOfMetadata (py : Python) (metadata : Fields) : Option DocumentMapping :=
  match metadata.lookup projectMetadataField, metadata.lookup documentVersionMetadataField with
  | some (.str projectId), some (.str versionId) =>
    if projectId = "" ∨ versionId = "" then none
    else some ⟨projectId, versionId, Dict.ofList (metadata.filterMap fun entry =>
      match entry.2 with
      | .null => none
      | value =>
        if entry.1 = projectMetadataField ∨ entry.1 = documentVersionMetadataField then none
        else some (entry.1, value.text py))⟩
  | _, _ => none

/-- `_mapping_from_document`. -/
def mappingFromDocument (py : Python) (document : Fields) : Option DocumentMapping :=
  match document.lookup "meta_fields" with
  | some (.dict metadata) => mappingOfMetadata py metadata
  | _ => none

end ProjectAgent.Ragflow
