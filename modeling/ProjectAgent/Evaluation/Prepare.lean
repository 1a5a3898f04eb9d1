/-
The provider datasets of a namespace: what `prepare_v0` makes of them through
`ensure_space`, and the recovery audit of the CLI (`_parse_recovery_ids`,
`_audit_existing_provider_spaces`).

RAGFlow is a list of datasets with a page for each page number. It may fail at
any request, and a dataset may be there although the request for it failed.
-/
import ProjectAgent.Lib.Fallible
import ProjectAgent.Ragflow.DatasetLookup

namespace ProjectAgent.Evaluation

open Interleave Interleave.Prog Ragflow

/-! ## Names -/

/-- `PROJECT_CODES`, in the fixtures and in the CLI. -/
def projectCodes : List String := ["PRJ-RETAIL-ALPHA", "PRJ-LOGISTICS-BETA"]

/-- `code.lower()`, of an ASCII text. -/
def lower (code : String) : String := String.ofList (code.toList.map Char.toLower)

/-- `_ragflow_dataset_name`. -/
def ragflowDatasetName (ns code : String) : String := "ws8-v0-" ++ ns ++ "-" ++ lower code

def validateNamespace (value : String) : Except String String :=
  match value.toList with
  | first :: rest =>
    if first.isAlphanum ∧ rest.length ≤ 95 ∧
      rest.all (fun c => c.isAlphanum ∨ c ∈ ['.', '_', '-']) then .ok value
    else .error "invalid evaluation namespace (use letters, digits, dots, _ or -)"
  | [] => .error "invalid evaluation namespace (use letters, digits, dots, _ or -)"

def namespaceUrl : UUID := UUID.ofNat 143098242483405524118141958906375844040

/-- `_expected_uuid`. -/
def expectedUuid (uuid5 : UUID → String → UUID) (version ns logicalKey : String) : String :=
  (uuid5 (uuid5 namespaceUrl ("it-outsourcing-knowledge-agent/ws8/evaluation/" ++ ns))
    (version ++ "\x00" ++ logicalKey)).str

/-! ## The provider -/

structure World where
  datasets : List Fields
  /-- For a page number past the end: the last page is served again. -/
  again : Nat → Bool
  /-- Of the adapter. -/
  maps : Maps
  /-- The project codes and ids of the datasets created so far. -/
  created : List (String × String)

def World.listing (w : World) : Listing := ⟨w.datasets, w.again⟩

/-- What is kept of a request for a dataset. -/
def datasetOf (id name description : String) : Fields :=
  [("id", .str id), ("name", .str name), ("description", .str description)]

/-- A new dataset, somewhere in the list, of the project that its description names. -/
def World.Adds (w : World) (id name description : String) (w' : World) : Prop :=
  ∃ before after code, description = managedBy code ∧ w.datasets = before ++ after ∧
    w' = { w with
      datasets := before ++ datasetOf id name description :: after
      created := w.created ++ [(code, id)] }

def answers : (s : Stmt) → World → Except RagflowError s.Answer → World → Prop
  | .request (.listDatasets page), w, x, w' =>
    w' = w ∧ (x = .ok (.list ((w.listing.page page).map .dict)) ∨ ∃ e, x = .error e)
  | .request (.createDataset name description _ _), w, x, w' =>
    (w' = w ∧ ∃ e, x = .error e) ∨
      ∃ id, w.Adds id name description w' ∧
        (x = .ok (.dict (datasetOf id name description)) ∨ ∃ e, x = .error e)
  | .read, w, x, w' => w' = w ∧ x = .ok w.maps
  | .write maps, w, x, w' => w' = { w with maps := maps } ∧ x = .ok ()
  | .request _, w, x, w' | .load _, w, x, w' => w' = w ∧ ∃ e, x = .error e

/-! ## `prepare_v0` -/

def spaceRequest (ns code : String) : EnsureKnowledgeSpaceRequest :=
  ⟨code, ragflowDatasetName ns code⟩

/-- The datasets of the project codes, one after another. -/
def prepareSpaces (config : Config) (ns : String) : Call Unit :=
  Prog.each (fun code => (ensureSpace config (spaceRequest ns code)).bind fun _ =>
    .ret ()) projectCodes

/-! ## The recovery audit -/

/-- `[A-Za-z0-9][A-Za-z0-9_-]{5,127}`. -/
def isProviderId (text : String) : Bool :=
  match text.toList with
  | first :: rest =>
    first.isAlphanum ∧ 5 ≤ rest.length ∧ rest.length ≤ 127 ∧ rest.all fun c => c.isAlphanum ∨
      c ∈ ['_', '-']
  | [] => false

/-- `item.partition("=")`: what stands before and after the first one, if there is one. -/
def partition (item : String) : Option (String × String) :=
  let (code, rest) := item.toList.span (· ≠ '=')
  match rest with
  | [] => none
  | _ :: providerId => some (String.ofList code, String.ofList providerId)

def parseItems : List String → List (String × String) → Except String (List (String × String))
  | [], claimed => .ok claimed
  | item :: items, claimed =>
    match partition item with
    | none => .error "invalid or duplicate --recover-dataset PROJECT_CODE=DATASET_ID"
    | some (code, providerId) =>
      if code ∉ projectCodes ∨ code ∈ claimed.map Prod.fst ∨ ¬ isProviderId providerId then
        .error "invalid or duplicate --recover-dataset PROJECT_CODE=DATASET_ID"
      else parseItems items (claimed ++ [(code, providerId)])

/-- `_parse_recovery_ids`. -/
def parseRecoveryIds (values : List String) : Except String (Dict String) := do
  let claimed ← parseItems values []
  if (claimed.map Prod.snd).Nodup then .ok (Dict.ofList claimed)
  else .error "duplicate provider IDs in recovery request"

section Audit

variable (py : Ragflow.Python) (uuid5 : UUID → String → UUID) (ns : String)

/-- `expected_names.get(actual_name.casefold())`: of two codes with one folded name, the later. -/
def codeOf (actualName : String) : Option String :=
  projectCodes.reverse.find? fun code => py.casefold (ragflowDatasetName ns code) =
    py.casefold actualName

/-- `str(item.get("id"))`. -/
def idOf (item : Fields) : String := ((item.lookup "id").getD .null).text py

/-- `isinstance(response, list)` and each of its values a dictionary. -/
def objects : Any → Option (List Fields)
  | .list items => items.mapM Any.fields?
  | _ => none

/-- The named datasets of a page, added to those found. -/
def note : List Fields → List (String × Fields) → Except String (List (String × Fields))
  | [], found => .ok found
  | item :: items, found =>
    match codeOf py ns (fieldText py item "name") with
    | none => note items found
    | some code =>
      if fieldText py item "name" ≠ ragflowDatasetName ns code then
        .error ("RAGFlow recovery exact dataset name mismatch for " ++ code)
      else if code ∈ found.map Prod.fst then
        .error ("duplicate evaluation dataset name for " ++ code)
      else note items (found ++ [(code, item)])

/-- The loop over the pages, with so many left. -/
def collect (served : Nat → Except String Any) :
    (pages page : Nat) → List (List String) → List (String × Fields) →
      Except String (List (String × Fields))
  | 0, _, _, _ => .error "RAGFlow dataset audit exceeds 20 pages: cannot prove ownership"
  | pages + 1, page, seenPages, found => do
    let response ← served page
    match objects response with
    | none => .error "unexpected RAGFlow dataset list during recovery audit"
    | some items =>
      let pageIds := items.map (idOf py)
      if pageIds ≠ [] ∧ pageIds ∈ seenPages then .error "RAGFlow dataset pagination did not advance"
      else
        let found ← note py ns items found
        if items.length < 100 then .ok found
        else collect served pages (page + 1) (seenPages ++ [pageIds]) found

/-- The `description` of the item is the expected text. -/
def describedAs (item : Fields) (expected : String) : Bool :=
  match item.lookup "description" with
  | some (.str actual) => actual = expected
  | _ => false

/-- The description the audit expects. -/
def expectedDescription (code : String) : String :=
  managedBy (expectedUuid uuid5 "v0" ns ("project:" ++ code))

/-- The id and the description of each dataset found. -/
def checkFound (recoveryIds : Dict String) : List (String × Fields) → Except String Unit
  | [] => .ok ()
  | (code, item) :: found =>
    if recoveryIds.lookup code ≠ some (idOf py item) then
      .error ("RAGFlow recovery ID mismatch for " ++ code)
    else if ¬ describedAs item (expectedDescription uuid5 ns code) then
      .error ("RAGFlow recovery ownership description mismatch for " ++ code)
    else checkFound recoveryIds found

/-- `_audit_existing_provider_spaces`. -/
def auditExistingProviderSpaces (served : Nat → Except String Any) (recoveryIds : Dict String) :
    Except String (Dict String) := do
  let found ← collect py ns served 20 1 [] []
  if found = [] then
    if recoveryIds ≠ ∅ then .error "no existing RAGFlow datasets to recover for this namespace"
      else .ok ∅
  else if (found.map Prod.fst).toFinset ≠ recoveryIds.keys then
    .error ("existing RAGFlow datasets require --recover-dataset exactly once " ++
      "for every matching project; inspect provider IDs before retrying")
  else do
    checkFound py uuid5 ns recoveryIds found
    .ok recoveryIds

end Audit

/-- The pages of the provider, as the audit gets them. -/
def World.served (w : World) (page : Nat) : Except String Any :=
  .ok (.list ((w.listing.page page).map .dict))

end ProjectAgent.Evaluation
