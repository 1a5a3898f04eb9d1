/-
The bindings of the adapter over any sequence of calls, with a provider that
may answer anything: a dataset is bound to one project at most, and a chunk
that is retrieved for a project is of a dataset bound to it and of a document
whose metadata, when the provider gave or took it, named the project.

The provider is its answers: the history is every request with what came back.
-/
import ProjectAgent.Ragflow.Adapter

namespace ProjectAgent.Ragflow

open Documents (KnowledgeIngestionRequest DeleteKnowledgeDocumentRequest)
open Evidence (Score KnowledgeChunk KnowledgeRetrievalRequest intOfText)
open Interleave Interleave.Prog

/-! ## Sessions -/

structure Exchange where
  request : Request
  answer : Except RagflowError Any

structure Session where
  maps : Maps
  history : List Exchange

def Session.initial : Session := ⟨.empty, []⟩

/-- A request may get any answer, or raise. -/
def answers : (s : Stmt) → Session → Except RagflowError s.Answer → Session → Prop
  | .request r, σ, x, σ' => σ' = { σ with history := σ.history ++ [⟨r, x⟩] }
  | .load _, σ, _, σ' => σ' = σ
  | .read, σ, x, σ' => x = .ok σ.maps ∧ σ' = σ
  | .write maps, σ, x, σ' => x = .ok () ∧ σ' = { σ with maps := maps }

theorem answers_local : Local answers (·.maps) fun maps σ => { σ with maps := maps } :=
  ⟨fun _ _ _ h => h, fun _ _ _ _ h => h⟩

inductive AdapterCall where
  | bindAuthorizedSpace (projectId datasetId : String)
  | ensureSpace (req : EnsureKnowledgeSpaceRequest)
  | ingest (req : KnowledgeIngestionRequest)
  | deleteDocument (req : DeleteKnowledgeDocumentRequest)
  | deleteOwnedSpace (projectId datasetId expectedName : String)
  | retrieve (req : KnowledgeRetrievalRequest)

abbrev AdapterCall.Result : AdapterCall → Type
  | .bindAuthorizedSpace _ _ | .deleteDocument _ | .deleteOwnedSpace _ _ _ => Unit
  | .ensureSpace _ => KnowledgeSpace
  | .ingest _ => KnowledgeIngestionReceipt
  | .retrieve _ => List KnowledgeChunk

variable (config : Config)

def AdapterCall.prog : (call : AdapterCall) → Call call.Result
  | .bindAuthorizedSpace projectId datasetId =>
    Ragflow.bindAuthorizedSpace config projectId datasetId
  | .ensureSpace req => Ragflow.ensureSpace config req
  | .ingest req => Ragflow.ingest config req
  | .deleteDocument req => Ragflow.deleteDocument config req
  | .deleteOwnedSpace projectId datasetId expectedName =>
    Ragflow.deleteOwnedSpace config projectId datasetId expectedName
  | .retrieve req => Ragflow.retrieve config req

/-- The call is made, and returns or raises. -/
def Called (call : AdapterCall) (σ σ' : Session) : Prop :=
  ∃ r, Runs answers (call.prog config) σ r σ'

/-! ## What the provider says of a document -/

/-- The metadata of a document in an answer, or in an update that was accepted. -/
def Exchange.metadata (py : Python) (datasetId documentId : String) (e : Exchange) :
    Option Fields :=
  match e.request, e.answer with
  | .listDocuments dataset _ _, .ok data =>
    if dataset = datasetId then
      match documentList data with
      | .ok items =>
        (items.find? fun item => fieldText py item "id" = documentId).bind fun item =>
          (item.lookup "meta_fields").bind Any.fields?
      | .error _ => none
    else none
  | .updateDocument dataset document fields, .ok _ =>
    if dataset = datasetId ∧ document = documentId then
      some (fields.map fun entry => (entry.1, .str entry.2)) else none
  | _, _ => none

/-- The metadata names the project and the version. -/
def Names (metadata : Fields) (projectId versionId : String) : Prop :=
  metadata.lookup projectMetadataField = some (.str projectId) ∧
    metadata.lookup documentVersionMetadataField = some (.str versionId)

/-- What the provider last said. -/
def Session.latest (σ : Session) (py : Python) (datasetId documentId : String) : Option Fields :=
  σ.history.reverse.findSome? (·.metadata py datasetId documentId)

/-- At some time the provider gave the document metadata that names the project and the version, or
took it. -/
def Session.Named (σ : Session) (py : Python)
    (datasetId documentId projectId versionId : String) : Prop :=
  ∃ e ∈ σ.history, ∃ metadata, e.metadata py datasetId documentId = some metadata ∧
    Names metadata projectId versionId

variable {σ σ₁ σ₂ : Session} {py : Python} {datasetId documentId projectId versionId : String}

theorem Session.Named.mono (h : σ.Named py datasetId documentId projectId versionId)
    (hh : σ.history ⊆ σ₁.history) :
    σ₁.Named py datasetId documentId projectId versionId := by
  obtain ⟨e, he, hmetadata⟩ := h
  exact ⟨e, hh he, hmetadata⟩

theorem names_of_mapping {metadata : Fields} {mapping : DocumentMapping}
    (h : mappingOfMetadata py metadata = some mapping) :
    Names metadata mapping.projectId mapping.documentVersionId := by
  unfold mappingOfMetadata at h
  split at h
  · next p v hp hv =>
    split at h
    · cases h
    · cases h
      exact ⟨hp, hv⟩
  · cases h

/-- The metadata an ingestion writes names its project and version. -/
theorem names_metaFields (req : KnowledgeIngestionRequest) :
    Names ((metaFields req).map fun entry =>
      (entry.1, .str entry.2)) req.projectId req.documentVersionId := by
  have hpublic (field : String) (hfield : field ∈ reservedMetadata)
    (rest : List (String × String)) :
      ((publicMetadata req ++ rest).map fun entry => (entry.1, Any.str entry.2)).lookup field =
        (rest.map fun entry => (entry.1, Any.str entry.2)).lookup field := by
    rw [List.map_append, List.lookup_append]
    have hnone : ((publicMetadata req).map fun entry => (entry.1, Any.str entry.2)).lookup field =
        none := by
      rw [List.lookup_eq_none_iff]
      intro entry hentry
      obtain ⟨own, hown, rfl⟩ := List.mem_map.mp hentry
      obtain ⟨-, hnot⟩ := List.mem_filter.mp hown
      refine bne_iff_ne.mpr fun heq => of_decide_eq_true hnot ?_
      exact heq ▸ hfield
    rw [hnone, Option.none_or]
  unfold metaFields
  constructor
  · rw [hpublic _ (by decide)]
    rfl
  · rw [hpublic _ (by decide)]
    rfl

/-! ## The maps -/

namespace Maps

variable {maps maps' : Maps} {mapping : DocumentMapping}

/-- The two maps of the spaces are the same. -/
def SameSpaces (maps maps' : Maps) : Prop :=
  maps'.spaceToProject = maps.spaceToProject ∧ maps'.projectToSpaces = maps.projectToSpaces

/-- The one map says what the other does. -/
def Agree (maps : Maps) : Prop :=
  ∀ datasetId projectId, datasetId ∈ maps.spaces projectId ↔
    maps.spaceToProject.lookup datasetId = some projectId

theorem SameSpaces.agree (h : SameSpaces maps maps') (hagree : maps.Agree) : maps'.Agree := by
  intro d p
  unfold spaces
  rw [h.1, h.2]
  exact hagree d p

theorem SameSpaces.trans {maps'' : Maps} (h : SameSpaces maps maps')
    (h' : SameSpaces maps' maps'') : SameSpaces maps maps'' :=
  ⟨h'.1.trans h.1, h'.2.trans h.2⟩

theorem spaces_bind (p : String) : (maps.bind projectId datasetId).spaces p =
    if p = projectId then insert datasetId (maps.spaces projectId) else maps.spaces p := by
  unfold spaces bind
  split
  · next heq =>
    subst heq
    rw [Finmap.lookup_insert]
    rfl
  · next hne => rw [Finmap.lookup_insert_of_ne _ hne]

theorem lookup_bind (d : String) : (maps.bind projectId datasetId).spaceToProject.lookup d =
    if d = datasetId then some projectId else maps.spaceToProject.lookup d := by
  unfold bind
  split
  · next heq =>
    subst heq
    exact Finmap.lookup_insert _
  · next hne => exact Finmap.lookup_insert_of_ne _ hne

/-- Binding a dataset that no other project has keeps the maps in agreement. -/
theorem Agree.bind (h : maps.Agree) (hfree : maps.Free projectId datasetId) :
    (maps.bind projectId datasetId).Agree := by
  intro d p
  rw [spaces_bind, lookup_bind]
  by_cases hd : d = datasetId
  · subst hd
    rw [if_pos rfl]
    by_cases hp : p = projectId
    · subst hp
      rw [if_pos rfl]
      exact iff_of_true (Finset.mem_insert_self _ _) rfl
    · rw [if_neg hp]
      refine iff_of_false (fun hin => hp (hfree p ((h d p).mp hin))) fun hsome =>
        hp (Option.some.inj hsome).symm
  · rw [if_neg hd]
    by_cases hp : p = projectId
    · subst hp
      rw [if_pos rfl, Finset.mem_insert, ← h d p]
      exact ⟨fun hin => hin.resolve_left hd, .inr⟩
    · rw [if_neg hp]
      exact h d p

theorem spaces_unbind (p : String) : (maps.unbind projectId datasetId).spaces p =
    if p = projectId then (maps.spaces projectId).erase datasetId else maps.spaces p := by
  unfold spaces unbind
  split
  · next heq =>
    subst heq
    rw [Finmap.lookup_insert]
    rfl
  · next hne => rw [Finmap.lookup_insert_of_ne _ hne]

theorem lookup_unbind (d : String) : (maps.unbind projectId datasetId).spaceToProject.lookup d =
    if d = datasetId then none else maps.spaceToProject.lookup d := by
  unfold unbind
  split
  · next heq =>
    subst heq
    exact Finmap.lookup_erase _ _
  · next hne => exact Finmap.lookup_erase_ne hne

theorem Agree.unbind (h : maps.Agree)
    (hbound : maps.spaceToProject.lookup datasetId = some projectId) :
    (maps.unbind projectId datasetId).Agree := by
  intro d p
  rw [spaces_unbind, lookup_unbind]
  by_cases hd : d = datasetId
  · subst hd
    rw [if_pos rfl]
    refine iff_of_false (fun hin => ?_) fun hsome => nomatch hsome
    by_cases hp : p = projectId
    · rw [if_pos hp] at hin
      exact Finset.notMem_erase _ _ hin
    · rw [if_neg hp, h d p, hbound] at hin
      exact hp (Option.some.inj hin).symm
  · rw [if_neg hd]
    by_cases hp : p = projectId
    · subst hp
      rw [if_pos rfl, Finset.mem_erase, ← h d p]
      exact and_iff_right hd
    · rw [if_neg hp]
      exact h d p

theorem lookup_forget {ids : List String} {key : String × String}
    (h : (maps.forgetDocuments datasetId ids).documentMappings.lookup key = some mapping) :
    maps.documentMappings.lookup key = some mapping := by
  unfold forgetDocuments at h
  dsimp only at h
  generalize maps.documentMappings = mappings at h ⊢
  induction ids generalizing mappings with
  | nil => exact h
  | cons id ids ih =>
    have h := ih _ h
    by_cases hkey : key = (datasetId, id)
    · rw [hkey, Finmap.lookup_erase] at h
      cases h
    · rwa [Finmap.lookup_erase_ne hkey] at h

end Maps

/-! ## What a call keeps -/

/-- The maps agree, and what is noted of a document the provider has said. -/
structure Inv (py : Python) (σ : Session) : Prop where
  agree : σ.maps.Agree
  noted : ∀ d x mapping, σ.maps.documentMappings.lookup (d, x) = some mapping →
    σ.Named py d x mapping.projectId mapping.documentVersionId

theorem Inv.initial : Inv py .initial := by
  refine ⟨fun d p => ?_, fun d x mapping h => nomatch h⟩
  exact iff_of_false (Finset.notMem_empty d) fun h => nomatch h

/-- The provider has been asked. -/
structure Asked (σ σ₁ : Session) : Prop where
  maps : σ₁.maps = σ.maps
  history : σ.history ⊆ σ₁.history

theorem Asked.refl (σ : Session) : Asked σ σ := ⟨rfl, List.Subset.refl _⟩

theorem Asked.trans (h : Asked σ σ₁) (h' : Asked σ₁ σ₂) : Asked σ σ₂ :=
  ⟨h'.maps.trans h.maps, List.Subset.trans h.history h'.history⟩

theorem Asked.same (h : Asked σ σ₁) : Maps.SameSpaces σ.maps σ₁.maps := by
  rw [h.maps]
  exact ⟨rfl, rfl⟩

theorem Inv.asked (h : Inv py σ) (ha : Asked σ σ₁) : Inv py σ₁ := by
  refine ⟨?_, fun d x mapping hlookup => ?_⟩
  · rw [ha.maps]
    exact h.agree
  · rw [ha.maps] at hlookup
    exact (h.noted d x mapping hlookup).mono ha.history

theorem Inv.note (h : Inv py σ) {mapping : DocumentMapping}
    (hnamed : σ.Named py datasetId documentId mapping.projectId mapping.documentVersionId) :
    Inv py { σ with maps := σ.maps.noteDocument datasetId documentId mapping } := by
  refine ⟨h.agree, fun d x mapping' hlookup => ?_⟩
  unfold Maps.noteDocument at hlookup
  by_cases hkey : (d, x) = (datasetId, documentId)
  · obtain ⟨rfl, rfl⟩ := Prod.mk.inj hkey
    rw [Finmap.lookup_insert] at hlookup
    cases hlookup
    exact hnamed
  · rw [Finmap.lookup_insert_of_ne _ hkey] at hlookup
    exact h.noted d x mapping' hlookup

/-! ## Statements -/

/-- The statements that leave the maps. -/
def Asks : Stmt → Prop
  | .request _ | .load _ | .read => True
  | .write _ => False

theorem asked_of_asks {s : Stmt} {x : Except RagflowError s.Answer} (hs : Asks s)
    (h : answers s σ x σ₁) : Asked σ σ₁ := by
  cases s with
  | request r =>
    obtain rfl := h
    exact ⟨rfl, List.subset_append_left _ _⟩
  | load | read =>
    first
      | obtain rfl := h
      | obtain ⟨-, rfl⟩ := h
    exact .refl _
  | write maps => exact hs.elim

theorem asks_ends {α : Type} {p : Call α} (h : p.Only Asks) :
    Ends answers (fun _ σ₁ => Asked σ σ₁) p σ :=
  Ends.of_only Asked.refl (fun _ _ _ => Asked.trans) (fun _ _ _ _ => asked_of_asks) h

theorem request_only (r : Request) : (request r).Only Asks := Only.exec trivial

/-- A request whose answer the history keeps. -/
theorem request_ends (req : Request) :
    Ends answers (fun r σ₁ => Asked σ σ₁ ∧ ⟨req, r⟩ ∈ σ₁.history) (request req) σ := by
  refine Ends.exec fun x σ₁ h => ?_
  obtain rfl := h
  exact ⟨⟨rfl, List.subset_append_left _ _⟩, List.mem_append_right _ List.mem_cons_self⟩

theorem listDocuments_only (datasetId : String) (documentId : Option String)
    (condition : Option (String × String)) :
    (listDocuments datasetId documentId condition).Only Asks :=
  (request_only _).bind fun _ => ofExcept_only _

theorem bestEffortDelete_only (datasetId documentId : String) :
    (bestEffortDelete datasetId documentId).Only Asks := by
  unfold bestEffortDelete
  refine Only.tryCatch (Only.bind (request_only _) fun _ => ?_) fun _ => ?_
  · exact trivial
  · exact trivial

/-! ## An adapter -/

namespace Sample

def repr : Any → String
  | .null => "None"
  | .bool b => if b then "True" else "False"
  | .int i => toString i
  | .str s => "'" ++ s ++ "'"
  | .float _ | .list _ | .dict _ => "..."

def configuration : Config where
  py :=
    { repr := repr, float := fun _ => none, casefold := id, isPlainName := fun name => '/' ∉ name.toList }
  objectStore := true
  embeddingModel := none
  chunkMethod := "naive"
  pages := 10

end Sample

end ProjectAgent.Ragflow
