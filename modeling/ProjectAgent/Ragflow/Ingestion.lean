/-
Ingestion against a provider that keeps its documents and tells the truth
about them, but may fail any request or lose its answer after it has done it,
also more than once, since the client tries again.

A receipt is good if its document carries the metadata and a parse request
that names it has been accepted. A document whose metadata was taken and whose
parse request was not is found by the next call, which gives a receipt for it
and asks for nothing.
-/
import Mathlib.Logic.Relation
import ProjectAgent.Ragflow.Bindings

namespace ProjectAgent.Ragflow

open Documents (KnowledgeIngestionRequest)
open Interleave Interleave.Prog

/-! ## The provider -/

structure ProviderDocument where
  id : String
  metaFields : Option Any
  /-- `POST .../chunks` has been accepted for it. -/
  parseRequested : Bool

/-- The documents of each dataset. -/
structure Provider where
  documents : String → List ProviderDocument

namespace Provider

def change (P : Provider) (datasetId : String)
    (f : List ProviderDocument → List ProviderDocument) : Provider :=
  ⟨Function.update P.documents datasetId (f (P.documents datasetId))⟩

def upload (P : Provider) (datasetId id : String) : Provider :=
  P.change datasetId fun documents => ⟨id, none, false⟩ :: documents

def update (P : Provider) (datasetId id : String) (fields : List (String × String)) : Provider :=
  P.change datasetId fun documents => documents.map fun document =>
    if document.id = id then
      { document with metaFields := some (.dict (fields.map fun entry => (entry.1, .str entry.2))) }
    else document

def delete (P : Provider) (datasetId : String) (ids : List String) : Provider :=
  P.change datasetId fun documents => documents.filter (·.id ∉ ids)

def parse (P : Provider) (datasetId : String) (ids : List String) : Provider :=
  P.change datasetId fun documents => documents.map fun document =>
    if document.id ∈ ids then { document with parseRequested := true } else document

/-- No two documents of a dataset have one id. -/
def Ok (P : Provider) : Prop := ∀ datasetId, ((P.documents datasetId).map (·.id)).Nodup

end Provider

/-- A list of documents tells of documents there are, as they are; it may leave some out. -/
def Tells (documents : List ProviderDocument) (data : Any) : Prop :=
  ∀ items, documentList data = .ok items → ∀ item ∈ items, ∃ document ∈ documents,
    item.lookup "id" = some (.str document.id) ∧ item.lookup "meta_fields" = document.metaFields

/-- The request is done, and this is the answer. -/
inductive Effect : Request → Provider → Any → Provider → Prop
  | list {P : Provider} {datasetId : String} {documentId : Option String}
      {condition : Option (String × String)} {data : Any}
      (h : Tells (P.documents datasetId) data) :
        Effect (.listDocuments datasetId documentId condition) P data P
  | upload {P : Provider} {datasetId filename id mimeType : String} {bytes : List UInt8}
      {data : Any}
      (hfresh : id ∉ (P.documents datasetId).map (·.id)) (hid : ∀ told, uploadedId data = .ok told →
        told = id) :
      Effect (.uploadDocument datasetId filename bytes mimeType) P data (P.upload datasetId id)
  | update {P : Provider} {datasetId id : String} {fields : List (String × String)} {data : Any} :
      Effect (.updateDocument datasetId id fields) P data (P.update datasetId id fields)
  | delete {P : Provider} {datasetId : String} {ids : List String} {data : Any} :
      Effect (.deleteDocuments datasetId ids) P data (P.delete datasetId ids)
  | parse {P : Provider} {datasetId : String} {ids : List String} {data : Any} :
      Effect (.parseDocuments datasetId ids) P data (P.parse datasetId ids)

/-- The request is done any number of times, and no answer arrives. -/
def Lost (r : Request) : Provider → Provider → Prop :=
  Relation.ReflTransGen fun P P' => ∃ data, Effect r P data P'

structure Site where
  maps : Maps
  provider : Provider

/-- A request that raises may have been done; one that is answered has been. -/
def serves : (s : Stmt) → Site → Except RagflowError s.Answer → Site → Prop
  | .request r, σ, x, σ' => σ'.maps = σ.maps ∧
    match x with
    | .ok data => ∃ P, Lost r σ.provider P ∧ Effect r P data σ'.provider
    | .error _ => Lost r σ.provider σ'.provider
  | .load _, σ, _, σ' => σ' = σ
  | .read, σ, x, σ' => x = .ok σ.maps ∧ σ' = σ
  | .write maps, σ, x, σ' => x = .ok () ∧ σ' = { σ with maps := maps }

theorem serves_local : Local serves (·.maps) fun maps σ => { σ with maps := maps } :=
  ⟨fun _ _ _ h => h, fun _ _ _ _ h => h⟩

variable (config : Config)

/-- The call is made, and returns or raises. -/
def Ingested (req : KnowledgeIngestionRequest) (σ σ' : Site) : Prop :=
  ∃ r, Runs serves (ingest config req) σ r σ'

/-- The document's metadata names the project and the version of the request. -/
def ProviderDocument.Carries (document : ProviderDocument)
    (req : KnowledgeIngestionRequest) : Prop :=
  ∃ metadata, document.metaFields = some (.dict metadata) ∧
    Names metadata req.projectId req.documentVersionId

/-- The receipt is of a document that carries the metadata, and whose parsing has been requested. -/
def Good (req : KnowledgeIngestionRequest) (receipt : KnowledgeIngestionReceipt)
    (P : Provider) : Prop :=
  ∃ document ∈ P.documents req.knowledgeSpaceId, receipt = receiptOf req document.id ∧
    document.Carries req ∧
    document.parseRequested = true

/-- The document is one that a call with the request would take for its own. -/
def ProviderDocument.Matches (document : ProviderDocument) (py : Python)
    (req : KnowledgeIngestionRequest) : Prop :=
  document.id ≠ "" ∧ ∃ metadata, document.metaFields = some (.dict metadata) ∧
    mappingOfMetadata py metadata = some (mappingOf req)

/-- Unless the call is refused before it asks: of what it would take for its own, all has been asked
to be parsed. -/
def NoLeftover (σ : Site) (req : KnowledgeIngestionRequest) : Prop :=
  config.objectStore = true → σ.maps.Free req.projectId req.knowledgeSpaceId →
    ∀ document ∈ σ.provider.documents req.knowledgeSpaceId, document.Matches config.py req →
      document.parseRequested = true

variable {P P' : Provider} {r : Request} {data : Any} {σ σ₁ : Site} {datasetId : String}

/-! ## What the provider keeps -/

theorem documents_change (f : List ProviderDocument → List ProviderDocument) :
    (P.change datasetId f).documents datasetId = f (P.documents datasetId) :=
  Function.update_self ..

theorem Provider.Ok.change (h : P.Ok) {f : List ProviderDocument → List ProviderDocument}
    (hf : ((f (P.documents datasetId)).map (·.id)).Nodup) : (P.change datasetId f).Ok := by
  intro d
  unfold Provider.change
  dsimp only
  by_cases hd : d = datasetId
  · subst hd
    rw [Function.update_self]
    exact hf
  · rw [Function.update_of_ne hd]
    exact h d

theorem ids_map {documents : List ProviderDocument} {f : ProviderDocument → ProviderDocument}
    (hf : ∀ d, (f d).id = d.id) :
    (documents.map f).map (·.id) = documents.map (·.id) := by
  rw [List.map_map]
  exact List.map_congr_left fun d _ => hf d

theorem Effect.ok (h : Effect r P data P') (hok : P.Ok) : P'.Ok := by
  cases h with
  | list => exact hok
  | upload hfresh => exact hok.change (List.nodup_cons.mpr ⟨hfresh, hok _⟩)
  | update =>
    refine hok.change ?_
    rw [ids_map fun d => by split <;> rfl]
    exact hok _
  | delete => exact hok.change (((List.filter_sublist).map _).nodup (hok _))
  | parse =>
    refine hok.change ?_
    rw [ids_map fun d => by split <;> rfl]
    exact hok _

theorem Lost.ok (h : Lost r P P') (hok : P.Ok) : P'.Ok := by
  induction h with
  | refl => exact hok
  | tail _ heffect ih =>
    obtain ⟨data, heffect⟩ := heffect
    exact heffect.ok ih

/-- A list that is lost changes nothing. -/
theorem Lost.list {documentId : Option String} {condition : Option (String × String)}
    (h : Lost (.listDocuments datasetId documentId condition) P P') : P' = P := by
  induction h with
  | refl => rfl
  | tail _ heffect ih =>
    obtain ⟨data, heffect⟩ := heffect
    cases heffect
    exact ih

/-- There is a document with this id of which this holds. -/
def Provider.Has (P : Provider) (datasetId id : String) (Q : ProviderDocument → Prop) : Prop :=
  ∃ document ∈ P.documents datasetId, document.id = id ∧ Q document

section Has

variable {id : String} {Q Q' : ProviderDocument → Prop}

theorem Provider.Has.map (h : P.Has datasetId id Q) {f : ProviderDocument → ProviderDocument}
    (hid : ∀ d, (f d).id = d.id) (hf : ∀ d, d.id = id → Q d → Q' (f d)) :
    (P.change datasetId (·.map f)).Has datasetId id Q' := by
  obtain ⟨document, hmem, hsame, hQ⟩ := h
  refine ⟨f document, ?_, (hid document).trans hsame, hf document hsame hQ⟩
  rw [documents_change]
  exact List.mem_map_of_mem hmem

/-- An accepted update leaves the document with the metadata. -/
theorem Effect.update_has {fields : List (String × String)}
    (h : Effect (.updateDocument datasetId id fields) P data P')
    (hhas : P.Has datasetId id fun _ => True) :
    P'.Has datasetId id fun d => d.metaFields =
      some (.dict (fields.map fun entry => (entry.1, .str entry.2))) := by
  cases h
  exact hhas.map (fun d => by split <;> rfl) fun d hd _ => by rw [if_pos hd]

theorem Lost.update_has {fields : List (String × String)}
    (h : Lost (.updateDocument datasetId id fields) P P')
    (hhas : P.Has datasetId id fun _ => True) : P'.Has datasetId id fun _ => True := by
  induction h with
  | refl => exact hhas
  | tail _ heffect ih =>
    obtain ⟨data, heffect⟩ := heffect
    obtain ⟨document, hmem, hid, -⟩ := heffect.update_has ih
    exact ⟨document, hmem, hid, trivial⟩

/-- A parse request leaves the metadata. -/
theorem Effect.parse_keeps {ids : List String} {metaFields : Option Any}
    (h : Effect (.parseDocuments datasetId ids) P data P')
    (hhas : P.Has datasetId id fun d => d.metaFields = metaFields) :
    P'.Has datasetId id fun d => d.metaFields = metaFields := by
  cases h
  exact hhas.map (fun d => by split <;> rfl) fun d _ hQ => by split <;> exact hQ

theorem Lost.parse_keeps {ids : List String} {metaFields : Option Any}
    (h : Lost (.parseDocuments datasetId ids) P P')
    (hhas : P.Has datasetId id fun d => d.metaFields = metaFields) :
    P'.Has datasetId id fun d => d.metaFields = metaFields := by
  induction h with
  | refl => exact hhas
  | tail _ heffect ih =>
    obtain ⟨data, heffect⟩ := heffect
    exact heffect.parse_keeps ih

/-- An accepted parse request that names the document is noted of it. -/
theorem Effect.parse_has {metaFields : Option Any}
    (h : Effect (.parseDocuments datasetId [id]) P data P')
    (hhas : P.Has datasetId id fun d => d.metaFields = metaFields) :
    P'.Has datasetId id fun d => d.metaFields = metaFields ∧ d.parseRequested = true := by
  cases h
  refine hhas.map (fun d => by split <;> rfl) fun d hd hQ => ?_
  rw [if_pos (List.mem_singleton.mpr hd)]
  exact ⟨hQ, rfl⟩

end Has

/-! ## A call -/

theorem serve_ends (r : Request) : Ends serves (fun x σ₁ => σ₁.maps = σ.maps ∧ match x with
    | .ok data => ∃ P, Lost r σ.provider P ∧ Effect r P data σ₁.provider
    | .error _ => Lost r σ.provider σ₁.provider) (request r) σ := by
  refine Ends.exec fun x σ₁ h => ?_
  cases x <;> exact h

theorem ok_kept {s : Stmt} {x : Except RagflowError s.Answer} (h : serves s σ x σ₁)
    (hok : σ.provider.Ok) : σ₁.provider.Ok := by
  cases s with
  | request r =>
    obtain ⟨-, h⟩ := h
    cases x with
    | ok data =>
      obtain ⟨P, hlost, heffect⟩ := h
      exact heffect.ok (hlost.ok hok)
    | error e => exact Lost.ok h hok
  | load key =>
    obtain rfl := h
    exact hok
  | read =>
    obtain ⟨-, rfl⟩ := h
    exact hok
  | write maps =>
    obtain ⟨-, rfl⟩ := h
    exact hok

/-- **A document that is uploaded, given its metadata and sent to be parsed is good.** -/
theorem uploadNew_serves (req : KnowledgeIngestionRequest) :
    Ends serves (fun r σ₁ => ∀ id, r = .ok id →
    σ₁.provider.Has req.knowledgeSpaceId id fun d => d.Carries req ∧ d.parseRequested = true)
      (uploadNew config req) σ := by
  unfold uploadNew
  refine Ends.bind (Ends.exec fun _ _ h => h) (fun payload σ₁ _ => ?_) fun e σ₁ _ _ hok =>
    nomatch hok
  dsimp only
  refine Ends.bind (ofExcept_ends _) (fun filename σ₂ _ => ?_) fun e σ₂ _ _ hok => nomatch hok
  refine Ends.bind (serve_ends _) (fun uploaded σ₃ h₃ => ?_) fun e σ₃ _ _ hok => nomatch hok
  obtain ⟨-, P, -, heffect⟩ := h₃
  refine Ends.bind (ofExcept_ends _) (fun id σ₄ h₄ => ?_) fun e σ₄ _ _ hok => nomatch hok
  obtain ⟨hid, rfl⟩ := h₄
  have huploaded : σ₄.provider.Has req.knowledgeSpaceId id fun _ => True := by
    generalize hP : σ₄.provider = P' at heffect ⊢
    cases heffect with
    | upload hfresh htold =>
      obtain rfl := htold id hid.symm
      refine ⟨⟨_, none, false⟩, ?_, rfl, trivial⟩
      unfold Provider.upload
      rw [documents_change]
      exact List.mem_cons_self
  have hput : Ends serves (fun r σ₅ => ∀ a, r = .ok a →
    σ₅.provider.Has req.knowledgeSpaceId id fun d =>
      d.metaFields = some (.dict ((metaFields req).map fun entry => (entry.1, .str entry.2))))
      ((request (.updateDocument req.knowledgeSpaceId id (metaFields req))).tryCatch fun e =>
        (bestEffortDelete req.knowledgeSpaceId id).bind fun _ => .raise e) σ₄ := by
    refine Ends.tryCatch (serve_ends _) (fun a σ₅ h₅ a' _ => ?_) fun e σ₅ h₅ => ?_
    · obtain ⟨-, P', hlost, heffect⟩ := h₅
      exact heffect.update_has (hlost.update_has huploaded)
    · exact Ends.bind Ends.any (fun _ _ _ _ hok => nomatch hok)
        fun _ _ _ _ hok => nomatch hok
  refine Ends.bind hput (fun a σ₅ h₅ => ?_) fun e σ₅ _ _ hok => nomatch hok
  have hhas := h₅ a rfl
  refine serves_local.read_then (serves_local.write_then _ ?_)
  refine Ends.bind (serve_ends _) (fun _ σ₆ h₆ => ?_) fun e σ₆ _ _ hok => nomatch hok
  obtain ⟨-, P', hlost, heffect⟩ := h₆
  intro id' hok
  cases hok
  obtain ⟨document, hmem, hsame, hfields, hparsed⟩ := heffect.parse_has (hlost.parse_keeps hhas)
  exact ⟨document, hmem, hsame, ⟨_, hfields, names_metaFields req⟩, hparsed⟩

/-- **A receipt is good where nothing the call would take for its own has been left.** -/
theorem ingest_serves (req : KnowledgeIngestionRequest) (h : NoLeftover config σ req) :
    Ends serves (fun r σ₁ => ∀ receipt, r = .ok receipt → Good req receipt σ₁.provider)
      (ingest config req) σ := by
  unfold ingest
  refine Ends.bind (serves_local.bindSpace_ends config req.projectId req.knowledgeSpaceId)
    (fun _ σ₁ h₁ => ?_)
    fun e σ₁ _ _ hok => nomatch hok
  obtain ⟨hfree, -, rfl⟩ | ⟨-, ⟨e, herror⟩, -⟩ := h₁
  · split
    · exact fun _ hok => nomatch hok
    · next hstore =>
      have hstore : config.objectStore = true := not_not.mp hstore
      unfold listDocuments
      have hlist : Ends serves (fun r σ₂ => ∀ items, r = .ok items → σ₂.provider = σ.provider ∧
          ∀ item ∈ items, ∃ document ∈ σ.provider.documents req.knowledgeSpaceId,
            item.lookup "id" = some (.str document.id) ∧
              item.lookup "meta_fields" = document.metaFields)
          ((request (.listDocuments req.knowledgeSpaceId none
            (some (req.projectId, req.documentVersionId)))).bind fun data =>
            ofExcept (documentList data)) { σ with
              maps := σ.maps.bind req.projectId req.knowledgeSpaceId } := by
        refine Ends.bind (serve_ends _) (fun data σ₂ h₂ => ?_) fun e σ₂ _ _ hok => nomatch hok
        obtain ⟨-, P, hlost, heffect⟩ := h₂
        have hP : P = σ.provider := hlost.list
        refine (ofExcept_ends _).mono fun r σ₃ h₃ items hok => ?_
        obtain ⟨hr, rfl⟩ := h₃
        generalize hP' : σ₃.provider = P' at heffect ⊢
        cases heffect with
        | list htells =>
          rw [hP] at htells
          exact ⟨hP, htells items (hr.symm.trans hok)⟩
      refine Ends.bind hlist (fun items σ₂ h₂ => ?_) fun e σ₂ _ _ hok => nomatch hok
      obtain ⟨hsame, htells⟩ := h₂ items rfl
      split
      · next item hitem =>
        refine Ends.bind (ofExcept_ends _) (fun id σ₃ h₃ => ?_) fun e σ₃ _ _ hok => nomatch hok
        obtain ⟨hid, rfl⟩ := h₃
        intro receipt hok
        cases hok
        -- the document of the item: it is there as the list tells, and the call takes it for its
        -- own
        obtain ⟨document, hmem, hlookup, hfields⟩ := htells item (List.mem_of_find?_eq_some hitem)
        have hfound := List.find?_some hitem
        have hmapping : mappingFromDocument config.py item = some (mappingOf req) :=
          of_decide_eq_true hfound
        unfold requiredString at hid
        rw [hlookup] at hid
        dsimp only at hid
        split at hid
        · cases hid
        · next hne =>
          cases hid
          unfold mappingFromDocument at hmapping
          rw [hfields] at hmapping
          split at hmapping
          · next metadata hmetadata =>
            have hparsed := h hstore hfree document hmem ⟨hne, metadata, hmetadata, hmapping⟩
            rw [← hsame] at hmem
            exact ⟨document, hmem, rfl, ⟨metadata, hmetadata, names_of_mapping hmapping⟩, hparsed⟩
          · cases hmapping
      · refine Ends.bind (uploadNew_serves config req) (fun id σ₃ h₃ => ?_) fun e σ₃ _ _ hok =>
          nomatch hok
        intro receipt hok
        cases hok
        obtain ⟨document, hmem, hid, hcarries, hparsed⟩ := h₃ id rfl
        exact ⟨document, hmem, by rw [hid], hcarries, hparsed⟩
  · cases herror

/-! ## Sequences of calls -/

theorem receiptOf_inj {req : KnowledgeIngestionRequest} {id id' : String}
    (h : receiptOf req id = receiptOf req id') :
    id = id' := by
  have hjob : encodeIngestionJobId req.knowledgeSpaceId id =
      encodeIngestionJobId req.knowledgeSpaceId id' :=
    congrArg KnowledgeIngestionReceipt.ingestionJobId h
  unfold encodeIngestionJobId at hjob
  exact String.append_right_inj _ |>.mp hjob

theorem bindSpace_runs {projectId : String} (hfree : σ.maps.Free projectId datasetId) :
    Runs serves (bindSpace config projectId datasetId) σ (.ok ()) { σ with
      maps := σ.maps.bind projectId datasetId } := by
  unfold bindSpace
  refine Runs.bind (Runs.exec ⟨rfl, rfl⟩) ?_
  split
  · next existing hlookup =>
    rw [if_neg (not_not.mpr (hfree existing hlookup))]
    exact Runs.exec ⟨rfl, rfl⟩
  · exact Runs.exec ⟨rfl, rfl⟩

/-- A document that the call would take for its own may be the one the provider lists. -/
theorem leftover_runs {req : KnowledgeIngestionRequest} {document : ProviderDocument}
    (hstore : config.objectStore = true) (hfree : σ.maps.Free req.projectId req.knowledgeSpaceId)
    (hmem : document ∈ σ.provider.documents req.knowledgeSpaceId)
    (hmatches : document.Matches config.py req) :
    Runs serves (ingest config req) σ (.ok (receiptOf req document.id))
      { σ with maps := σ.maps.bind req.projectId req.knowledgeSpaceId } := by
  obtain ⟨hne, metadata, hfields, hmapping⟩ := hmatches
  have htells : Tells (σ.provider.documents req.knowledgeSpaceId)
      (.list [.dict [("id", .str document.id), ("meta_fields", .dict metadata)]]) := by
    intro items hitems item hitem
    cases hitems
    obtain rfl := List.mem_singleton.mp hitem
    exact ⟨document, hmem, rfl, hfields.symm⟩
  unfold ingest
  refine Runs.bind (bindSpace_runs config hfree) ?_
  rw [if_neg (not_not.mpr hstore)]
  unfold listDocuments
  have hlist : Runs serves
    ((request (.listDocuments req.knowledgeSpaceId none
    (some (req.projectId, req.documentVersionId)))).bind
      fun data => ofExcept (documentList data)) { σ with
        maps := σ.maps.bind req.projectId req.knowledgeSpaceId }
      (.ok [[("id", .str document.id), ("meta_fields", .dict metadata)]])
      { σ with maps := σ.maps.bind req.projectId req.knowledgeSpaceId } :=
    Runs.bind (Runs.exec ⟨rfl, σ.provider, .refl, .list htells⟩) ⟨rfl, rfl⟩
  refine Runs.bind hlist ?_
  have hfind : [[("id", Any.str document.id), ("meta_fields", .dict metadata)]].find?
      (fun item => mappingFromDocument config.py item = some (mappingOf req)) =
      some [("id", .str document.id), ("meta_fields", .dict metadata)] :=
    List.find?_cons_of_pos (decide_eq_true hmapping)
  rw [hfind]
  dsimp only
  have hid : requiredString [("id", .str document.id),
    ("meta_fields", .dict metadata)] "id" "existing document" =
      .ok document.id := if_neg hne
  rw [hid]
  exact ⟨rfl, rfl⟩

/--
**A receipt means that parsing was requested exactly if nothing was left over.** After any sequence
of calls, whatever failed in them: every receipt the next call can return is of a document that
carries the metadata and whose parse request was accepted, if and only if every document that the
call would take for its own has been asked to be parsed.
-/
theorem receipts_good_iff (σ₀ : Site) (hok : σ₀.provider.Ok) (reqs : List KnowledgeIngestionRequest)
    (σ : Site) (hr : Calls (Ingested config) reqs σ₀ σ) (req : KnowledgeIngestionRequest) :
    (∀ receipt σ', Runs serves (ingest config req) σ (.ok receipt) σ' →
      Good req receipt σ'.provider) ↔
      NoLeftover config σ req := by
  have hok : σ.provider.Ok := by
    refine hr.invariant (I := fun σ => σ.provider.Ok) (fun call σ₁ σ₂ hcalled h => ?_) hok
    obtain ⟨r, hruns⟩ := hcalled
    have hkept : Ends serves (fun _ σ₂ => σ₂.provider.Ok) (ingest config call) σ₁ :=
      Ends.invariant (fun _ _ _ _ hs => ok_kept hs) h
    exact hkept.of_runs hruns
  constructor
  · intro hall hstore hfree document hmem hmatches
    obtain ⟨document', hmem', hreceipt, -, hparsed⟩ :=
      hall _ _ (leftover_runs config hstore hfree hmem hmatches)
    have hsame := List.inj_on_of_nodup_map
      (hok req.knowledgeSpaceId) hmem hmem' (receiptOf_inj hreceipt)
    rw [hsame]
    exact hparsed
  · intro hnone receipt σ' hruns
    exact (ingest_serves config req hnone).of_runs hruns receipt rfl

namespace Sample

def ingestion : KnowledgeIngestionRequest where
  projectId := "P-1"
  knowledgeSpaceId := "dataset-1"
  documentVersionId := "version-1"
  objectKey := "objects/source-1"
  metadata := [("filename", "alpha.txt")]

def site : Site := ⟨.empty, ⟨fun _ => []⟩⟩

/-- After the upload and the update of its metadata. -/
def leftover : Site where
  maps := (Maps.empty.bind "P-1" "dataset-1").noteDocument "dataset-1" "document-1"
    (mappingOf ingestion)
  provider := (site.provider.upload "dataset-1" "document-1").update "dataset-1" "document-1"
    (metaFields ingestion)

def uploaded : Any := .list [.dict [("id", .str "document-1")]]

theorem site_ok : site.provider.Ok := fun _ => .nil

/-- The call whose parse request fails. -/
theorem ingested : Ingested configuration ingestion site leftover := by
  refine ⟨.error (.raised "parse_start"), ?_⟩
  unfold ingest
  refine Runs.bind (bindSpace_runs configuration fun _ h => nomatch h) ?_
  have hstore : configuration.objectStore = true := rfl
  rw [if_neg (not_not.mpr hstore)]
  have hlist : Runs serves (listDocuments ingestion.knowledgeSpaceId none
    (some (ingestion.projectId, ingestion.documentVersionId)))
      ⟨Maps.empty.bind "P-1" "dataset-1", site.provider⟩ (.ok [])
        ⟨Maps.empty.bind "P-1" "dataset-1", site.provider⟩ := by
    have htells : Tells (site.provider.documents "dataset-1") (.list []) := by
      intro items hitems item hitem
      cases hitems
      cases hitem
    exact Runs.bind (Runs.exec ⟨rfl, site.provider, .refl, .list htells⟩) ⟨rfl, rfl⟩
  refine Runs.bind hlist (Runs.bind_error ?_)
  unfold uploadNew
  refine Runs.bind (Runs.exec (x := .ok ⟨[], "text/plain"⟩) rfl) ?_
  refine Runs.bind (b := "alpha.txt") ⟨rfl, rfl⟩ ?_
  have hfresh : "document-1" ∉ (site.provider.documents "dataset-1").map (·.id) := List.not_mem_nil
  have htold (told : String) (h : uploadedId uploaded = .ok told) : told = "document-1" := by
    cases h
    rfl
  have hupload : Runs serves (request (.uploadDocument "dataset-1" "alpha.txt" [] "text/plain"))
      ⟨Maps.empty.bind "P-1" "dataset-1", site.provider⟩ (.ok uploaded)
      ⟨Maps.empty.bind "P-1" "dataset-1", site.provider.upload "dataset-1" "document-1"⟩ :=
    Runs.exec ⟨rfl, _, .refl, .upload hfresh htold⟩
  refine Runs.bind hupload ?_
  refine Runs.bind (b := "document-1") ⟨rfl, rfl⟩ ?_
  have hupdate : Runs serves
    (request (.updateDocument "dataset-1" "document-1" (metaFields ingestion)))
      ⟨Maps.empty.bind "P-1" "dataset-1", site.provider.upload "dataset-1" "document-1"⟩ (.ok .null)
      ⟨Maps.empty.bind "P-1" "dataset-1", leftover.provider⟩ := Runs.exec ⟨rfl, _, .refl, .update⟩
  refine Runs.bind (Runs.catch_ok hupdate) ?_
  refine Runs.bind (Runs.exec ⟨rfl, rfl⟩) (Runs.bind (Runs.exec ⟨rfl, rfl⟩) (Runs.bind_error ?_))
  exact Runs.exec ⟨rfl, .refl⟩

end Sample

open Sample in
/-- With nothing left over, every receipt is good. -/
theorem receipts_good_sample : site.provider.documents "dataset-1" = [] ∧
    ∀ receipt σ', Runs serves (ingest configuration ingestion) site (.ok receipt) σ' →
      Good ingestion receipt σ'.provider :=
  ⟨rfl, (receipts_good_iff configuration site site_ok [] site rfl ingestion).mpr fun _ _ _ hmem =>
    nomatch hmem⟩

open Sample in
/-- After the parse request of one call has failed, the next returns a receipt for the document and
asks for nothing. -/
theorem leftover_not_parsed : ∃ σ σ' receipt, Calls (Ingested configuration) [ingestion] site σ ∧
    Runs serves (ingest configuration ingestion) σ (.ok receipt) σ' ∧
      ¬ Good ingestion receipt σ'.provider := by
  have hfree : leftover.maps.Free ingestion.projectId ingestion.knowledgeSpaceId := by
    intro other hother
    exact (Option.some.inj hother).symm
  have hmatches : ProviderDocument.Matches
      ⟨"document-1", some (.dict ((metaFields ingestion).map fun entry => (entry.1, .str entry.2))),
        false⟩
      configuration.py ingestion := ⟨by decide, _, rfl, rfl⟩
  have hruns := leftover_runs configuration rfl hfree List.mem_cons_self hmatches
  refine ⟨leftover, _, _, ⟨leftover, ingested, rfl⟩, hruns, ?_⟩
  rintro ⟨document, hmem, -, -, hparsed⟩
  obtain rfl := List.mem_singleton.mp hmem
  cases hparsed

end ProjectAgent.Ragflow
