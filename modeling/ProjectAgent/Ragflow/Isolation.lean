/-
What each method of the adapter does to its maps, and what it retrieves: the
bindings stay one project a dataset over every sequence of calls, and a chunk
is of a bound dataset and of a document that was named for the project.
-/
import ProjectAgent.Lib.Fallible
import ProjectAgent.Lib.Related
import ProjectAgent.Ragflow.Bindings

namespace ProjectAgent.Ragflow

open Documents (KnowledgeIngestionRequest DeleteKnowledgeDocumentRequest)
open Evidence (Score KnowledgeChunk KnowledgeRetrievalRequest intOfText)
open Interleave Interleave.Prog

variable (config : Config) {σ σ₀ σ₁ σ₂ : Session} {py : Python}
  {datasetId documentId projectId : String}

/-- The invariant holds still, the spaces are the same, and the history has grown. -/
structure Kept (py : Python) (σ σ₁ : Session) : Prop where
  inv : Inv py σ₁
  same : Maps.SameSpaces σ.maps σ₁.maps
  history : σ.history ⊆ σ₁.history

theorem Kept.refl (h : Inv py σ) : Kept py σ σ := ⟨h, ⟨rfl, rfl⟩, List.Subset.refl _⟩

theorem Kept.asked (h : Kept py σ σ₁) (ha : Asked σ₁ σ₂) : Kept py σ σ₂ :=
  ⟨h.inv.asked ha, h.same.trans ha.same, List.Subset.trans h.history ha.history⟩

theorem Kept.trans (h : Kept py σ σ₁) (h' : Kept py σ₁ σ₂) : Kept py σ σ₂ :=
  ⟨h'.inv, h.same.trans h'.same, List.Subset.trans h.history h'.history⟩

/-- First something is asked. -/
theorem Kept.ask {α β : Type} {x : Call β} {f : β → Call α} (h : Kept py σ₀ σ) (hx : x.Only Asks)
    (hf : ∀ b σ₁, Kept py σ₀ σ₁ → Ends answers (fun _ σ₂ => Kept py σ₀ σ₂) (f b) σ₁) :
    Ends answers (fun _ σ₂ => Kept py σ₀ σ₂) (x.bind f) σ :=
  Ends.bind (asks_ends hx) (fun b σ₁ ha => hf b σ₁ (h.asked ha)) fun _ _ ha => h.asked ha

/-! ## Documents -/

/-- The document is noted once its metadata has been taken. -/
theorem uploadNew_ends (req : KnowledgeIngestionRequest) (h : Inv config.py σ) :
    Ends answers (fun _ σ₁ => Kept config.py σ σ₁) (uploadNew config req) σ := by
  unfold uploadNew
  refine (Kept.refl h).ask (Only.exec trivial) fun payload σ₁ h₁ => ?_
  dsimp only
  refine h₁.ask (ofExcept_only _) fun filename σ₂ h₂ =>
    h₂.ask (request_only _) fun uploaded σ₃ h₃ =>
    h₃.ask (ofExcept_only _) fun documentId σ₄ h₄ => ?_
  have hput : Ends answers (fun r σ₅ => Kept config.py σ σ₅ ∧ ∀ a, r = .ok a →
      ⟨.updateDocument req.knowledgeSpaceId documentId (metaFields req), .ok a⟩ ∈ σ₅.history)
      ((request (.updateDocument req.knowledgeSpaceId documentId (metaFields req))).tryCatch
        fun e =>
        (bestEffortDelete req.knowledgeSpaceId documentId).bind fun _ => .raise e) σ₄ := by
    refine Ends.tryCatch (request_ends _) (fun a σ₅ hput => ⟨h₄.asked hput.1, fun a' ha => ?_⟩)
      fun e σ₅ hput => ?_
    · cases ha
      exact hput.2
    · have hkept := h₄.asked hput.1
      exact Ends.bind (asks_ends (bestEffortDelete_only _ _))
        (fun _ _ ha => ⟨hkept.asked ha, fun _ hok => nomatch hok⟩)
        fun _ _ ha => ⟨hkept.asked ha, fun _ hok => nomatch hok⟩
  refine Ends.bind hput (fun a σ₅ h₅ => ?_) fun e σ₅ h₅ => h₅.1
  refine answers_local.read_then (answers_local.write_then _ ?_)
  have hnamed : σ₅.Named config.py req.knowledgeSpaceId documentId req.projectId
      req.documentVersionId := by
    refine ⟨_, h₅.2 a rfl, _, ?_, names_metaFields req⟩
    unfold Exchange.metadata
    exact if_pos ⟨rfl, rfl⟩
  have hnoted : Kept config.py σ { σ₅ with
      maps := σ₅.maps.noteDocument req.knowledgeSpaceId documentId (mappingOf req) } :=
    ⟨h₅.1.inv.note hnamed, h₅.1.same, h₅.1.history⟩
  exact hnoted.ask (request_only _) fun _ σ₇ h₇ => h₇

/-- The call's dataset is another project's, and it raises and does nothing; or the dataset is
bound, if it was not. -/
def Binds (py : Python) (projectId datasetId : String) {α : Type} (σ : Session)
    (r : Except RagflowError α) (σ₁ : Session) : Prop :=
  (¬ σ.maps.Free projectId datasetId ∧ (∃ e, r = .error e) ∧ σ₁ = σ) ∨
    (σ.maps.Free projectId datasetId ∧ Inv py σ₁ ∧
      Maps.SameSpaces (σ.maps.bind projectId datasetId) σ₁.maps)

/-- First the dataset is bound. -/
theorem Binds.first {α : Type} {f : Call α} (h : Inv config.py σ)
    (hf : ∀ σ₁, Inv config.py σ₁ → Ends answers (fun _ σ₂ => Kept config.py σ₁ σ₂) f σ₁) :
    Ends answers (Binds config.py projectId datasetId σ)
      ((bindSpace config projectId datasetId).bind fun _ => f) σ := by
  refine Ends.bind (answers_local.bindSpace_ends config projectId datasetId) (fun _ σ₁ h₁ => ?_)
    fun e σ₁ h₁ => ?_
  · obtain ⟨hfree, -, rfl⟩ | ⟨-, ⟨e, herror⟩, -⟩ := h₁
    · have hbound : Inv config.py { σ with
          maps := σ.maps.bind projectId datasetId } := ⟨h.agree.bind hfree, h.noted⟩
      exact (hf _ hbound).mono fun r σ₂ hkept => .inr ⟨hfree, hkept.inv, hkept.same⟩
    · cases herror
  · obtain ⟨-, hok, -⟩ | ⟨hnot, -, rfl⟩ := h₁
    · cases hok
    · exact .inl ⟨hnot, ⟨e, rfl⟩, rfl⟩

theorem bindAuthorizedSpace_ends (h : Inv config.py σ) :
    Ends answers (Binds config.py projectId datasetId σ)
      (bindAuthorizedSpace config projectId datasetId) σ := by
  refine (answers_local.bindSpace_ends config projectId datasetId).mono fun r σ₁ h₁ => ?_
  obtain ⟨hfree, -, rfl⟩ | hnot := h₁
  · exact .inr ⟨hfree, ⟨h.agree.bind hfree, h.noted⟩, rfl, rfl⟩
  · exact .inl hnot

theorem ingest_ends (req : KnowledgeIngestionRequest) (h : Inv config.py σ) :
    Ends answers (Binds config.py req.projectId req.knowledgeSpaceId σ) (ingest config req) σ := by
  unfold ingest
  refine Binds.first config h fun σ₁ h₁ => ?_
  split
  · exact Kept.refl h₁
  · refine (Kept.refl h₁).ask (listDocuments_only _ _ _) fun documents σ₂ h₂ => ?_
    split
    · exact h₂.ask (ofExcept_only _) fun _ σ₃ h₃ => h₃
    · exact Ends.bind (uploadNew_ends config req h₂.inv) (fun _ σ₃ h₃ => h₂.trans h₃) fun _ σ₃ h₃ =>
        h₂.trans h₃

theorem deleteDocument_ends (req : DeleteKnowledgeDocumentRequest) (h : Inv config.py σ) :
    Ends answers (Binds config.py req.projectId req.knowledgeSpaceId σ)
      (deleteDocument config req) σ := by
  unfold deleteDocument
  refine Binds.first config h fun σ₁ h₁ => (Kept.refl h₁).ask (listDocuments_only _ _ _)
    fun documents σ₂ h₂ =>
    h₂.ask (ofExcept_only _) fun ids σ₃ h₃ => ?_
  split
  · exact h₃
  · refine h₃.ask (request_only _) fun _ σ₄ h₄ => ?_
    refine answers_local.read_then (answers_local.write_ends _ ?_)
    exact ⟨⟨h₄.inv.agree, fun d x mapping hlookup =>
      h₄.inv.noted d x mapping (Maps.lookup_forget hlookup)⟩,
      h₄.same, h₄.history⟩

/-! ## Datasets -/

/-- The dataset that was found or made is bound, or the call raises and the spaces are the same. -/
theorem ensureSpace_ends (req : EnsureKnowledgeSpaceRequest) (h : Inv config.py σ) :
    Ends answers (fun r σ₁ => Inv config.py σ₁ ∧
      ((∃ space, r = .ok space ∧ σ.maps.Free req.projectId space.knowledgeSpaceId ∧
          Maps.SameSpaces (σ.maps.bind req.projectId space.knowledgeSpaceId) σ₁.maps) ∨
        (∃ e, r = .error e) ∧ Maps.SameSpaces σ.maps σ₁.maps)) (ensureSpace config req) σ := by
  unfold ensureSpace
  refine Ends.bind (asks_ends (ofExcept_only _)) (fun _ σ₁ h₁ => ?_) fun e σ₁ h₁ =>
    ⟨h.asked h₁, .inr ⟨⟨e, rfl⟩, h₁.same⟩⟩
  refine Ends.bind (asks_ends (findOrCreate_only config (fun _ => trivial) req trivial))
    (fun datasetId σ₂ h₂ => ?_) fun e σ₂ h₂ =>
    ⟨h.asked (h₁.trans h₂), .inr ⟨⟨e, rfl⟩, (h₁.trans h₂).same⟩⟩
  have hasked := h₁.trans h₂
  refine Ends.bind (answers_local.bindSpace_ends config req.projectId datasetId) (fun _ σ₃ h₃ => ?_)
    fun e σ₃ h₃ => ?_
  · obtain ⟨hfree, -, rfl⟩ | ⟨-, ⟨e, herror⟩, -⟩ := h₃
    · rw [hasked.maps] at hfree
      have hinv := h.asked hasked
      refine ⟨⟨hinv.agree.bind (hasked.maps ▸ hfree), hinv.noted⟩, .inl ⟨_, rfl, hfree, ?_⟩⟩
      rw [hasked.maps]
      exact ⟨rfl, rfl⟩
    · cases herror
  · obtain ⟨-, hok, -⟩ | ⟨-, -, rfl⟩ := h₃
    · cases hok
    · exact ⟨h.asked hasked, .inr ⟨⟨e, rfl⟩, hasked.same⟩⟩

theorem deleteOwnedSpace_ends (expectedName : String) (h : Inv config.py σ) :
    Ends answers (fun _ σ₁ => Inv config.py σ₁ ∧ (Maps.SameSpaces σ.maps σ₁.maps ∨
      σ.maps.spaceToProject.lookup datasetId = some projectId ∧
        Maps.SameSpaces (σ.maps.unbind projectId datasetId) σ₁.maps))
      (deleteOwnedSpace config projectId datasetId expectedName) σ := by
  unfold deleteOwnedSpace
  refine answers_local.read_then ?_
  refine Ends.bind (ofExcept_ends _) (fun _ σ₁ h₁ => ?_) fun e σ₁ h₁ => ?_
  · obtain ⟨hassert, rfl⟩ := h₁
    have hbound : σ₁.maps.spaceToProject.lookup datasetId = some projectId := by
      unfold assertSpaceForProject at hassert
      split at hassert
      · cases hassert
      · next heq => exact not_not.mp heq
    refine Ends.bind (asks_ends (findVisible_only config (fun _ => trivial) _ _ _ _))
      (fun actual σ₂ h₂ => ?_) fun e σ₂ h₂ =>
      ⟨h.asked h₂, .inl h₂.same⟩
    split
    · exact ⟨h.asked h₂, .inl h₂.same⟩
    · dsimp only
      split
      · exact ⟨h.asked h₂, .inl h₂.same⟩
      · refine Ends.bind (asks_ends (request_only _)) (fun _ σ₃ h₃ => ?_) fun e σ₃ h₃ =>
          ⟨h.asked (h₂.trans h₃), .inl (h₂.trans h₃).same⟩
        have hasked := h₂.trans h₃
        have hinv := h.asked hasked
        refine answers_local.read_then (answers_local.write_ends _ ?_)
        have hbound₃ : σ₃.maps.spaceToProject.lookup datasetId = some projectId :=
          hasked.maps ▸ hbound
        refine ⟨⟨hinv.agree.unbind hbound₃, hinv.noted⟩, .inr ⟨hbound, ?_⟩⟩
        rw [hasked.maps]
        exact ⟨rfl, rfl⟩
  · obtain ⟨-, rfl⟩ := h₁
    exact ⟨h, .inl ⟨rfl, rfl⟩⟩

/-! ## Retrieval -/

theorem datasetIds_ends (req : KnowledgeRetrievalRequest) (h : Inv config.py σ) :
    Ends answers (fun r σ₁ => σ₁ = σ ∧ ∀ ids, r = .ok ids →
      ∀ d ∈ ids, d ∈ σ.maps.spaces req.projectId)
      (datasetIdsForRetrieval config req) σ := by
  unfold datasetIdsForRetrieval
  refine answers_local.read_then ?_
  split
  · dsimp only
    split
    · exact ⟨rfl, fun _ hok => nomatch hok⟩
    · refine ⟨rfl, fun ids hok d hd => ?_⟩
      cases hok
      exact (Finset.mem_sort _).mp hd
  · refine Ends.bind (ofExcept_ends _) (fun units σ₁ h₁ => ?_) fun e σ₁ h₁ =>
      ⟨h₁.2, fun _ hok => nomatch hok⟩
    refine ⟨h₁.2, fun ids hok d hd => ?_⟩
    cases hok
    obtain ⟨_, _, hassert⟩ := Related.mem_left (Fallible.mapM_eq_ok.mp h₁.1.symm) hd
    unfold assertSpaceForProject at hassert
    split at hassert
    · cases hassert
    · next heq => exact (h.agree d req.projectId).mpr (not_not.mp heq)

theorem getDocument_ends (datasetId documentId : String) : Ends answers (fun r σ₁ => Asked σ σ₁ ∧
    ∀ item, r = .ok item → ∃ e ∈ σ₁.history, e.metadata config.py datasetId documentId =
      (item.lookup "meta_fields").bind Any.fields?)
        (getDocument config datasetId documentId) σ := by
  unfold getDocument listDocuments
  have hlist (id : Option String) : Ends answers (fun r σ₁ => Asked σ σ₁ ∧
    ∀ items, r = .ok items → ∃ data,
      ⟨.listDocuments datasetId id none, .ok data⟩ ∈ σ₁.history ∧ documentList data = .ok items)
      ((request (.listDocuments datasetId id none)).bind fun data =>
        ofExcept (documentList data)) σ := by
    refine Ends.bind (request_ends _) (fun data σ₁ h₁ => ?_) fun e σ₁ h₁ =>
      ⟨h₁.1, fun _ hok => nomatch hok⟩
    refine (ofExcept_ends _).mono fun r σ₂ h₂ => ?_
    obtain ⟨hr, rfl⟩ := h₂
    exact ⟨h₁.1, fun items hok => ⟨data, h₁.2, hr.symm.trans hok⟩⟩
  refine Ends.bind (hlist _) (fun items σ₁ h₁ => ?_) fun e σ₁ h₁ => ⟨h₁.1, fun _ hok => nomatch hok⟩
  split
  · next item hitem =>
    refine ⟨h₁.1, fun item' hok => ?_⟩
    cases hok
    obtain ⟨data, hmem, hdata⟩ := h₁.2 items rfl
    refine ⟨_, hmem, ?_⟩
    unfold Exchange.metadata
    dsimp only
    rw [if_pos rfl, hdata]
    dsimp only
    rw [hitem]
    rfl
  · exact ⟨h₁.1, fun _ hok => nomatch hok⟩

/-- A document's mapping is what the provider has said of it. -/
theorem resolve_ends (datasetId documentId : String) (h : Inv config.py σ) :
    Ends answers (fun r σ₁ => Kept config.py σ σ₁ ∧
    ∀ mapping, r = .ok (some mapping) →
      σ₁.Named config.py datasetId documentId mapping.projectId mapping.documentVersionId)
      (resolveDocumentMapping config datasetId documentId) σ := by
  unfold resolveDocumentMapping
  refine answers_local.read_then ?_
  split
  · next cached hcached =>
    refine ⟨.refl h, fun mapping hok => ?_⟩
    cases hok
    exact h.noted _ _ _ hcached
  · refine Ends.bind (getDocument_ends config datasetId documentId) (fun item σ₁ h₁ => ?_)
      fun e σ₁ h₁ =>
      ⟨(Kept.refl h).asked h₁.1, fun _ hok => nomatch hok⟩
    have hkept := (Kept.refl h).asked h₁.1
    split
    · next mapping hmapping =>
      have hnamed : σ₁.Named config.py datasetId documentId mapping.projectId
          mapping.documentVersionId := by
        obtain ⟨e, he, hmetadata⟩ := h₁.2 item rfl
        unfold mappingFromDocument at hmapping
        split at hmapping
        · next metadata hfields =>
          rw [hfields] at hmetadata
          exact ⟨e, he, metadata, hmetadata, names_of_mapping hmapping⟩
        · cases hmapping
      refine answers_local.read_then
        (answers_local.write_then _ ⟨⟨hkept.inv.note hnamed, hkept.same, hkept.history⟩,
        fun mapping' hok => ?_⟩)
      cases hok
      exact hnamed
    · exact ⟨hkept, fun _ hok => nomatch hok⟩

/-- A chunk of the provider's answer to a retrieval. -/
def Session.Retrieved (σ : Session) (req : KnowledgeRetrievalRequest) (raw : Fields) : Prop :=
  ∃ datasetIds data items, ⟨.retrieval req.query datasetIds (pageSize req.limit) req.projectId,
    .ok data⟩ ∈ σ.history ∧
    rawChunks data = .ok items ∧ Any.dict raw ∈ items

/-- The chunk is that of the answer, its dataset is bound to the project, and its document was named
for it. -/
structure Isolated (py : Python) (σ : Session) (req : KnowledgeRetrievalRequest) (raw : Fields)
    (chunk : KnowledgeChunk) : Prop where
  retrieved : σ.Retrieved req raw
  content : contentOf raw = some chunk.content
  space : chunk.knowledgeSpaceId = some (fieldText py raw "dataset_id")
  bound : fieldText py raw "dataset_id" ∈ σ.maps.spaces req.projectId
  named : σ.Named py (fieldText py raw "dataset_id")
    (fieldText py raw "document_id") req.projectId chunk.documentVersionId
  requested : req.documentVersionIds ≠ [] → chunk.documentVersionId ∈ req.documentVersionIds

variable {req : KnowledgeRetrievalRequest}

theorem Session.Retrieved.mono {raw : Fields} (h : σ.Retrieved req raw)
    (hh : σ.history ⊆ σ₁.history) : σ₁.Retrieved req raw := by
  obtain ⟨datasetIds, data, items, hmem, hitems⟩ := h
  exact ⟨datasetIds, data, items, hh hmem, hitems⟩

theorem Isolated.mono {raw : Fields} {chunk : KnowledgeChunk} (h : Isolated py σ req raw chunk)
    (hkept : Kept py σ σ₁) :
    Isolated py σ₁ req raw chunk := by
  refine ⟨h.retrieved.mono hkept.history, h.content, h.space, ?_, h.named.mono hkept.history,
    h.requested⟩
  unfold Maps.spaces
  rw [hkept.same.2]
  exact h.bound

theorem chunkOfMapping_some {raw : Fields} {mapping : DocumentMapping} {chunk : KnowledgeChunk}
    (h : chunkOfMapping config req raw datasetId mapping = .ok (some chunk)) :
    mapping.projectId = req.projectId ∧ contentOf raw = some chunk.content ∧
      chunk.knowledgeSpaceId = some datasetId ∧
      chunk.documentVersionId = mapping.documentVersionId ∧
      (req.documentVersionIds ≠ [] → mapping.documentVersionId ∈ req.documentVersionIds) := by
  unfold chunkOfMapping at h
  split at h
  · cases h
  · next hproject =>
    split at h
    · cases h
    · next hversions =>
      split at h
      · cases h
      · next content hcontent =>
        cases hscore : scoreOf config (raw.lookup "similarity") with
        | error e =>
          rw [hscore] at h
          cases h
        | ok score =>
          rw [hscore] at h
          cases h
          refine ⟨not_not.mp hproject, hcontent, rfl, rfl, fun hne => ?_⟩
          by_contra hnot
          exact hversions ⟨fun hempty => hne (List.isEmpty_iff.mp hempty), hnot⟩

theorem chunkOf_ends (raw : Any) {datasetIds : List String} (h : Inv config.py σ)
    (hbound : ∀ d ∈ datasetIds, d ∈ σ.maps.spaces req.projectId)
    (hraw : ∀ fields, raw = .dict fields → σ.Retrieved req fields) :
    Ends answers (fun r σ₁ => Kept config.py σ σ₁ ∧ ∀ chunk, r = .ok (some chunk) →
      ∃ fields, Isolated config.py σ₁ req fields chunk) (chunkOf config req datasetIds raw) σ := by
  unfold chunkOf
  split
  · next fields =>
    dsimp only
    split
    · exact ⟨.refl h, fun _ hok => nomatch hok⟩
    · next hin =>
      obtain ⟨hdataset, -⟩ := not_or.mp hin
      refine Ends.bind (resolve_ends config _ _ h) (fun mapping σ₁ h₁ => ?_) fun e σ₁ h₁ =>
        ⟨h₁.1, fun _ hok => nomatch hok⟩
      cases mapping with
      | none => exact ⟨h₁.1, fun _ hok => (by cases hok)⟩
      | some mapping =>
      refine (ofExcept_ends _).mono fun r σ₂ h₂ => ?_
      obtain ⟨rfl, rfl⟩ := h₂
      refine ⟨h₁.1, fun chunk hchunk => ?_⟩
      obtain ⟨hproject, hcontent, hspace, hversion, hrequested⟩ := chunkOfMapping_some config hchunk
      have hnamed := h₁.2 mapping rfl
      rw [hproject, ← hversion] at hnamed
      refine ⟨fields, (hraw fields rfl).mono h₁.1.history, hcontent, hspace, ?_, hnamed,
        hversion ▸ hrequested⟩
      unfold Maps.spaces
      rw [h₁.1.same.2]
      exact hbound _ (not_not.mp hdataset)
  · exact ⟨.refl h, fun _ hok => nomatch hok⟩

/-- The chunks gathered so far stay isolated, and so is each that is added. -/
theorem collect_ends {datasetIds : List String} (items : List Any) (result : List KnowledgeChunk)
    (h : Inv config.py σ) (hbound : ∀ d ∈ datasetIds, d ∈ σ.maps.spaces req.projectId)
    (hraw : ∀ fields, Any.dict fields ∈ items → σ.Retrieved req fields)
    (hresult : ∀ chunk ∈ result, ∃ fields, Isolated config.py σ req fields chunk) :
    Ends answers (fun r σ₁ => Kept config.py σ σ₁ ∧ ∀ chunks, r = .ok chunks → ∀ chunk ∈ chunks,
      ∃ fields, Isolated config.py σ₁ req fields chunk)
        (collectChunks config req datasetIds items result) σ := by
  induction items generalizing result σ with
  | nil =>
    refine ⟨.refl h, fun chunks hok => ?_⟩
    cases hok
    exact hresult
  | cons raw rest ih =>
    unfold collectChunks
    refine Ends.bind (chunkOf_ends config raw h hbound fun fields heq =>
      hraw fields (heq ▸ List.mem_cons_self))
      (fun chunk σ₁ h₁ => ?_) fun e σ₁ h₁ => ⟨h₁.1, fun _ hok => nomatch hok⟩
    obtain ⟨hkept, hchunk⟩ := h₁
    have hbound₁ : ∀ d ∈ datasetIds, d ∈ σ₁.maps.spaces req.projectId := by
      unfold Maps.spaces
      rw [hkept.same.2]
      exact hbound
    have hraw₁ : ∀ fields, Any.dict fields ∈ rest → σ₁.Retrieved req fields := fun fields hfields =>
      (hraw fields (List.mem_cons_of_mem _ hfields)).mono hkept.history
    have hresult₁ : ∀ chunk ∈ result, ∃ fields, Isolated config.py σ₁ req fields chunk := by
      intro chunk hmem
      obtain ⟨fields, hisolated⟩ := hresult chunk hmem
      exact ⟨fields, hisolated.mono hkept⟩
    split
    · exact (ih result hkept.inv hbound₁ hraw₁ hresult₁).mono fun r σ₂ h₂ =>
        ⟨hkept.trans h₂.1, h₂.2⟩
    · next chunk =>
      have hadded : ∀ c ∈ result ++ [chunk], ∃ fields, Isolated config.py σ₁ req fields c := by
        intro c hc
        rcases List.mem_append.mp hc with hc | hc
        · exact hresult₁ c hc
        · obtain rfl := List.mem_singleton.mp hc
          exact hchunk c rfl
      split
      · refine ⟨hkept, fun chunks hok => ?_⟩
        cases hok
        exact hadded
      · exact (ih _ hkept.inv hbound₁ hraw₁ hadded).mono fun r σ₂ h₂ => ⟨hkept.trans h₂.1, h₂.2⟩

theorem retrieve_ends (req : KnowledgeRetrievalRequest) (h : Inv config.py σ) :
    Ends answers (fun r σ₁ =>
    Kept config.py σ σ₁ ∧ ∀ chunks, r = .ok chunks → ∀ chunk ∈ chunks, ∃ fields,
      Isolated config.py σ₁ req fields chunk)
      (retrieve config req) σ := by
  unfold retrieve
  refine Ends.bind (datasetIds_ends config req h) (fun datasetIds σ₁ h₁ => ?_) fun e σ₁ h₁ => ?_
  · obtain ⟨rfl, hbound⟩ := h₁
    have hbound := hbound datasetIds rfl
    refine Ends.bind (request_ends _) (fun data σ₂ h₂ => ?_) fun e σ₂ h₂ =>
      ⟨(Kept.refl h).asked h₂.1, fun _ hok => nomatch hok⟩
    have hkept := (Kept.refl h).asked h₂.1
    refine Ends.bind (ofExcept_ends _) (fun items σ₃ h₃ => ?_) fun e σ₃ h₃ => ?_
    · obtain ⟨hitems, rfl⟩ := h₃
      have hbound₂ : ∀ d ∈ datasetIds, d ∈ σ₃.maps.spaces req.projectId := by
        rw [h₂.1.maps]
        exact hbound
      refine (collect_ends config items [] hkept.inv hbound₂ (fun fields hfields =>
        ⟨datasetIds, data, items, h₂.2, hitems.symm, hfields⟩) fun chunk hmem => nomatch hmem).mono
          fun r σ₄ h₄ =>
        ⟨hkept.trans h₄.1, h₄.2⟩
    · obtain ⟨-, rfl⟩ := h₃
      exact ⟨hkept, fun _ hok => nomatch hok⟩
  · obtain ⟨rfl, -⟩ := h₁
    exact ⟨.refl h, fun _ hok => nomatch hok⟩

/-! ## Sequences of calls -/

/-- A call on another project's dataset raises and does nothing, and no other call binds a dataset
again. -/
def Respects (σ : Session) : (call : AdapterCall) → Except RagflowError call.Result → Session → Prop
  | .bindAuthorizedSpace projectId datasetId, r, σ' => NotRebound projectId datasetId r σ'
  | .ingest req, r, σ' => NotRebound req.projectId req.knowledgeSpaceId r σ'
  | .deleteDocument req, r, σ' => NotRebound req.projectId req.knowledgeSpaceId r σ'
  | .ensureSpace req, r, σ' =>
    (∃ space, r = .ok space ∧ σ.maps.Free req.projectId space.knowledgeSpaceId ∧
      Maps.SameSpaces (σ.maps.bind req.projectId space.knowledgeSpaceId) σ'.maps) ∨
    (∃ e, r = .error e) ∧ Maps.SameSpaces σ.maps σ'.maps
  | .deleteOwnedSpace projectId datasetId _, _, σ' =>
    Maps.SameSpaces σ.maps σ'.maps ∨ σ.maps.spaceToProject.lookup datasetId = some projectId ∧
      Maps.SameSpaces (σ.maps.unbind projectId datasetId) σ'.maps
  | .retrieve _, _, σ' => Maps.SameSpaces σ.maps σ'.maps
where
  NotRebound (projectId datasetId : String) {α : Type} (r : Except RagflowError α)
    (σ' : Session) : Prop :=
    (¬ σ.maps.Free projectId datasetId ∧ (∃ e, r = .error e) ∧ σ' = σ) ∨
      (σ.maps.Free projectId datasetId ∧ Maps.SameSpaces (σ.maps.bind projectId datasetId) σ'.maps)

theorem Binds.notRebound {α : Type} {r : Except RagflowError α}
    (h : Binds py projectId datasetId σ r σ₁) :
    Inv py σ → Inv py σ₁ ∧ Respects.NotRebound σ projectId datasetId r σ₁ := by
  intro hinv
  obtain ⟨hnot, herror, rfl⟩ | ⟨hfree, hinv₁, hsame⟩ := h
  · exact ⟨hinv, .inl ⟨hnot, herror, rfl⟩⟩
  · exact ⟨hinv₁, .inr ⟨hfree, hsame⟩⟩

theorem call_ends (call : AdapterCall) (h : Inv config.py σ) :
    Ends answers (fun r σ₁ => Inv config.py σ₁ ∧ Respects σ call r σ₁) (call.prog config) σ := by
  cases call with
  | bindAuthorizedSpace p d =>
    exact (bindAuthorizedSpace_ends config h).mono fun _ _ hbinds => hbinds.notRebound h
  | ingest req => exact (ingest_ends config req h).mono fun _ _ hbinds => hbinds.notRebound h
  | deleteDocument req =>
    exact (deleteDocument_ends config req h).mono fun _ _ hbinds => hbinds.notRebound h
  | ensureSpace req => exact ensureSpace_ends config req h
  | deleteOwnedSpace p d name => exact deleteOwnedSpace_ends config name h
  | retrieve req =>
    exact (retrieve_ends config req h).mono fun _ _ hkept => ⟨hkept.1.inv, hkept.1.same⟩

theorem inv_calls {calls : List AdapterCall} (hr : Calls (Called config) calls .initial σ) :
    Inv config.py σ :=
  hr.invariant (fun call _ _ hcalled h => by
    obtain ⟨r, hruns⟩ := hcalled
    exact ((call_ends config call h).of_runs hruns).1) .initial

/--
**Bindings are isolated over every sequence of calls, whatever the provider answers.** A dataset is
listed for a project exactly if it is bound to it, so for one project at most; what is retrieved is
of a dataset bound to the project and of a document that the provider once gave, or took, metadata
of naming the project and the chunk's version, one of those requested; and a call on another
project's dataset raises and binds nothing.
-/
theorem bindings_isolated (calls : List AdapterCall) (σ : Session)
    (hr : Calls (Called config) calls .initial σ) :
    (∀ d p, d ∈ σ.maps.spaceIdsForProject p ↔ σ.maps.spaceToProject.lookup d = some p) ∧
    (∀ d p q, d ∈ σ.maps.spaceIdsForProject p → d ∈ σ.maps.spaceIdsForProject q → p = q) ∧
    (∀ req chunks σ', Runs answers (retrieve config req) σ (.ok chunks) σ' →
      ∀ chunk ∈ chunks, ∃ raw, Isolated config.py σ' req raw chunk) ∧
    ∀ call r σ', Runs answers (call.prog config) σ r σ' → Respects σ call r σ' := by
  have hinv := inv_calls config hr
  have hlisted (d p : String) : d ∈ σ.maps.spaceIdsForProject p ↔
      σ.maps.spaceToProject.lookup d = some p :=
    (Finset.mem_sort _).trans (hinv.agree d p)
  refine ⟨hlisted, fun d p q hp hq => ?_, fun req chunks σ' hruns => ?_, fun call r σ' hruns => ?_⟩
  · have hsame := ((hlisted d p).mp hp).symm.trans ((hlisted d q).mp hq)
    exact Option.some.inj hsame
  · exact ((retrieve_ends config req hinv).of_runs hruns).2 chunks rfl
  · exact ((call_ends config call hinv).of_runs hruns).2

/-! ## A document that is renamed -/

/-- The call, with these answers to its requests. -/
def play {α : Type} : Call α → Session → List Any → Option (Except RagflowError α × Session)
  | .ret a, σ, _ => some (.ok a, σ)
  | .raise e, σ, _ => some (.error e, σ)
  | .stmt (.request r) k, σ, data :: rest =>
    play (k (.ok data)) { σ with history := σ.history ++ [⟨r, .ok data⟩] } rest
  | .stmt (.request _) _, _, [] => none
  | .stmt (.load _) k, σ, rest => play (k (.ok ⟨[], ""⟩)) σ rest
  | .stmt .read k, σ, rest => play (k (.ok σ.maps)) σ rest
  | .stmt (.write maps) k, σ, rest => play (k (.ok ())) { σ with maps := maps } rest

theorem play_runs {α : Type} {p : Call α} {data : List Any} {r : Except RagflowError α}
    (h : play p σ data = some (r, σ₁)) : Runs answers p σ r σ₁ := by
  induction p generalizing σ data with
  | ret a | raise e =>
    unfold play at h
    cases h
    exact ⟨rfl, rfl⟩
  | stmt s k ih =>
    cases s with
    | request req =>
      cases data with
      | nil => cases h
      | cons value rest => exact ⟨.ok value, _, rfl, ih _ h⟩
    | load key => exact ⟨.ok ⟨[], ""⟩, σ, rfl, ih _ h⟩
    | read => exact ⟨.ok σ.maps, σ, ⟨rfl, rfl⟩, ih _ h⟩
    | write maps => exact ⟨.ok (), _, ⟨rfl, rfl⟩, ih _ h⟩

namespace Sample

def query : KnowledgeRetrievalRequest where
  projectId := "P-1"
  query := "When are accounts locked?"
  limit := 10
  documentVersionIds := []
  knowledgeSpaceIds := ["dataset-1"]

def raw : Fields :=
  [("id", .str "chunk-1"), ("dataset_id", .str "dataset-1"), ("document_id", .str "document-1"),
    ("content", .str "text")]

def retrieved : Any := .dict [("chunks", .list [.dict raw])]

def metadata (project : String) : Fields :=
  [(projectMetadataField, .str project), (documentVersionMetadataField, .str "version-1")]

/-- The document, as the provider lists it. -/
def listed (project : String) : Any :=
  .dict [("docs", .list [.dict [("id", .str "document-1"),
    ("meta_fields", .dict (metadata project))]])]

def chunk : KnowledgeChunk where
  projectId := "P-1"
  documentVersionId := "version-1"
  content := "text"
  score := .finite 0
  knowledgeSpaceId := some "dataset-1"
  providerRef := some "chunk-1"
  pageNo := none
  section_ := none
  metadata := ∅

def calls : List AdapterCall :=
  [.bindAuthorizedSpace "P-1" "dataset-1", .retrieve query,
    .deleteDocument ⟨"P-1", "version-2", "dataset-1"⟩]

def exchanges : List Exchange :=
  [⟨.retrieval query.query ["dataset-1"] 20 "P-1", .ok retrieved⟩,
    ⟨.listDocuments "dataset-1" (some "document-1") none, .ok (listed "P-1")⟩,
    ⟨.listDocuments "dataset-1" none (some ("P-1", "version-2")), .ok (listed "P-2")⟩]

def bound : Maps := Maps.empty.bind "P-1" "dataset-1"

def noted : Maps := bound.noteDocument "dataset-1" "document-1" ⟨"P-1", "version-1", ∅⟩

theorem play_bind :
    play (bindAuthorizedSpace configuration "P-1" "dataset-1") .initial [] =
      some (.ok (), ⟨bound, []⟩) := by
  rfl

theorem play_retrieve : play (retrieve configuration query) ⟨bound, []⟩ [retrieved, listed "P-1"] =
    some (.ok [chunk], ⟨noted, exchanges.take 2⟩) := by
  rfl

theorem play_delete :
    play (deleteDocument configuration ⟨"P-1", "version-2", "dataset-1"⟩) ⟨noted, exchanges.take 2⟩
      [listed "P-2"] =
    some (.ok (), ⟨noted.bind "P-1" "dataset-1", exchanges⟩) := by
  rfl

theorem play_again :
    play (retrieve configuration query) ⟨noted.bind "P-1" "dataset-1", exchanges⟩ [retrieved] =
    some (.ok [chunk], ⟨noted.bind "P-1" "dataset-1",
      exchanges ++ [⟨.retrieval query.query ["dataset-1"] 20 "P-1", .ok retrieved⟩]⟩) := by
  rfl

theorem calls_run :
    Calls (Called configuration) calls .initial ⟨noted.bind "P-1" "dataset-1", exchanges⟩ :=
  ⟨_, ⟨_, play_runs play_bind⟩, _, ⟨_, play_runs play_retrieve⟩, _, ⟨_, play_runs play_delete⟩, rfl⟩

end Sample

open Sample in
/-- The chunk of the second retrieval. -/
theorem bindings_isolated_sample : ∃ raw, Isolated configuration.py ⟨noted.bind "P-1" "dataset-1",
    exchanges ++ [⟨.retrieval query.query ["dataset-1"] 20 "P-1", .ok retrieved⟩]⟩ query
      raw chunk :=
  (bindings_isolated configuration calls _ calls_run).2.2.1 query [chunk] _
    (play_runs play_again) chunk List.mem_cons_self

open Sample in
/--
What is noted of a document is not asked again: after the provider has listed the document as
another project's, in its last answer about it, its chunk is still retrieved for the first.
-/
theorem renamed_document_retrieved :
    ∃ σ σ' metadata, Calls (Called configuration) calls .initial σ ∧
    Runs answers (retrieve configuration query) σ (.ok [chunk]) σ' ∧ σ'.Retrieved query raw ∧
    contentOf raw = some chunk.content ∧
    σ'.latest configuration.py (fieldText configuration.py raw "dataset_id")
      (fieldText configuration.py raw "document_id") =
      some metadata ∧ Names metadata "P-2" "version-1" ∧ query.projectId = "P-1" :=
  ⟨_, _, Sample.metadata "P-2", calls_run, play_runs play_again,
    ⟨["dataset-1"], retrieved, [.dict raw], List.mem_cons_self, rfl, List.mem_cons_self⟩, rfl, rfl,
      ⟨rfl, rfl⟩, rfl⟩

end ProjectAgent.Ragflow
