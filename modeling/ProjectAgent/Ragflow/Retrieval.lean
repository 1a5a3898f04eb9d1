/-
What `retrieve` returns, against a provider that gives one answer to each
request. The adapter asks for one page of the ranking and reads it from the
start: a chunk whose document has no metadata is left out, but one whose
document the provider does not list ends the retrieval.
-/
import ProjectAgent.Lib.Evaluated
import ProjectAgent.Lib.Fallible
import ProjectAgent.Ragflow.Isolation

namespace ProjectAgent.Ragflow

open Double (double)
open Evidence (KnowledgeChunk KnowledgeRetrievalRequest)
open Interleave

/-- What the provider answers to each request, and what the object store has. -/
structure Backend where
  answer : Request → Except RagflowError Any
  object : String → Except RagflowError StoredObject

def Backend.perform (backend : Backend) : (s : Stmt) → Maps → Except RagflowError s.Answer × Maps
  | .request r, maps => (backend.answer r, maps)
  | .load objectKey, maps => (backend.object objectKey, maps)
  | .read, maps => (.ok maps, maps)
  | .write maps', _ => (.ok (), maps')

variable (config : Config) (backend : Backend) {maps maps' : Maps} {req : KnowledgeRetrievalRequest}
  {datasetIds : List String} {datasetId documentId : String}

/-! ## Chunks that can be mapped -/

/-- The document as the provider lists it. -/
def listedDocument (datasetId documentId : String) : Option Fields :=
  match (backend.answer (.listDocuments datasetId (some documentId) none)).bind documentList with
  | .ok documents => documents.find? fun item => fieldText config.py item "id" = documentId
  | .error _ => none

/-- The mapping the adapter has, or the one of the document's metadata. -/
def documentMapping (maps : Maps) (datasetId documentId : String) : Option DocumentMapping :=
  match maps.documentMappings.lookup (datasetId, documentId) with
  | some cached => some cached
  | none =>
    (listedDocument config backend datasetId documentId).bind (mappingFromDocument config.py)

/-- The raw chunk is of a searched dataset and names a document, which is of the project and of a
requested version. -/
def InScope (req : KnowledgeRetrievalRequest) (datasetIds : List String) (raw : Fields)
    (mapping : DocumentMapping) : Prop :=
  fieldText config.py raw "dataset_id" ∈ datasetIds ∧ fieldText config.py raw "document_id" ≠ "" ∧
    mapping.projectId = req.projectId ∧
    (req.documentVersionIds = [] ∨ mapping.documentVersionId ∈ req.documentVersionIds)

instance (req : KnowledgeRetrievalRequest) (datasetIds : List String) (raw : Fields)
    (mapping : DocumentMapping) : Decidable (InScope config req datasetIds raw mapping) :=
  inferInstanceAs (Decidable (_ ∧ _))

/-- The chunk of a raw one that has a text, whose document can be mapped, and that is in scope. A
similarity that `float` does not take has no score; here it counts as zero. -/
def mappedChunk (maps : Maps) (req : KnowledgeRetrievalRequest) (datasetIds : List String) :
    Any → Option KnowledgeChunk
  | .dict raw =>
    let datasetId := fieldText config.py raw "dataset_id"
    match documentMapping config backend maps datasetId (fieldText config.py raw "document_id"),
      contentOf raw with
    | some mapping, some content =>
      if InScope config req datasetIds raw mapping then
        some (chunkWith config req raw datasetId mapping content
          ((scoreOf config (raw.lookup "similarity")).toOption.getD (.finite 0)))
      else none
    | _, _ => none
  | _ => none

/-- An integer that is rounded to none of the floats. -/
def TooLarge (value : Option Any) : Prop := ∃ i : Int, value = some (.int i) ∧ 2 ^ 1024 ≤ |double i|

/-- The chunk is to be returned, and its similarity is an integer that `float` does not take. -/
def Unscored (maps : Maps) (req : KnowledgeRetrievalRequest) (datasetIds : List String) : Any → Prop
  | .dict raw =>
    mappedChunk config backend maps req datasetIds (.dict raw) ≠ none ∧
      TooLarge (raw.lookup "similarity")
  | _ => False

/-- The adapter has no mapping of the document, and the provider does not list it. -/
def Missing (maps : Maps) (datasetId documentId : String) : Prop :=
  maps.documentMappings.lookup (datasetId, documentId) = none ∧
    listedDocument config backend datasetId documentId = none

/-- The raw chunk is of a dataset of the retrieval, and its document is missing. -/
def LostChunk (maps : Maps) (datasetIds : List String) : Any → Prop
  | .dict raw =>
    let datasetId := fieldText config.py raw "dataset_id"
    let documentId := fieldText config.py raw "document_id"
    datasetId ∈ datasetIds ∧ documentId ≠ "" ∧ Missing config backend maps datasetId documentId
  | _ => False

/-- The datasets that a request searches. -/
def searchedDatasets (maps : Maps) (req : KnowledgeRetrievalRequest) :
    Except RagflowError (List String) :=
  if req.knowledgeSpaceIds.isEmpty then
    if (maps.spaceIdsForProject req.projectId).isEmpty then
      .error (.configuration ("no RAGFlow dataset is bound to project " ++
        quoted config.py req.projectId))
    else .ok (maps.spaceIdsForProject req.projectId)
  else (req.knowledgeSpaceIds.mapM fun datasetId =>
    assertSpaceForProject config maps req.projectId datasetId).map
    fun _ => req.knowledgeSpaceIds

/-! ## Evaluation -/

theorem read_then {α : Type} {f : Maps → Call α} :
    ((Prog.exec Stmt.read).bind f).eval backend.perform maps = (f maps).eval backend.perform maps :=
  Prog.eval_bind_ok (Prog.eval_exec Stmt.read)

theorem write_then {α : Type} {f : Unit → Call α} :
    ((Prog.exec (Stmt.write maps')).bind f).eval backend.perform maps =
      (f ()).eval backend.perform maps' :=
  Prog.eval_bind_ok (Prog.eval_exec (Stmt.write maps'))

theorem eval_ofExcept {α : Type} (x : Except RagflowError α) :
    (ofExcept x).eval backend.perform maps = (x, maps) := by
  cases x <;> rfl

theorem eval_listDocuments (maps : Maps) (datasetId : String) (id : Option String)
    (condition : Option (String × String)) :
    (listDocuments datasetId id condition).eval backend.perform maps =
      ((backend.answer (.listDocuments datasetId id condition)).bind documentList, maps) := by
  unfold listDocuments
  have hrequest : (request (.listDocuments datasetId id condition)).eval backend.perform maps =
      (backend.answer (.listDocuments datasetId id condition), maps) := Prog.eval_exec _
  cases hanswer : backend.answer (.listDocuments datasetId id condition) with
  | error e =>
    rw [hanswer] at hrequest
    exact Prog.eval_bind_error hrequest
  | ok data =>
    rw [hanswer] at hrequest
    exact (Prog.eval_bind_ok hrequest).trans (eval_ofExcept backend _)

theorem eval_datasetIds (maps : Maps) (req : KnowledgeRetrievalRequest) :
    (datasetIdsForRetrieval config req).eval backend.perform maps =
      (searchedDatasets config maps req, maps) := by
  unfold datasetIdsForRetrieval searchedDatasets
  refine (read_then backend).trans ?_
  split
  · dsimp only
    by_cases hnone : (maps.spaceIdsForProject req.projectId).isEmpty = true
    · rw [if_pos hnone, if_pos hnone]
      rfl
    · rw [if_neg hnone, if_neg hnone]
      rfl
  · cases h : req.knowledgeSpaceIds.mapM fun datasetId =>
      assertSpaceForProject config maps req.projectId datasetId with
    | error e =>
      have hfailed : (ofExcept (.error e)).eval backend.perform maps = (.error e, maps) :=
        eval_ofExcept (α := List Unit) backend _
      exact Prog.eval_bind_error hfailed
    | ok done =>
      have hpassed : (ofExcept (.ok done)).eval backend.perform maps = (.ok done, maps) :=
        eval_ofExcept backend _
      exact Prog.eval_bind_ok hpassed

/-! ## Documents -/

/-- The adapter has noted mappings of listed documents. -/
structure Learned (maps maps' : Maps) : Prop where
  mapping : ∀ datasetId documentId,
    documentMapping config backend maps' datasetId documentId =
      documentMapping config backend maps datasetId documentId
  missing : ∀ datasetId documentId, Missing config backend maps' datasetId documentId ↔
    Missing config backend maps datasetId documentId

theorem Learned.refl : Learned config backend maps maps := ⟨fun _ _ => rfl, fun _ _ => .rfl⟩

theorem Learned.note {document : Fields} {mapping : DocumentMapping}
    (hcached : maps.documentMappings.lookup (datasetId, documentId) = none)
    (hlisted : listedDocument config backend datasetId documentId = some document)
    (hmapping : mappingFromDocument config.py document = some mapping) :
    Learned config backend maps (maps.noteDocument datasetId documentId mapping) := by
  have hother {d id : String} (hne : (d, id) ≠ (datasetId, documentId)) :
      (maps.noteDocument datasetId documentId mapping).documentMappings.lookup (d, id) =
        maps.documentMappings.lookup (d, id) :=
    Finmap.lookup_insert_of_ne _ hne
  have hown : (maps.noteDocument datasetId documentId mapping).documentMappings.lookup (datasetId,
      documentId) = some mapping :=
    Finmap.lookup_insert _
  constructor
  · intro d id
    unfold documentMapping
    by_cases heq : (d, id) = (datasetId, documentId)
    · obtain ⟨rfl, rfl⟩ := Prod.mk.inj heq
      rw [hown, hcached]
      show some mapping = (listedDocument config backend d id).bind (mappingFromDocument config.py)
      rw [hlisted]
      exact hmapping.symm
    · rw [hother heq]
  · intro d id
    unfold Missing
    by_cases heq : (d, id) = (datasetId, documentId)
    · obtain ⟨rfl, rfl⟩ := Prod.mk.inj heq
      rw [hlisted]
      exact iff_of_false (fun h => nomatch h.2) fun h => nomatch h.2
    · rw [hother heq]

/-- The document that is listed, or what is raised instead. -/
def fetchedDocument (datasetId documentId : String) : Except RagflowError Fields :=
  match (backend.answer (.listDocuments datasetId (some documentId) none)).bind documentList with
  | .ok documents =>
    match documents.find? fun item => fieldText config.py item "id" = documentId with
    | some item => .ok item
    | none =>
      .error (.protocol ("RAGFlow document " ++ quoted config.py documentId ++
        " was not returned by dataset " ++
        quoted config.py datasetId))
  | .error e => .error e

theorem listedDocument_eq (datasetId documentId : String) :
    listedDocument config backend datasetId documentId =
    (fetchedDocument config backend datasetId documentId).toOption := by
  unfold listedDocument fetchedDocument
  split
  · next documents _ =>
      cases documents.find? fun item => fieldText config.py item "id" = documentId <;> rfl
  · rfl

theorem eval_getDocument (maps : Maps) (datasetId : String) (hid : documentId ≠ "") :
    (getDocument config datasetId documentId).eval backend.perform maps =
    (fetchedDocument config backend datasetId documentId, maps) := by
  have hlist := eval_listDocuments backend maps datasetId (some documentId) none
  unfold getDocument fetchedDocument
  rw [if_neg hid]
  cases hdocuments : (backend.answer (.listDocuments datasetId (some documentId) none)).bind
    documentList with
  | error e =>
    rw [hdocuments] at hlist
    exact Prog.eval_bind_error hlist
  | ok documents =>
    rw [hdocuments] at hlist
    refine (Prog.eval_bind_ok hlist).trans ?_
    dsimp only
    cases documents.find? fun item => fieldText config.py item "id" = documentId <;> rfl

/-- A missing document ends the lookup; of any other there is a mapping or none. -/
theorem eval_resolve (maps : Maps) (datasetId : String) (hid : documentId ≠ "") :
    (Missing config backend maps datasetId documentId ∧
      ∃ e, (resolveDocumentMapping config datasetId documentId).eval backend.perform maps =
        (.error e, maps)) ∨
    (¬ Missing config backend maps datasetId documentId ∧
      ∃ maps', Learned config backend maps maps' ∧
      (resolveDocumentMapping config datasetId documentId).eval backend.perform maps =
        (.ok (documentMapping config backend maps datasetId documentId), maps')) := by
  have hread : (resolveDocumentMapping config datasetId documentId).eval backend.perform maps =
      Prog.eval backend.perform _ maps := read_then backend
  cases hcached : maps.documentMappings.lookup (datasetId, documentId) with
  | some cached =>
    rw [hcached] at hread
    refine .inr ⟨(fun hmissing => nomatch hcached.symm.trans hmissing.1), maps,
      Learned.refl config backend, hread.trans ?_⟩
    unfold documentMapping
    rw [hcached]
    rfl
  | none =>
    rw [hcached] at hread
    have hget := eval_getDocument config backend maps datasetId hid
    have hlisted := listedDocument_eq config backend datasetId documentId
    cases hfetched : fetchedDocument config backend datasetId documentId with
    | error e =>
      rw [hfetched] at hget hlisted
      exact .inl ⟨⟨hcached, hlisted⟩, e, hread.trans (Prog.eval_bind_error hget)⟩
    | ok document =>
      rw [hfetched] at hget hlisted
      have hmapping : documentMapping config backend maps datasetId documentId =
          mappingFromDocument config.py document := by
        unfold documentMapping
        rw [hcached, hlisted]
        rfl
      refine .inr ⟨(fun hmissing => nomatch hlisted.symm.trans hmissing.2), ?_⟩
      have hgot := hread.trans (Prog.eval_bind_ok hget)
      cases hnamed : mappingFromDocument config.py document with
      | none =>
        rw [hnamed] at hmapping
        rw [hnamed] at hgot
        exact ⟨maps, Learned.refl config backend, hgot.trans (by rw [hmapping]; rfl)⟩
      | some mapping =>
        rw [hnamed] at hmapping
        rw [hnamed] at hgot
        refine ⟨_, Learned.note config backend hcached hlisted hnamed, hgot.trans ?_⟩
        rw [hmapping]
        exact (read_then backend).trans (write_then backend)

/-! ## The loop -/

/-- No chunk is lost or cannot be scored as long as there are fewer than so many before it. -/
def Clear (maps : Maps) (req : KnowledgeRetrievalRequest) (datasetIds : List String)
    (raws : List Any) (count : Nat) : Prop :=
  ∀ pre raw post, raws = pre ++ raw :: post →
    (pre.filterMap (mappedChunk config backend maps req datasetIds)).length < count →
    ¬ LostChunk config backend maps datasetIds raw ∧
      ¬ Unscored config backend maps req datasetIds raw

theorem Learned.mapped (h : Learned config backend maps maps') :
    mappedChunk config backend maps' req datasetIds =
      mappedChunk config backend maps req datasetIds := by
  funext raw
  cases raw with
  | dict raw =>
    unfold mappedChunk
    dsimp only
    rw [h.mapping]
  | _ => rfl

theorem Learned.lost (h : Learned config backend maps maps') {raw : Any} :
    LostChunk config backend maps' datasetIds raw ↔
      LostChunk config backend maps datasetIds raw := by
  cases raw with
  | dict raw => exact and_congr_right fun _ => and_congr_right fun _ => h.missing _ _
  | _ => exact .rfl

theorem Learned.unscored (h : Learned config backend maps maps') {raw : Any} :
    Unscored config backend maps' req datasetIds raw ↔
      Unscored config backend maps req datasetIds raw := by
  unfold Unscored
  rw [h.mapped]

theorem Learned.clear (h : Learned config backend maps maps') {raws : List Any} {count : Nat} :
    Clear config backend maps' req datasetIds raws count ↔
      Clear config backend maps req datasetIds raws count := by
  unfold Clear
  rw [h.mapped]
  simp only [h.lost, h.unscored]

theorem clear_cons {raw : Any} {rest : List Any} {count : Nat} (hcount : 0 < count) :
    Clear config backend maps req datasetIds (raw :: rest) count ↔
      (¬ LostChunk config backend maps datasetIds raw ∧
        ¬ Unscored config backend maps req datasetIds raw) ∧
      Clear config backend maps req datasetIds rest
        (count - (mappedChunk config backend maps req datasetIds raw).toList.length) := by
  have hlength (pre : List Any) :
    ((raw :: pre).filterMap (mappedChunk config backend maps req datasetIds)).length =
      (mappedChunk config backend maps req datasetIds raw).toList.length +
        (pre.filterMap (mappedChunk config backend maps req datasetIds)).length := by
    cases hraw : mappedChunk config backend maps req datasetIds raw with
    | none =>
      rw [List.filterMap_cons_none hraw]
      exact (Nat.zero_add _).symm
    | some chunk =>
      rw [List.filterMap_cons_some hraw]
      exact Nat.add_comm _ _
  constructor
  · intro h
    refine ⟨h [] raw rest rfl hcount, fun pre raw' post hrest hless => ?_⟩
    exact h (raw :: pre) raw' post (by rw [hrest]; rfl) (by rw [hlength]; omega)
  · rintro ⟨hraw, hrest⟩ pre raw' post heq hless
    cases pre with
    | nil =>
      obtain ⟨rfl, -⟩ := List.cons.inj heq
      exact hraw
    | cons first pre =>
      obtain ⟨rfl, htail⟩ := List.cons.inj heq
      exact hrest pre raw' post htail (by rw [hlength] at hless; omega)

theorem scoreOf_ok_iff {value : Option Any} :
    (∃ score, scoreOf config value = .ok score) ↔ ¬ TooLarge value := by
  unfold scoreOf
  split
  case h_3 i =>
    split
    · next hlarge =>
      refine iff_of_false ?_ fun h => h ⟨i, rfl, hlarge⟩
      rintro ⟨score, hscore⟩
      cases hscore
    · next hsmall =>
      refine iff_of_true ⟨_, rfl⟩ ?_
      rintro ⟨_, heq, hlarge⟩
      cases heq
      exact hsmall hlarge
  all_goals
    refine iff_of_true ⟨_, rfl⟩ ?_
    rintro ⟨i, heq, -⟩
    cases heq
  rename_i hint _ _
  exact hint i rfl

/-- What is made of a raw chunk of a searched dataset when its document can be mapped. -/
theorem chunkOfMapping_spec {raw : Fields} {mapping : DocumentMapping}
    (hdataset : fieldText config.py raw "dataset_id" ∈ datasetIds)
    (hdocument : fieldText config.py raw "document_id" ≠ "")
    (hmapping : documentMapping config backend maps (fieldText config.py raw "dataset_id")
      (fieldText config.py raw "document_id") = some mapping) :
    (¬ Unscored config backend maps req datasetIds (.dict raw) ∧
      chunkOfMapping config req raw (fieldText config.py raw "dataset_id") mapping =
        .ok (mappedChunk config backend maps req datasetIds (.dict raw))) ∨
    (Unscored config backend maps req datasetIds (.dict raw) ∧
      ∃ e, chunkOfMapping config req raw (fieldText config.py raw "dataset_id") mapping =
        .error e) := by
  have hleft (hnone : mappedChunk config backend maps req datasetIds (.dict raw) = none) :
      ¬ Unscored config backend maps req datasetIds (.dict raw) := fun h => h.1 hnone
  have hmapped : mappedChunk config backend maps req datasetIds (.dict raw) =
      (contentOf raw).bind fun content => if InScope config req datasetIds raw mapping then
        some (chunkWith config req raw (fieldText config.py raw "dataset_id") mapping content
          ((scoreOf config (raw.lookup "similarity")).toOption.getD (.finite 0))) else none := by
    unfold mappedChunk
    dsimp only
    rw [hmapping]
    cases contentOf raw <;> rfl
  by_cases hscope : InScope config req datasetIds raw mapping
  · obtain ⟨-, -, hproject, hversion⟩ := hscope
    have hrequested : ¬ (¬ req.documentVersionIds.isEmpty = true ∧
        mapping.documentVersionId ∉ req.documentVersionIds) := by
      rintro ⟨hsome, hnot⟩
      exact hversion.elim (fun h => hsome (List.isEmpty_iff.mpr h)) hnot
    unfold chunkOfMapping
    rw [if_neg (not_not.mpr hproject), if_neg hrequested]
    cases hcontent : contentOf raw with
    | none =>
      rw [hcontent, Option.bind_none] at hmapped
      exact .inl ⟨hleft hmapped, by rw [hmapped]⟩
    | some content =>
      rw [hcontent, Option.bind_some, if_pos ⟨hdataset, hdocument, hproject, hversion⟩] at hmapped
      dsimp only
      cases hscore : scoreOf config (raw.lookup "similarity") with
      | ok score =>
        rw [hscore] at hmapped
        refine .inl ⟨fun h => (scoreOf_ok_iff config).mp ⟨score, hscore⟩ h.2, ?_⟩
        rw [hmapped]
        rfl
      | error e =>
        refine .inr ⟨⟨by rw [hmapped]; exact Option.some_ne_none _, ?_⟩, e, rfl⟩
        by_contra hsmall
        obtain ⟨score, hok⟩ := (scoreOf_ok_iff config).mpr hsmall
        rw [hscore] at hok
        cases hok
  · have hnone : mappedChunk config backend maps req datasetIds (.dict raw) = none := by
      rw [hmapped]
      cases contentOf raw with
      | none => rfl
      | some content => rw [Option.bind_some, if_neg hscope]
    refine .inl ⟨hleft hnone, ?_⟩
    rw [hnone]
    unfold chunkOfMapping
    by_cases hproject : mapping.projectId = req.projectId
    · rw [if_neg (not_not.mpr hproject), if_pos]
      have hversion := not_or.mp fun h => hscope ⟨hdataset, hdocument, hproject, h⟩
      exact ⟨fun hempty => hversion.1 (List.isEmpty_iff.mp hempty), hversion.2⟩
    · rw [if_pos hproject]

theorem mappedChunk_skip {raw : Fields}
    (hskip : fieldText config.py raw "dataset_id" ∉ datasetIds ∨
      fieldText config.py raw "document_id" = "") :
    mappedChunk config backend maps req datasetIds (.dict raw) = none := by
  have hscope (mapping : DocumentMapping) : ¬ InScope config req datasetIds raw mapping := fun h =>
    hskip.elim (fun hdataset => hdataset h.1) h.2.1
  unfold mappedChunk
  dsimp only
  split
  · exact if_neg (hscope _)
  · rfl

theorem eval_chunkOf (maps : Maps) (req : KnowledgeRetrievalRequest) (datasetIds : List String)
    (raw : Any) :
    ((LostChunk config backend maps datasetIds raw ∨
      Unscored config backend maps req datasetIds raw) ∧
      ∃ e maps', (chunkOf config req datasetIds raw).eval backend.perform maps =
        (.error e, maps')) ∨
    ((¬ LostChunk config backend maps datasetIds raw ∧
      ¬ Unscored config backend maps req datasetIds raw) ∧
      ∃ maps', Learned config backend maps maps' ∧
        (chunkOf config req datasetIds raw).eval backend.perform maps =
        (.ok (mappedChunk config backend maps req datasetIds raw), maps')) := by
  cases raw with
  | dict raw =>
    unfold chunkOf
    dsimp only
    by_cases hskip : fieldText config.py raw "dataset_id" ∉ datasetIds ∨
      fieldText config.py raw "document_id" = ""
    · have hnone : mappedChunk config backend maps req datasetIds (.dict raw) = none :=
        mappedChunk_skip config backend hskip
      rw [if_pos hskip, hnone]
      refine .inr ⟨⟨fun hlost => ?_, fun hunscored => hunscored.1 hnone⟩, maps,
        Learned.refl config backend, rfl⟩
      exact hskip.elim (fun h => h hlost.1) fun h => hlost.2.1 h
    · rw [if_neg hskip]
      rw [not_or, not_not] at hskip
      rcases eval_resolve config backend maps (fieldText config.py raw "dataset_id") hskip.2 with
        ⟨hmissing, e, heval⟩ | ⟨hfound, maps', hlearned, heval⟩
      · exact .inl ⟨.inl ⟨hskip.1, hskip.2, hmissing⟩, e, maps, Prog.eval_bind_error heval⟩
      · have hlost : ¬ LostChunk config backend maps datasetIds (.dict raw) :=
          fun hlost => hfound hlost.2.2
        cases hmapping : documentMapping config backend maps (fieldText config.py raw "dataset_id")
            (fieldText config.py raw "document_id") with
        | none =>
          have hnone : mappedChunk config backend maps req datasetIds (.dict raw) = none := by
            unfold mappedChunk
            dsimp only
            rw [hmapping]
          rw [hmapping] at heval
          rw [hnone]
          exact .inr ⟨⟨hlost, fun hunscored => hunscored.1 hnone⟩, maps', hlearned,
            Prog.eval_bind_ok heval⟩
        | some mapping =>
          have hmade :
            (ofExcept (chunkOfMapping config req raw
            (fieldText config.py raw "dataset_id") mapping)).eval
              backend.perform maps' =
                (chunkOfMapping config req raw (fieldText config.py raw "dataset_id") mapping,
                  maps') :=
            eval_ofExcept backend _
          rw [hmapping] at heval
          have hspec :=
            @chunkOfMapping_spec config backend maps req datasetIds raw mapping hskip.1
            hskip.2 hmapping
          rcases hspec with ⟨hscored, hok⟩ | ⟨hunscored, e, herror⟩
          · rw [hok] at hmade
            exact .inr ⟨⟨hlost, hscored⟩, maps', hlearned,
              (Prog.eval_bind_ok heval).trans (hok ▸ hmade)⟩
          · rw [herror] at hmade
            exact .inl ⟨.inr hunscored, e, maps', (Prog.eval_bind_ok heval).trans (herror ▸ hmade)⟩
  | _ => exact .inr ⟨⟨id, id⟩, maps, Learned.refl config backend, rfl⟩

/-- How many chunks end the loop. -/
def enough (limit : Int) : Nat := (max 1 limit).toNat

theorem eval_collectChunks {raws : List Any} {result : List KnowledgeChunk}
    (hresult : result.length < enough req.limit) :
    (Clear config backend maps req datasetIds raws (enough req.limit - result.length) ∧
      ((collectChunks config req datasetIds raws result).eval backend.perform maps).1 =
        .ok (result ++ (raws.filterMap (mappedChunk config backend maps req datasetIds)).take
          (enough req.limit - result.length))) ∨
    (¬ Clear config backend maps req datasetIds raws (enough req.limit - result.length) ∧
      ∃ e, ((collectChunks config req datasetIds raws result).eval backend.perform maps).1 =
        .error e) := by
  induction raws generalizing result maps with
  | nil =>
    refine .inl ⟨fun pre raw post heq => ?_, ?_⟩
    · exact absurd heq (List.append_ne_nil_of_right_ne_nil _ (List.cons_ne_nil _ _)).symm
    · rw [List.filterMap_nil, List.take_nil, List.append_nil]
      rfl
  | cons raw rest ih =>
    rw [clear_cons config backend (Nat.sub_pos_of_lt hresult)]
    rcases eval_chunkOf config backend maps req datasetIds raw with
      ⟨hfatal, e, maps', heval⟩ | ⟨hfound, maps', hlearned, heval⟩
    · refine .inr ⟨fun h => ?_, e, congrArg Prod.fst (Prog.eval_bind_error heval)⟩
      exact hfatal.elim h.1.1 h.1.2
    · cases hchunk : mappedChunk config backend maps req datasetIds raw with
      | none =>
        rw [hchunk] at heval
        have hstep : (collectChunks config req datasetIds (raw :: rest) result).eval
          backend.perform maps =
            (collectChunks config req datasetIds rest result).eval backend.perform maps' :=
              Prog.eval_bind_ok heval
        have hrest := @ih maps' result hresult
        rw [hlearned.clear, hlearned.mapped] at hrest
        rw [hstep, List.filterMap_cons_none hchunk, and_iff_right hfound]
        exact hrest
      | some chunk =>
        rw [hchunk] at heval
        have hstep : (collectChunks config req datasetIds (raw :: rest) result).eval
          backend.perform maps =
            Prog.eval backend.perform (if req.limit ≤ (result ++ [chunk]).length then
              .ret (result ++ [chunk])
              else collectChunks config req datasetIds rest (result ++ [chunk])) maps'
                := Prog.eval_bind_ok heval
        have hlength : (result ++ [chunk]).length = result.length + 1 := by
          rw [List.length_append, List.length_singleton]
        rw [hstep, List.filterMap_cons_some hchunk, and_iff_right hfound]
        by_cases hfull : req.limit ≤ (result ++ [chunk]).length
        · rw [if_pos hfull]
          have hone : enough req.limit - result.length = 1 := by
            unfold enough at hresult ⊢
            omega
          rw [hone]
          exact .inl ⟨fun pre raw' post _ hless => absurd hless (Nat.not_lt_zero _), rfl⟩
        · rw [if_neg hfull]
          have hroom : (result ++ [chunk]).length < enough req.limit := by
            unfold enough
            omega
          have hrest := @ih maps' (result ++ [chunk]) hroom
          have hcount : enough req.limit - (result ++ [chunk]).length + 1 =
              enough req.limit - result.length := by omega
          rw [hlearned.clear, hlearned.mapped, List.append_assoc] at hrest
          rw [← hcount, List.take_succ_cons]
          exact hrest

/-! ## Retrieval -/

/-- What a retrieval of the raw chunks comes to. -/
theorem eval_retrieve (maps : Maps) (req : KnowledgeRetrievalRequest) {data : Any} {raws : List Any}
    (hdatasets : searchedDatasets config maps req = .ok datasetIds)
    (hanswer : backend.answer (.retrieval req.query datasetIds (pageSize req.limit) req.projectId) =
      .ok data)
    (hraws : rawChunks data = .ok raws) :
    (Clear config backend maps req datasetIds raws (enough req.limit) ∧
      ((retrieve config req).eval backend.perform maps).1 =
      .ok ((raws.filterMap (mappedChunk config backend maps req datasetIds)).take
        (enough req.limit))) ∨
    (¬ Clear config backend maps req datasetIds raws (enough req.limit) ∧
      ∃ e, ((retrieve config req).eval backend.perform maps).1 = .error e) := by
  have hids := eval_datasetIds config backend maps req
  rw [hdatasets] at hids
  have hrequest :
    (request (.retrieval req.query datasetIds (pageSize req.limit) req.projectId)).eval
    backend.perform maps =
      (.ok data, maps) := (Prog.eval_exec _).trans (congrArg (·, maps) hanswer)
  have hchunks : (ofExcept (rawChunks data)).eval backend.perform maps = (.ok raws, maps) :=
    (eval_ofExcept backend _).trans (congrArg (·, maps) hraws)
  have heval : (retrieve config req).eval backend.perform maps =
      (collectChunks config req datasetIds raws []).eval backend.perform maps :=
    (Prog.eval_bind_ok hids).trans ((Prog.eval_bind_ok hrequest).trans (Prog.eval_bind_ok hchunks))
  rw [heval]
  have hsome : ([] : List KnowledgeChunk).length < enough req.limit :=
    Int.pos_iff_toNat_pos.mp (lt_max_of_lt_left Int.one_pos)
  exact eval_collectChunks config backend hsome

/-- **A retrieval discards what cannot be mapped** exactly if no document of a chunk that it gets to
is missing, and it is asked for some chunk or finds none. -/
theorem retrieve_discards_iff {data : Any} {raws : List Any}
    (hdatasets : searchedDatasets config maps req = .ok datasetIds)
    (hanswer : backend.answer (.retrieval req.query datasetIds (pageSize req.limit) req.projectId) =
      .ok data)
    (hraws : rawChunks data = .ok raws) :
    ((retrieve config req).eval backend.perform maps).1 =
        .ok ((raws.filterMap (mappedChunk config backend maps req datasetIds)).take req.limit.toNat)
          ↔
      Clear config backend maps req datasetIds raws (enough req.limit) ∧
        (0 < req.limit ∨ raws.filterMap (mappedChunk config backend maps req datasetIds) = []) := by
  rcases eval_retrieve config backend maps req hdatasets hanswer hraws with ⟨hclear, heval⟩ |
    ⟨hlost, e, heval⟩
  · rw [heval, Except.ok.injEq, and_iff_right hclear]
    by_cases hlimit : 0 < req.limit
    · have hsame : enough req.limit = req.limit.toNat := by
        unfold enough
        omega
      exact iff_of_true (by rw [hsame]) (.inl hlimit)
    · have hone : enough req.limit = 1 := by
        unfold enough
        omega
      have hzero : req.limit.toNat = 0 := by omega
      rw [hone, hzero, or_iff_right hlimit, List.take_zero]
      cases raws.filterMap (mappedChunk config backend maps req datasetIds) with
      | nil => exact iff_of_true rfl rfl
      | cons chunk rest => exact iff_of_false (List.cons_ne_nil _ _) (List.cons_ne_nil _ _)
  · rw [heval]
    exact iff_of_false (fun h => nomatch h) fun h => hlost h.1

/-! ## The page -/

/-- The first of a list are the first of a longer one exactly if it has enough of them or nothing is
appended. -/
theorem take_eq_take_append {α : Type} {l m : List α} {n : Nat} :
    l.take n = (l ++ m).take n ↔ n ≤ l.length ∨ m = [] := by
  rw [List.take_append]
  constructor
  · intro h
    by_contra hnot
    rw [not_or] at hnot
    have hnone := List.self_eq_append_right.mp h
    rw [List.take_eq_nil_iff] at hnone
    exact hnone.elim (by omega) hnot.2
  · rintro (h | rfl)
    · rw [Nat.sub_eq_zero_of_le h, List.take_zero, List.append_nil]
    · rw [List.take_nil, List.append_nil]

/-- The provider answers the retrieval with as much of its ranking as it is asked for. -/
def Ranks (req : KnowledgeRetrievalRequest) (datasetIds : List String) (ranked : List Any) : Prop :=
  ∀ size, ∃ data, backend.answer (.retrieval req.query datasetIds size req.projectId) = .ok data ∧
    rawChunks data = .ok (ranked.take size.toNat)

/-- The chunks of the page that the adapter asks for. -/
def page (ranked : List Any) (limit : Int) : List Any := ranked.take (pageSize limit).toNat

/-- **A retrieval gives the first chunks of the page that can be mapped**, and these are the first
of the whole ranking exactly if the page has enough of them or the rest of the ranking has none. -/
theorem retrieve_page {ranked : List Any}
    (hdatasets : searchedDatasets config maps req = .ok datasetIds)
    (hranks : Ranks backend req datasetIds ranked) (hlimit : 0 < req.limit)
    (hclear : Clear config backend maps req datasetIds (page ranked req.limit) (enough req.limit)) :
    ((retrieve config req).eval backend.perform maps).1 =
        .ok (((page ranked req.limit).filterMap
          (mappedChunk config backend maps req datasetIds)).take req.limit.toNat) ∧
      (((retrieve config req).eval backend.perform maps).1 =
          .ok ((ranked.filterMap (mappedChunk config backend maps req datasetIds)).take
            req.limit.toNat) ↔
        req.limit.toNat ≤
          ((page ranked req.limit).filterMap
          (mappedChunk config backend maps req datasetIds)).length ∨
          (ranked.drop (pageSize req.limit).toNat).filterMap
            (mappedChunk config backend maps req datasetIds) = []) ∧
      (((retrieve config req).eval backend.perform maps).1 = .ok [] ↔
        ∀ raw ∈ page ranked req.limit, mappedChunk config backend maps req datasetIds raw =
          none) := by
  obtain ⟨data, hanswer, hraws⟩ := hranks (pageSize req.limit)
  have heval := (retrieve_discards_iff config backend hdatasets hanswer hraws).mpr ⟨hclear,
    .inl hlimit⟩
  have hsplit : ranked.filterMap (mappedChunk config backend maps req datasetIds) =
      (page ranked req.limit).filterMap (mappedChunk config backend maps req datasetIds) ++
        (ranked.drop (pageSize req.limit).toNat).filterMap
          (mappedChunk config backend maps req datasetIds) := by
    unfold page
    rw [← List.filterMap_append, List.take_append_drop]
  refine ⟨heval, ?_, ?_⟩
  · rw [heval, Except.ok.injEq, hsplit]
    exact take_eq_take_append
  · rw [heval, Except.ok.injEq, List.take_eq_nil_iff, or_iff_right (by omega),
      List.filterMap_eq_nil_iff]
    rfl

namespace Sample

/-- A chunk of the document, as the retrieval answers it. -/
def ranking (documentId : String) : Any :=
  .dict [("id", .str "chunk-1"), ("dataset_id", .str "dataset-1"), ("document_id", .str documentId),
    ("content", .str "text")]

/-- The ranking has the chunks of those documents; two documents are listed, of a version each. -/
def provider (documentIds : List String) : Backend where
  answer
    | .retrieval _ _ size _ =>
      .ok (.dict [("chunks", .list ((documentIds.map ranking).take size.toNat))])
    | .listDocuments _ (some "document-1") _ => .ok (listed "P-1")
    | .listDocuments _ (some "document-2") _ =>
      .ok (.dict [("docs", .list [.dict [("id", .str "document-2"), ("meta_fields",
        .dict [(projectMetadataField, .str "P-1"),
          (documentVersionMetadataField, .str "version-2")])]])])
    | _ => .ok (.dict [("docs", .list [])])
  object _ := .error (.raised "missing")

/-- The document of the first chunk has been deleted. -/
def deleted : Backend := provider ["document-0", "document-1"]

/-- One chunk of the first version is asked for. -/
def oneOfVersion : KnowledgeRetrievalRequest :=
  { query with limit := 1, documentVersionIds := ["version-1"] }

def crowdedIds : List String := List.replicate 10 "document-2" ++ ["document-1"]

end Sample

open Sample in
theorem retrieve_discards_iff_sample :
    Clear configuration (provider ["document-1"]) bound query ["dataset-1"]
    [ranking "document-1"] (enough query.limit) :=
  ((retrieve_discards_iff configuration (provider ["document-1"]) rfl rfl rfl).mp (show
    ((retrieve configuration query).eval (provider ["document-1"]).perform bound).1 = .ok [chunk]
      from rfl)).1

open Sample in
/-- The second chunk can be mapped, and is not returned. -/
theorem deleted_document_fatal :
    deleted.answer (.retrieval query.query ["dataset-1"] (pageSize query.limit) query.projectId) =
        .ok (.dict [("chunks", .list [ranking "document-0", ranking "document-1"])]) ∧
      [ranking "document-0", ranking "document-1"].filterMap
        (mappedChunk configuration deleted bound query ["dataset-1"]) = [chunk] ∧
      ¬ ((retrieve configuration query).eval deleted.perform bound).1 = .ok [chunk] := by
  have hfatal : ∃ e, ((retrieve configuration query).eval deleted.perform bound).1 = .error e :=
    ⟨_, rfl⟩
  obtain ⟨e, hfatal⟩ := hfatal
  refine ⟨rfl, rfl, ?_⟩
  rw [hfatal]
  exact nofun

open Sample in
/-- The page has only chunks of the other version. -/
theorem page_crowded :
    Ranks (provider crowdedIds) oneOfVersion ["dataset-1"] (crowdedIds.map ranking) ∧
      (crowdedIds.map ranking).filterMap
        (mappedChunk configuration (provider crowdedIds) bound oneOfVersion ["dataset-1"]) =
      [chunk] ∧
      ((retrieve configuration oneOfVersion).eval (provider crowdedIds).perform bound).1 = .ok [] :=
  ⟨fun _ => ⟨_, rfl, rfl⟩, rfl, rfl⟩

open Sample in
theorem retrieve_page_sample :
    ((retrieve configuration oneOfVersion).eval (provider ["document-1"]).perform bound).1 =
      .ok [chunk] := by
  have hclear : Clear configuration (provider ["document-1"]) bound oneOfVersion ["dataset-1"]
      (page [ranking "document-1"] oneOfVersion.limit) (enough oneOfVersion.limit) := by
    rcases eval_retrieve configuration (provider ["document-1"]) bound oneOfVersion rfl rfl rfl
      with ⟨h, -⟩ | ⟨-, e, h⟩
    · exact h
    · cases (show Except.ok [chunk] = Except.error e from h)
  exact (retrieve_page configuration (provider ["document-1"]) rfl (fun _ => ⟨_, rfl, rfl⟩)
    (by decide) hclear).1

end ProjectAgent.Ragflow
