/-
`get_ingestion_status`: the text of an ingestion job's id, and the document it
names. `str.upper` is a parameter.
-/
import Mathlib
import ProjectAgent.Ragflow.Adapter

namespace ProjectAgent.Ragflow

open Documents (IngestionState KnowledgeIngestionStatus KnowledgeIngestionRequest)
open Interleave

/-! ## The text of an id -/

/-- `text.split(sep, n)`. -/
def splitAtMost (sep : Char) : Nat → List Char → List (List Char)
  | 0, cs => [cs]
  | n + 1, cs =>
    match cs.dropWhile (· ≠ sep) with
    | [] => [cs]
    | _ :: rest => cs.takeWhile (· ≠ sep) :: splitAtMost sep n rest

/-- `_decode_ingestion_job_id`. -/
def decodeIngestionJobId (ingestionJobId : String) : Except RagflowError (String × String) :=
  match (splitAtMost ':' 2 ingestionJobId.toList).map String.ofList with
  | [scheme, datasetId, documentId] =>
    if scheme ≠ "ragflow" ∨ datasetId = "" ∨ documentId = "" then
      .error (.configuration "invalid RAGFlow ingestion job id")
    else .ok (datasetId, documentId)
  | _ => .error (.configuration "invalid RAGFlow ingestion job id")

variable {sep : Char} {n : Nat}

theorem splitAtMost_none {cs : List Char} (h : sep ∉ cs) : splitAtMost sep (n + 1) cs = [cs] := by
  have hdrop : cs.dropWhile (· ≠ sep) = [] := by
    rw [List.dropWhile_eq_nil_iff]
    intro c hc
    have hne : c ≠ sep := fun heq => h (heq ▸ hc)
    simp [hne]
  simp only [splitAtMost, hdrop]

theorem splitAtMost_append {before rest : List Char} (h : sep ∉ before) :
    splitAtMost sep (n + 1) (before ++ sep :: rest) = before :: splitAtMost sep n rest := by
  have hbefore : ∀ c ∈ before, decide (c ≠ sep) = true := by
    intro c hc
    have hne : c ≠ sep := fun heq => h (heq ▸ hc)
    simp [hne]
  have hdrop : (before ++ sep :: rest).dropWhile (· ≠ sep) = sep :: rest := by
    rw [List.dropWhile_append_of_pos hbefore]
    simp
  have htake : (before ++ sep :: rest).takeWhile (· ≠ sep) = before := by
    rw [List.takeWhile_append_of_pos hbefore]
    simp
  simp only [splitAtMost, hdrop, htake]

theorem toList_encode (datasetId documentId : String) :
    (encodeIngestionJobId datasetId documentId).toList =
    "ragflow".toList ++ ':' :: (datasetId.toList ++ ':' :: documentId.toList) := by
  simp [encodeIngestionJobId, String.toList_append]

theorem decode_encode {datasetId documentId : String} (hcolon : ':' ∉ datasetId.toList)
    (hdataset : datasetId ≠ "") (hdocument : documentId ≠ "") :
    decodeIngestionJobId (encodeIngestionJobId datasetId documentId) =
      .ok (datasetId, documentId) := by
  unfold decodeIngestionJobId
  rw [toList_encode, splitAtMost_append (by decide), splitAtMost_append hcolon]
  simp [splitAtMost, hdataset, hdocument]

/-- The texts that are accepted are those that are made of a dataset and a document. -/
theorem decode_ok_iff {ingestionJobId datasetId documentId : String} :
    decodeIngestionJobId ingestionJobId = .ok (datasetId, documentId) ↔
      ingestionJobId = encodeIngestionJobId datasetId documentId ∧ ':' ∉ datasetId.toList ∧
        datasetId ≠ "" ∧ documentId ≠ "" := by
  constructor
  · intro h
    unfold decodeIngestionJobId at h
    by_cases hfirst : ':' ∈ ingestionJobId.toList
    · obtain ⟨scheme, rest, hids, hscheme⟩ := List.eq_append_cons_of_mem hfirst
      rw [hids, splitAtMost_append hscheme] at h
      by_cases hsecond : ':' ∈ rest
      · obtain ⟨dataset, document, hrest, hdataset⟩ := List.eq_append_cons_of_mem hsecond
        rw [hrest, splitAtMost_append hdataset] at h
        simp only [splitAtMost, List.map_cons, List.map_nil] at h
        by_cases hbad : String.ofList scheme ≠ "ragflow" ∨ String.ofList dataset = "" ∨
          String.ofList document = ""
        · rw [if_pos hbad] at h
          cases h
        · rw [if_neg hbad] at h
          cases h
          simp only [not_or, ne_eq, not_not] at hbad
          refine ⟨String.toList_inj.mp ?_, by simpa using hdataset, hbad.2.1, hbad.2.2⟩
          rw [toList_encode, hids, hrest, ← hbad.1, String.toList_ofList, String.toList_ofList,
            String.toList_ofList]
      · rw [splitAtMost_none hsecond] at h
        cases h
    · rw [splitAtMost_none hfirst] at h
      cases h
  · rintro ⟨rfl, hcolon, hdataset, hdocument⟩
    exact decode_encode hcolon hdataset hdocument

/-! ## The status of its document -/

/-- `bool(value)`. -/
def Any.truthy : Any → Bool
  | .null => false
  | .bool value => value
  | .int value => value ≠ 0
  | .float value => value ≠ .finite 0
  | .str value => value ≠ ""
  | .list items => !items.isEmpty
  | .dict fields => !fields.isEmpty

def ingestionState (run : String) : IngestionState :=
  if run ∈ ["DONE", "SUCCEEDED", "SUCCESS"] then .SUCCEEDED
  else if run ∈ ["FAIL", "FAILED", "ERROR", "CANCEL", "CANCELED", "CANCELLED"] then .FAILED
  else if run ∈ ["RUNNING", "PARSING", "PROCESSING"] then .RUNNING
  else .PENDING

section
variable (config : Config) (upper : String → String)

def statusOf (document : Fields) : KnowledgeIngestionStatus :=
  let run := upper (fieldText config.py document "run")
  let state := ingestionState run
  let message := (document.lookup "progress_msg").getD .null
  ⟨state, if state = .FAILED then some (if message.truthy then message.text config.py else run)
    else none⟩

/-- `get_ingestion_status`. -/
def getIngestionStatus (ingestionJobId : String) : Call KnowledgeIngestionStatus := do
  let ids ← ofExcept (decodeIngestionJobId ingestionJobId)
  let document ← getDocument config ids.1 ids.2
  .ret (statusOf config upper document)

end

/-- A statement that lists this document of the dataset. -/
def ListsDocument (datasetId documentId : String) (s : Stmt) : Prop :=
  s = .request (.listDocuments datasetId (some documentId) none)

variable {config : Config} {upper : String → String}

theorem getDocument_only {P : Stmt → Prop} {datasetId documentId : String} (h : documentId ≠ "")
    (hlist : P (.request (.listDocuments datasetId (some documentId) none))) :
    (getDocument config datasetId documentId).Only P := by
  unfold getDocument
  rw [if_neg h]
  refine Prog.Only.bind (Prog.Only.bind (Prog.Only.exec hlist) fun _ => ofExcept_only _)
    fun documents => ?_
  split <;> exact trivial

/-- **An ingestion job's id names its document.** The ids that are accepted are the texts made of a
dataset without a colon and a document, both not empty, and no other dataset or document is read in
one; of a receipt of `ingest` the status is asked for the receipt's own document exactly if they are
so. Asking for a status lists the named document, and does nothing else. -/
theorem ingestion_job_ids (config : Config) (upper : String → String) :
    (∀ ingestionJobId datasetId documentId, decodeIngestionJobId ingestionJobId =
      .ok (datasetId, documentId) ↔
      ingestionJobId = encodeIngestionJobId datasetId documentId ∧ ':' ∉ datasetId.toList ∧
        datasetId ≠ "" ∧ documentId ≠ "") ∧
    (∀ (req : KnowledgeIngestionRequest) (documentId : String),
      decodeIngestionJobId (receiptOf req documentId).ingestionJobId =
        .ok (req.knowledgeSpaceId, documentId) ↔
        ':' ∉ req.knowledgeSpaceId.toList ∧ req.knowledgeSpaceId ≠ "" ∧ documentId ≠ "") ∧
    ∀ ingestionJobId, (getIngestionStatus config upper ingestionJobId).Only fun s =>
      ∃ datasetId documentId, ingestionJobId = encodeIngestionJobId datasetId documentId ∧
        ListsDocument datasetId documentId s := by
  refine ⟨fun _ _ _ => decode_ok_iff, fun req documentId => ?_, fun ingestionJobId => ?_⟩
  · rw [decode_ok_iff]
    exact ⟨fun h => h.2, fun h => ⟨rfl, h⟩⟩
  · unfold getIngestionStatus
    cases hdecode : decodeIngestionJobId ingestionJobId with
    | error e => exact trivial
    | ok ids =>
      obtain ⟨hids, -, -, hdocument⟩ := decode_ok_iff.mp hdecode
      show Prog.Only _ ((getDocument config ids.1 ids.2).bind fun document =>
        .ret (statusOf config upper document))
      exact (getDocument_only hdocument ⟨ids.1, ids.2, hids, rfl⟩).bind fun _ => trivial

end ProjectAgent.Ragflow
