/-
The trial that stands for a case that failed. It is let into its file exactly if no
text of the case looks like a secret; everything else in it is fixed, or a number, an
id, a time or a hash. What is in its file is loaded again.
-/
import ProjectAgent.Evaluation.SafeTexts
import ProjectAgent.Lib.Dict

namespace ProjectAgent.Evaluation

open Json (Value)

variable {lang : Language}

/-! ## Fallbacks -/

def optionalRaw {α : Type} (raw : α → Raw) : Option α → Raw
  | none => .null
  | some a => raw a

theorem toJsonable_text (text : Text) : toJsonable text.payload = .ok text.raw := by
  cases text <;> rfl

theorem toJsonable_optionalId (id : Option UUID) :
    toJsonable (optionalId id) = .ok (optionalRaw (fun id => .str id.str) id) := by
  cases id <;> rfl

theorem toJsonable_optionalStatus (status : Option ℤ) :
    toJsonable (optionalStatus status) = .ok (optionalRaw .int status) := by
  cases status <;> rfl

section Failed

variable (lang : Language) (services : Services) (frozen : FrozenCase) (attempt : Attempt)
  (classification : TrialClassification) (errorCategory : String) (n : Nat)

def failureFields : List (String × Raw) :=
  ("run_protocol", .str frozen.execution.runProtocol.value) ::
    match attempt.setupRunId with
    | none => []
    | some runId => [("setup_run_id", .str runId.str)]

def failedFields : List (String × Raw) :=
  [("case_id", .str frozen.caseId), ("trial_no", .int 1),
    ("classification", .str classification.value),
    ("business_mode", (frozen.execution.businessMode.orElse frozen.questionType).raw),
    ("project_code", .str frozen.projectCode), ("user_alias", .str frozen.userAlias),
      ("query", .str frozen.question),
    ("query_sha256", .str (lang.sha256 frozen.question.toUTF8.toList)),
    ("http_status", optionalRaw .int (attempt.lastResponse.map (·.httpStatus))),
    ("run_id", optionalRaw (fun id => .str id.str) (attempt.lastResponse.bind (·.runId))),
    ("thread_id", optionalRaw (fun id => .str id.str) (attempt.lastResponse.bind (·.threadId))),
    ("status_transitions", .list []), ("event_types", .list []),
      ("started_at", .str services.startedAt.isoformat),
    ("finished_at", .str (services.finishedAt n).isoformat), ("latency_ms", .null),
      ("model_alias", .null),
    ("prompt_version", .null), ("prompt_content_hash", .null), ("input_tokens", .null),
      ("output_tokens", .null),
    ("total_tokens", .null), ("retrieval_rounds", .list []), ("final_retrieval_round", .null),
    ("governed_evidence", .list []), ("answer", .null), ("refusal_reason", .null),
      ("citations", .list []),
    ("issue", .null), ("error_category", .str errorCategory),
      ("metadata", .dict (members (failureFields frozen attempt)))]

theorem toJsonable_failureMetadata :
    entriesToJsonable (failureMetadata frozen attempt) =
      .ok (members (failureFields frozen attempt)) := by
  unfold failureMetadata failureFields
  cases attempt.setupRunId <;> rfl

theorem toJsonable_failed :
    toJsonable (failedTrial lang services frozen attempt classification errorCategory n).payload =
      .ok
        (.dict (members (failedFields lang services frozen attempt classification errorCategory n)))
      := by
  unfold failedTrial fallbackTrial Trial.payload
  simp only [toJsonable, fieldsToJsonable, itemsToJsonable, toJsonable_text, toJsonable_optionalId,
    toJsonable_optionalStatus,
    toJsonable_failureMetadata, optionalTime]
  rfl

variable {lang services frozen attempt classification errorCategory n}

def Text.text : Text → String
  | .str text | .loneStr text => text

/-- The fields of a trial. -/
def trialKeys : List String :=
  ["case_id", "trial_no", "classification", "business_mode", "project_code", "user_alias", "query",
    "query_sha256",
    "http_status", "run_id", "thread_id", "status_transitions", "event_types", "started_at",
      "finished_at", "latency_ms",
    "model_alias", "prompt_version", "prompt_content_hash", "input_tokens", "output_tokens",
      "total_tokens",
    "retrieval_rounds", "final_retrieval_round", "governed_evidence", "answer", "refusal_reason",
      "citations", "issue",
    "error_category", "metadata"]

/-- No text of the case looks like a secret, and the mode is UTF-8. -/
structure FallbackSafe (lang : Language) (frozen : FrozenCase) : Prop where
  caseId : Scanned lang frozen.caseId
  projectCode : Scanned lang frozen.projectCode
  userAlias : Scanned lang frozen.userAlias
  question : Scanned lang frozen.question
  businessMode : ∃ mode, frozen.execution.businessMode.orElse frozen.questionType = .str mode ∧
    Scanned lang mode

theorem key_not_secret (law : lang.Lawful) {name : String}
    (h : name ∈ "run_protocol" :: "setup_run_id" :: trialKeys) :
    isSecretKey lang name = false := by
  have hascii : ∀ name ∈ "run_protocol" :: "setup_run_id" :: trialKeys,
      (∀ c ∈ name.toList, c ∈ keyChars) ∧ asciiLanguage.casefold name = name ∧
        isSecretKey asciiLanguage name = false := by
    decide +kernel
  exact not_secret law (hascii name h).1 (hascii name h).2.1 (hascii name h).2.2

theorem failed_key (law : lang.Lawful) {field : String × Raw}
    (h : field ∈ failedFields lang services frozen attempt classification errorCategory n) :
    isSecretKey lang field.1 = false := by
  refine key_not_secret law (List.mem_cons_of_mem _ (List.mem_cons_of_mem _ ?_))
  have hnames : (failedFields lang services frozen attempt classification errorCategory n).map
      Prod.fst = trialKeys := rfl
  rw [← hnames]
  exact List.mem_map_of_mem h

theorem Fine.optional {α : Type} {raw : α → Raw} (h : ∀ a, Fine lang (raw a)) (value : Option α) :
    Fine lang (optionalRaw raw value) := by
  cases value with
  | none => exact .null
  | some a => exact h a

theorem Fine.id (id : Option UUID) : Fine lang (optionalRaw (fun id => .str id.str) id) :=
  .optional (fun id => .plain (uuid_plain id)) id

theorem protocol_plain (protocol : RunProtocol) : Plain protocol.value.toList := by
  cases protocol <;> decide

theorem classification_plain (classification : TrialClassification) :
    Plain classification.value.toList := by
  cases classification <;> decide

theorem failureMetadata_fine (law : lang.Lawful) :
    Fine lang (.dict (members (failureFields frozen attempt))) := by
  have hfields : ∀ field ∈ failureFields frozen attempt, isSecretKey lang field.1 = false ∧
      Fine lang field.2 := by
    intro field hfield
    unfold failureFields at hfield
    rcases List.mem_cons.mp hfield with rfl | hfield
    · exact ⟨key_not_secret law List.mem_cons_self, .plain (protocol_plain _)⟩
    · cases hsetup : attempt.setupRunId with
      | none =>
        rw [hsetup] at hfield
        cases hfield
      | some runId =>
        rw [hsetup] at hfield
        obtain rfl := List.mem_singleton.mp hfield
        exact ⟨key_not_secret law (List.mem_cons_of_mem _ List.mem_cons_self),
          .plain (uuid_plain runId)⟩
  exact .dict (fun field hfield => (hfields field hfield).1) fun field hfield =>
    (hfields field hfield).2

/-- **A fallback is let into its file exactly if the case's texts are safe.** -/
theorem failed_passes_iff (law : lang.Lawful) (hcategory : Plain errorCategory.toList) :
    Passes lang
      (.dict (members (failedFields lang services frozen attempt classification errorCategory n))) ↔
      FallbackSafe lang frozen := by
  constructor
  · intro h
    have hfields : ∀ field ∈ [("case_id", Raw.str frozen.caseId),
      ("project_code", .str frozen.projectCode),
        ("user_alias", .str frozen.userAlias), ("query", .str frozen.question),
        ("business_mode", (frozen.execution.businessMode.orElse frozen.questionType).raw)],
        field ∈ failedFields lang services frozen attempt classification errorCategory n := by
      simp [failedFields]
    simp only [List.forall_mem_cons] at hfields
    obtain ⟨hcase, hproject, halias, hquestion, hmode, -⟩ := hfields
    refine ⟨h.text hcase, h.text hproject, h.text halias, h.text hquestion, ?_⟩
    cases htext : frozen.execution.businessMode.orElse frozen.questionType with
    | str mode =>
      rw [htext] at hmode
      exact ⟨mode, rfl, h.text hmode⟩
    | loneStr mode =>
      rw [htext] at hmode
      exact absurd (h.field hmode).2.symm Bool.false_ne_true
  · intro h
    obtain ⟨mode, hmode, hscanned⟩ := h.businessMode
    refine Fine.passes (.dict (fun field hfield => failed_key law hfield) ?_)
    unfold failedFields
    rw [hmode]
    simp only [List.forall_mem_cons]
    exact ⟨.str h.caseId, .int 1, .plain (classification_plain _), .str hscanned,
      .str h.projectCode, .str h.userAlias,
      .str h.question, .plain (sha256_plain law _), .optional .int _, .id _, .id _, .nil, .nil,
        .plain (isoformat_plain _),
      .plain (isoformat_plain _), .null, .null, .null, .null, .null, .null, .null, .nil, .null,
        .nil, .null, .null, .nil,
      .null, .plain hcategory, failureMetadata_fine law, fun _ h => absurd h List.not_mem_nil⟩

end Failed

/-! ## Loading a fallback -/

section Loading

variable {python : Python} {services : Services} {frozen : FrozenCase} {attempt : Attempt}
  {classification : TrialClassification} {errorCategory : String} {n : Nat}

/-- What an object of texts as keys is read back as, but for the order. -/
def rereadFields (fields : List (String × Raw)) : RawFields :=
  fields.map fun field => (field.1, reread field.2)

theorem reread_members {fields : List (String × Raw)} (hnodup : (fields.map Prod.fst).Nodup) :
    ∃ sorted, reread (.dict (members fields)) = .dict sorted ∧
      ∀ key, sorted.lookup key = (rereadFields fields).lookup key := by
  have hentries : rereadEntries (members fields) = (rereadFields fields).map fun field =>
      (Key.str field.1, field.2) := by
    clear hnodup
    induction fields with
    | nil => rfl
    | cons field fields ih =>
      unfold members rereadFields at ih ⊢
      rw [List.map_cons, List.map_cons, List.map_cons, ← ih]
      rfl
  refine ⟨(rereadFields fields).insertionSort fun a b => a.1 ≤ b.1, ?_, fun key => ?_⟩
  · unfold reread
    rw [hentries, sortEntries_texts]
  · refine (Dict.lookup_perm (List.perm_insertionSort _ _).symm ?_ key).symm
    unfold rereadFields
    rwa [List.map_map]

theorem loadTrial_congr {raw raw' : RawFields} (h : ∀ key, raw.lookup key = raw'.lookup key) :
    loadTrial python raw = loadTrial python raw' := by
  unfold loadTrial requiredStr required optional Value.get
  simp only [h]

theorem ofValue_value (classification : TrialClassification) :
    TrialClassification.ofValue classification.value = .ok classification := by
  cases classification <;> rfl

theorem optionalInt_optional (value : Option ℤ) :
    optionalInt (reread (optionalRaw .int value)) = .ok value := by
  cases value <;> rfl

theorem failureFields_nodup (frozen : FrozenCase) (attempt : Attempt) :
    ((failureFields frozen attempt).map Prod.fst).Nodup := by
  unfold failureFields
  cases attempt.setupRunId <;> simp

/-- A fallback is loaded, as the first trial of its case. -/
theorem failed_loads (hint : ∀ value, python.int (.int value) = .ok value) :
    ∃ saved, loadDocument python
      (.dict (members (failedFields lang services frozen attempt classification errorCategory n))) =
      .ok saved ∧ saved.caseId = frozen.caseId ∧ saved.trialNo = 1 := by
  have hnodup : ((failedFields lang services frozen attempt classification errorCategory n).map
      Prod.fst).Nodup := by
    change trialKeys.Nodup
    decide
  obtain ⟨sorted, hreread, hlookup⟩ := reread_members hnodup
  obtain ⟨metadata, hmetadata, -⟩ := reread_members (failureFields_nodup frozen attempt)
  unfold loadDocument
  rw [hreread]
  dsimp only
  rw [loadTrial_congr hlookup]
  simp only [rereadFields, failedFields, List.map_cons, List.map_nil, hmetadata]
  unfold loadTrial
  have hbind {α β : Type} (a : α) (f : α → Except Error β) : (Except.ok a >>= f) = f a := rfl
  have hstr (text : String) : python.str (.str text) = text := rfl
  simp only [requiredStr, required, optional, Value.get, listField, List.lookup_cons_self,
    List.lookup_cons, String.reduceBEq,
    Option.getD_some, reread, rereadItems, bind_pure_comp, Except.map_ok, optionalInt_optional]
  simp only [hbind, hint, hstr, ofValue_value]
  exact ⟨_, rfl, rfl, rfl⟩

end Loading

end ProjectAgent.Evaluation
