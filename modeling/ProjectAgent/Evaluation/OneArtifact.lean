/-
A run leaves one trial file for each selected case, and a directory that is loaded, if
every case is well tried; its manifest is let in and loaded as the trials are.
-/
import ProjectAgent.Evaluation.Cases
import ProjectAgent.Evaluation.Critical

namespace ProjectAgent.Evaluation

open Json (Value)

variable {lang : Language}

/-! ## The manifest -/

section Manifest

variable {python : Python} {name : String} {provenance : Provenance} {selected : List FrozenCase}

def manifestFields (name : String) (provenance : Provenance) (selected : List FrozenCase)
    (evaluationNamespace : Raw) :
    List (String × Raw) :=
  [("evaluation_run_id", .str name), ("dataset_version", provenance.datasetVersion.raw),
    ("data_provenance", provenance.dataProvenance.raw),
      ("corpus_version", provenance.corpusVersion.raw),
    ("gold_schema_version", provenance.goldSchemaVersion.raw),
    ("metric_definition_version", provenance.metricDefinitionVersion.raw),
      ("git_commit", provenance.gitCommit.raw),
    ("dirty_worktree", .bool provenance.dirtyWorktree),
    ("selected_case_ids", .list (selected.map fun frozen => .str frozen.caseId)),
    ("started_at", .str provenance.startedAt.isoformat),
      ("python_version", .str provenance.pythonVersion),
    ("alembic_revision", .null), ("model_alias", optionalRaw Text.raw provenance.modelAlias),
    ("ragflow_expected_version", provenance.ragflowExpectedVersion.raw),
      ("ragflow_observed_version", .null),
    ("prompt_versions", .list []), ("prompt_hashes", .list []),
      ("runner_version", .str runnerVersion),
    ("dataset_sha256", provenance.datasetSha256.raw),
      ("corpus_sha256", provenance.corpusSha256.raw),
    ("gold_sha256", provenance.goldSha256.raw),
    ("metadata", .dict (members [("evaluation_namespace", evaluationNamespace)]))]

theorem itemsToJsonable_ids :
    itemsToJsonable (selected.map fun frozen => .str frozen.caseId) =
      .ok (selected.map fun frozen => .str frozen.caseId) := by
  induction selected with
  | nil => rfl
  | cons frozen rest ih =>
    rw [List.map_cons, List.map_cons]
    unfold itemsToJsonable
    rw [ih]
    rfl

theorem toJsonable_modelAlias (model : Option Text) :
    toJsonable ((model.map Text.payload).getD .null) = .ok (optionalRaw Text.raw model) := by
  cases model with
  | none => rfl
  | some text => exact toJsonable_text text

theorem toJsonable_manifest {document : Raw}
    (h : toJsonable (manifestPayload name provenance selected) = .ok document) :
    ∃ evaluationNamespace, document =
      .dict (members (manifestFields name provenance selected evaluationNamespace)) := by
  unfold manifestPayload at h
  cases hnamespace : toJsonable provenance.evaluationNamespace with
  | error error =>
    simp only [toJsonable, fieldsToJsonable, entriesToJsonable, itemsToJsonable, toJsonable_text,
      toJsonable_modelAlias,
      itemsToJsonable_ids, hnamespace] at h
    cases h
  | ok evaluationNamespace =>
    simp only [toJsonable, fieldsToJsonable, entriesToJsonable, itemsToJsonable, toJsonable_text,
      toJsonable_modelAlias,
      itemsToJsonable_ids, hnamespace] at h
    exact ⟨evaluationNamespace, (Except.ok.inj h).symm⟩

theorem rereadItems_ids :
    rereadItems (selected.map fun frozen => .str frozen.caseId) = selected.map fun frozen =>
      .str frozen.caseId := by
  induction selected with
  | nil => rfl
  | cons frozen rest ih =>
    rw [List.map_cons, List.map_cons]
    unfold rereadItems
    rw [ih]
    rfl

/-- A manifest that was written is read back with its id and its cases. -/
theorem loadManifest_written {lang : Language} {document : Raw}
    (h : written lang (manifestPayload name provenance selected) = .ok document) :
    loadManifest python document = .ok (name, selected.map (·.caseId)) := by
  obtain ⟨evaluationNamespace, rfl⟩ := toJsonable_manifest (written_ok_iff.mp h).1
  have hnodup : ((manifestFields name provenance selected evaluationNamespace).map Prod.fst).Nodup
      := by
    change ["evaluation_run_id", "dataset_version", "data_provenance", "corpus_version",
      "gold_schema_version",
      "metric_definition_version", "git_commit", "dirty_worktree", "selected_case_ids",
        "started_at", "python_version",
      "alembic_revision", "model_alias", "ragflow_expected_version", "ragflow_observed_version",
        "prompt_versions",
      "prompt_hashes", "runner_version", "dataset_sha256", "corpus_sha256", "gold_sha256",
        "metadata"].Nodup
    decide
  obtain ⟨sorted, hreread, hlookup⟩ := reread_members hnodup
  have hsingle : ([("evaluation_namespace", evaluationNamespace)].map Prod.fst).Nodup :=
    List.nodup_singleton _
  obtain ⟨metadata, hmetadata, -⟩ := reread_members hsingle
  unfold loadManifest
  rw [hreread]
  dsimp only
  unfold requiredStr required optional Value.get
  simp only [hlookup, List.mapM_cons, List.mapM_nil]
  simp only [rereadFields, manifestFields, List.map_cons, List.map_nil, hmetadata]
  have hbind {α β : Type} (a : α) (f : α → Except Error β) : (Except.ok a >>= f) = f a := rfl
  have hids : python.strs (.list (selected.map fun frozen => .str frozen.caseId)) =
      .ok (selected.map (·.caseId)) := by
    change Except.ok ((selected.map fun frozen => Value.str frozen.caseId).map python.str) = _
    rw [List.map_map]
    rfl
  simp only [List.lookup_cons_self, List.lookup_cons, String.reduceBEq, Option.getD_some, reread,
    rereadItems_ids,
    bind_pure_comp, bind_assoc, map_bind, map_pure, Except.map_ok]
  simp only [hbind, hids]
  rfl

end Manifest

/-! ## Every selected case -/

theorem selectCases_spec {dataset : FrozenDataset} {selection : Selection}
    {selected : List FrozenCase} (h : selectCases dataset selection = .ok selected) :
    selected ≠ [] ∧ (selected.map (·.caseId)).Nodup := by
  unfold selectCases at h
  dsimp only at h
  split at h
  · cases h
  · split at h
    · cases h
    · split at h
      · cases h
      · next hnonempty =>
        cases h
        exact ⟨hnonempty, dataset.nodup.sublist (List.filter_sublist.map _)⟩

section Main

variable {lang : Language} {python : Python} {state : FixtureState} {dataset : FrozenDataset}
  {services : String → Services}
  {name : String} {provenance : Provenance} {selection : Selection} {selected : List FrozenCase}
    {manifest : Raw}

theorem run_eq (hselected : selectCases dataset selection = .ok selected)
    (hmanifest : written lang (manifestPayload name provenance selected) = .ok manifest) :
    run lang state dataset services name provenance selection ⟨none, []⟩ =
      runCases lang state dataset services selected ⟨some manifest, []⟩ := by
  unfold run
  rw [hselected]
  dsimp only
  rw [hmanifest]
  rfl

/-- The cases are loaded one by one from a directory whose manifest was written. -/
theorem loadSavedRun_written (hnonempty : selected ≠ [])
    (hmanifest : written lang (manifestPayload name provenance selected) = .ok manifest)
    (files : List (String × String × Raw)) : loadSavedRun python name ⟨some manifest, files⟩ =
      (selected.map (·.caseId)).mapM (loadCase python ⟨some manifest, files⟩) := by
  unfold loadSavedRun
  dsimp only
  rw [loadManifest_written hmanifest]
  change (if name ≠ name then _ else if selected.map (·.caseId) = [] then _ else _) = _
  rw [if_neg (fun h => h rfl), if_neg (fun h => hnonempty (List.map_eq_nil_iff.mp h))]

section Ended

variable {files : List (String × String × Raw)} (hnodup : (selected.map (·.caseId)).Nodup)
  (hleft : List.Forall₂ (Left lang python state dataset services) selected files)

include hnodup hleft

/-- The file a case has left is the one that is loaded for it. -/
theorem loadCase_left (frozen : FrozenCase) (hfrozen : frozen ∈ selected) :
    (∃ saved, loadCase python ⟨some manifest, files⟩ frozen.caseId = .ok saved) ↔
      WellTried lang python state dataset (services frozen.caseId) frozen := by
  have hkeys : files.map (·.1) = selected.map (·.caseId) := by
    have hfst := congrArg (List.map Prod.fst) (forall2_files hleft)
    rwa [List.map_map, List.map_map] at hfst
  have hfilesNodup : (files.map (·.1)).Nodup := by rwa [hkeys]
  obtain ⟨file, hfile, hfileLeft⟩ := Related.mem_left hleft hfrozen
  exact (loadCase_iff hfilesNodup hfile hfileLeft.2.1 hfileLeft.1).trans hfileLeft.2.2

end Ended

/-- Each case of a complete run is well tried. -/
theorem wellTried_of_complete (law : lang.Lawful)
    (hint : ∀ value, python.int (.int value) = .ok value)
    (hselected : selectCases dataset selection = .ok selected)
    (hmanifest : written lang (manifestPayload name provenance selected) = .ok manifest)
    (h : Complete python name selected
      (run lang state dataset services name provenance selection ⟨none, []⟩))
    (frozen : FrozenCase) (hfrozen : frozen ∈ selected) :
    WellTried lang python state dataset (services frozen.caseId) frozen := by
  obtain ⟨hnonempty, hnodup⟩ := selectCases_spec hselected
  rw [run_eq hselected hmanifest] at h
  obtain ⟨⟨trials, hreturned, -⟩, -, -, saved, haccepted⟩ := h
  obtain ⟨⟨error, herror⟩, -⟩ | ⟨_, files, -, hleft, hruns⟩ :=
    runCases_cases ⟨some manifest, []⟩ law hint hnodup
  · exact nomatch hreturned.symm.trans herror
  · rw [hruns] at haccepted
    have hloaded := (loadSavedRun_written hnonempty hmanifest files).symm.trans haccepted
    obtain ⟨trial, -, hcase⟩ := Fallible.mapM_of_mem hloaded (List.mem_map_of_mem hfrozen)
    exact (loadCase_left hnodup hleft frozen hfrozen).mp ⟨trial, hcase⟩

/-- **Where the manifest is written, the run ends with one trial file that is loaded for each
selected case exactly if each case is well tried.** -/
theorem run_completes_iff (law : lang.Lawful) (hint : ∀ value, python.int (.int value) = .ok value)
    (hselected : selectCases dataset selection = .ok selected)
    (hmanifest : written lang (manifestPayload name provenance selected) = .ok manifest) :
    Complete python name selected (run lang state dataset services name provenance selection
      ⟨none, []⟩) ↔
      ∀ frozen ∈ selected, WellTried lang python state dataset (services frozen.caseId) frozen := by
  refine ⟨wellTried_of_complete law hint hselected hmanifest, fun h => ?_⟩
  obtain ⟨hnonempty, hnodup⟩ := selectCases_spec hselected
  rw [run_eq hselected hmanifest]
  obtain ⟨-, frozen, hfrozen, hill⟩ | ⟨trials, files, hlength, hleft, hruns⟩ :=
    runCases_cases ⟨some manifest, []⟩ law hint hnodup
  · exact absurd (h frozen hfrozen) hill
  · rw [hruns]
    refine ⟨⟨trials, rfl, hlength⟩, .of_eq (forall2_files hleft), fun file hfile => ?_, ?_⟩
    · obtain ⟨frozen, hfrozen, hfileLeft⟩ := Related.mem_left (List.Forall₂.flip hleft) hfile
      obtain ⟨saved, hloaded, -⟩ := hfileLeft.2.2.mpr (h frozen hfrozen)
      exact ⟨saved, hloaded⟩
    · change ∃ saved, loadSavedRun python name ⟨some manifest, files⟩ = .ok saved
      rw [loadSavedRun_written hnonempty hmanifest]
      refine Fallible.mapM_exists fun caseId hcaseId => ?_
      obtain ⟨frozen, hfrozen, rfl⟩ := List.mem_map.mp hcaseId
      exact (loadCase_left hnodup hleft frozen hfrozen).mpr (h frozen hfrozen)

end Main

/-! ## Two runs -/

theorem asciiLanguage_lawful : asciiLanguage.Lawful where
  casefold_lower text h := by
    have hchar : ∀ c ∈ keyChars, c.toLower = c := by decide
    change String.ofList (text.toList.map Char.toLower) = text
    rw [List.map_congr_left fun c hc => hchar c (h c hc), List.map_id', String.ofList_toList]
  sha256_hex _ := by
    intro c hc
    cases hc

/-- A case of the catalog that is run alone. -/
def askedCase (question : String) : FrozenCase where
  caseId := "Q001"
  split := "dev"
  priority := "P0"
  projectCode := "PRJ-RETAIL-ALPHA"
  userAlias := "alpha-viewer"
  questionType := "fact"
  question := question
  execution := ⟨.str "qa", .singleRun, "PRJ-RETAIL-ALPHA", "alpha-viewer", none, none, none⟩
  scoring := ⟨.scorable, none⟩
  expectedHttpStatuses := none

def askedDataset (question : String) : FrozenDataset :=
  ⟨[askedCase question], List.nodup_singleton _, fun _ => none⟩

/-- The connection is refused. -/
def unreachable : Services where
  createRun _ := .error .infra
  pollRun _ := .error .infra
  resumeRun := .error .infra
  countRuns _ := .error .infra
  waitingHash := .error .infra
  requestIdForRun := none
  captureSideEffects _ := .error .infra
  collect := .error .infra
  issueDriver := none
  startedAt := ⟨2026, 1, 1, 0, 0, 0, 0⟩
  finishedAt _ := ⟨2026, 1, 1, 0, 0, 1, 0⟩

def askedState : FixtureState := ⟨fun _ => some (.ofNat 1), fun _ => some (.ofNat 2)⟩

def askedProvenance : Provenance where
  datasetVersion := .str "v0"
  dataProvenance := .str "synthetic"
  corpusVersion := .str "v0"
  goldSchemaVersion := .str "v1"
  metricDefinitionVersion := .str "v1"
  gitCommit := .str "unavailable"
  dirtyWorktree := true
  startedAt := ⟨2026, 1, 1, 0, 0, 0, 0⟩
  pythonVersion := "3.12"
  modelAlias := none
  ragflowExpectedVersion := .str "v0.17"
  datasetSha256 := .str "00"
  corpusSha256 := .str "00"
  goldSha256 := .str "00"
  evaluationNamespace := .str "ws8"

def everyCase : Selection := ⟨none, none, none, none⟩

theorem asked_selected (question : String) :
    selectCases (askedDataset question) everyCase = .ok [askedCase question] :=
  rfl

theorem asked_manifest (question : String) : ∃ manifest,
    written asciiLanguage (manifestPayload "run-001" askedProvenance [askedCase question]) =
      .ok manifest := by
  have hnamespace : Fine asciiLanguage
      (.dict (members [("evaluation_namespace", .str "ws8")])) := by
    refine .dict (by decide +kernel) fun field hfield => ?_
    obtain rfl := List.mem_singleton.mp hfield
    exact .plain (by decide)
  have hids : Fine asciiLanguage (.list [.str "Q001"]) := by
    refine .list fun item hitem => ?_
    obtain rfl := List.mem_singleton.mp hitem
    exact .plain (by decide)
  have hversion (text : String) (h : Plain text.toList := by decide) :
      Fine asciiLanguage (.str text) := .plain h
  have hkeys : ∀ field ∈ manifestFields "run-001" askedProvenance [askedCase ""] (.str "ws8"),
      isSecretKey asciiLanguage field.1 = false := by
    decide +kernel
  refine ⟨.dict (members (manifestFields "run-001" askedProvenance [askedCase question]
    (.str "ws8"))),
    written_ok_iff.mpr ⟨rfl, (Fine.dict hkeys ?_).passes⟩⟩
  unfold manifestFields
  simp only [List.forall_mem_cons]
  exact ⟨hversion "run-001", hversion "v0", hversion "synthetic", hversion "v0", hversion "v1",
    hversion "v1",
    hversion "unavailable", .bool true, hids, .plain (isoformat_plain _), hversion "3.12", .null,
      .null, hversion "v0.17",
    .null, .nil, .nil, hversion "ws8-task4-v0", hversion "00", hversion "00", hversion "00",
      hnamespace,
    fun _ h => absurd h List.not_mem_nil⟩

theorem run_completes_iff_sample : Complete plainPython "run-001" [askedCase "where-is-the-report"]
    (run asciiLanguage askedState (askedDataset "where-is-the-report")
      (fun _ => unreachable) "run-001" askedProvenance
      everyCase ⟨none, []⟩) := by
  obtain ⟨manifest, hmanifest⟩ := asked_manifest "where-is-the-report"
  refine (run_completes_iff asciiLanguage_lawful (fun _ => rfl) (asked_selected _) hmanifest).mpr
    fun frozen hfrozen => ?_
  obtain rfl := List.mem_singleton.mp hfrozen
  refine ⟨by decide, ?_⟩
  change FallbackSafe asciiLanguage (askedCase "where-is-the-report")
  exact ⟨Plain.scanned (by decide), Plain.scanned (by decide), Plain.scanned (by decide),
    Plain.scanned (by decide), "qa", rfl,
    Plain.scanned (by decide)⟩

/-- The question of a case has a bearer token, and the connection is refused: the fallback is
refused too. -/
theorem token_question_aborts :
    (∃ manifest, written asciiLanguage
      (manifestPayload "run-001" askedProvenance [askedCase "why is Bearer abcdefgh rejected"]) =
        .ok manifest) ∧
    ¬ Complete plainPython "run-001" [askedCase "why is Bearer abcdefgh rejected"]
      (run asciiLanguage askedState (askedDataset "why is Bearer abcdefgh rejected")
        (fun _ => unreachable) "run-001"
        askedProvenance everyCase ⟨none, []⟩) := by
  obtain ⟨manifest, hmanifest⟩ := asked_manifest "why is Bearer abcdefgh rejected"
  refine ⟨⟨manifest, hmanifest⟩, fun h => ?_⟩
  have hwell := wellTried_of_complete asciiLanguage_lawful (fun _ => rfl)
    (asked_selected _) hmanifest h _ List.mem_cons_self
  have hsafe : FallbackSafe asciiLanguage (askedCase "why is Bearer abcdefgh rejected") := hwell.2
  have hbearer : (bearerRe asciiLanguage).search "why is Bearer abcdefgh rejected".toList =
      true := by decide +kernel
  exact Bool.false_ne_true ((text_safe_iff.mp (hsafe.question "$")).1.symm.trans hbearer)

end ProjectAgent.Evaluation
