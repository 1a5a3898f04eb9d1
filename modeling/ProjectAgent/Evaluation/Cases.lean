/-
What is left of one case, and of one after another. A trial that is refused as no
JSON, for a number that is none or a text that is no UTF-8, is not replaced: there the
run ends with the error, and so it does where the replacement is refused too.
-/
import ProjectAgent.Evaluation.Fallbacks
import ProjectAgent.Lib.Related

namespace ProjectAgent.Evaluation

open Json (Value)

variable {lang : Language}

/-! ## A case -/

section Cases

variable (lang : Language) (python : Python) (state : FixtureState) (dataset : FrozenDataset)

/-- The document is loaded as the first trial of the case. -/
def LoadsAs (frozen : FrozenCase) (document : Raw) : Prop :=
  ∃ saved, loadDocument python document = .ok saved ∧ saved.caseId = frozen.caseId ∧
    saved.trialNo = 1

/-- The case's trial is let into its file and loaded as the case's; or an exception is raised, or
the trial refused as unsafe or of a wrong type, and no text of the case looks like a secret. -/
def WellTried (services : Services) (frozen : FrozenCase) : Prop :=
  safeSegment frozen.caseId = true ∧
    match (attempted lang state dataset services frozen).1 with
    | .ok trial =>
      match written lang trial.payload with
      | .ok document => LoadsAs python frozen document
      | .error error => error.caught = true ∧ FallbackSafe lang frozen
    | .error .baseException => False
    | .error _ => FallbackSafe lang frozen

variable {lang python state dataset} {services : Services} {frozen : FrozenCase}
  {dir dir' : RunDirectory} {trial : Trial}
  {attempt : Attempt} {classification : TrialClassification} {errorCategory : String} {n : Nat}

theorem written_failed_iff (services : Services) (attempt : Attempt)
    (classification : TrialClassification) (n : Nat) (law : lang.Lawful)
    (hcategory : Plain errorCategory.toList) :
    (∃ document, written lang
      (failedTrial lang services frozen attempt classification errorCategory n).payload =
      .ok document) ↔
      FallbackSafe lang frozen := by
  constructor
  · rintro ⟨document, h⟩
    obtain ⟨hdocument, hpasses⟩ := written_ok_iff.mp h
    obtain rfl := Except.ok.inj ((toJsonable_failed ..).symm.trans hdocument)
    exact (failed_passes_iff law hcategory).mp hpasses
  · exact fun h => ⟨_, written_ok_iff.mpr ⟨toJsonable_failed ..,
      (failed_passes_iff law hcategory).mpr h⟩⟩

theorem written_failed_loads (hint : ∀ value, python.int (.int value) = .ok value) {document : Raw}
    (h : written lang (failedTrial lang services frozen attempt classification errorCategory
      n).payload = .ok document) :
    LoadsAs python frozen document := by
  obtain rfl := Except.ok.inj ((toJsonable_failed ..).symm.trans (written_ok_iff.mp h).1)
  exact failed_loads hint

theorem writeTrial_ok_iff :
    writeTrial lang dir frozen trial = .ok dir' ↔ safeSegment frozen.caseId = true ∧
    ∃ document, written lang trial.payload = .ok document ∧
      dir' = dir.put frozen.caseId "trial-001.json" document := by
  unfold writeTrial
  split
  · next hsegment =>
    rw [Fallible.bind_eq_ok]
    refine ⟨fun ⟨document, hdocument, h⟩ =>
      ⟨hsegment, document, hdocument, (Except.ok.inj h).symm⟩, ?_⟩
    rintro ⟨-, document, hdocument, rfl⟩
    exact ⟨document, hdocument, rfl⟩
  · next hsegment => exact ⟨fun h => (nomatch h), fun h => absurd h.1 hsegment⟩

theorem writeTrial_segment {error : WriteError} (hsegment : safeSegment frozen.caseId = true) :
    writeTrial lang dir frozen trial = .error error ↔
      written lang trial.payload = .error error := by
  unfold writeTrial
  rw [if_pos hsegment]
  cases written lang trial.payload with
  | ok document => exact ⟨fun h => (nomatch h), fun h => (nomatch h)⟩
  | error e =>
    exact ⟨fun h => congrArg _ (Except.error.inj h), fun h => congrArg _ (Except.error.inj h)⟩

/-- A fallback is written and loaded, or refused, as the case's texts are safe or not. -/
theorem writeFailed_cases (services : Services) (attempt : Attempt)
    (classification : TrialClassification) (n : Nat) (dir : RunDirectory) (law : lang.Lawful)
    (hint : ∀ value, python.int (.int value) = .ok value) (hcategory : Plain errorCategory.toList)
    (hsegment : safeSegment frozen.caseId = true) :
    (FallbackSafe lang frozen ∧ ∃ document, LoadsAs python frozen document ∧
        writeTrial lang dir frozen
          (failedTrial lang services frozen attempt classification errorCategory n) =
          .ok (dir.put frozen.caseId "trial-001.json" document)) ∨
      (¬ FallbackSafe lang frozen ∧ ∃ error,
        writeTrial lang dir frozen
          (failedTrial lang services frozen attempt classification errorCategory n) =
          .error error) := by
  cases hwritten : written lang
    (failedTrial lang services frozen attempt classification errorCategory n).payload with
  | ok document =>
    exact .inl ⟨(written_failed_iff services attempt classification n law hcategory).mp ⟨document,
      hwritten⟩, document, written_failed_loads hint hwritten,
      writeTrial_ok_iff.mpr ⟨hsegment, document, hwritten, rfl⟩⟩
  | error error =>
    refine .inr ⟨fun hsafe => ?_, error, (writeTrial_segment hsegment).mpr hwritten⟩
    obtain ⟨document, hdocument⟩ :=
      (written_failed_iff services attempt classification n law hcategory).mpr hsafe
    exact nomatch hdocument.symm.trans hwritten

/-- A trial is written, or replaced if the case's texts are safe. -/
theorem writeOrReplace_cases (services : Services) (attempt : Attempt) (dir : RunDirectory)
    (trial : Trial) (law : lang.Lawful) (hint : ∀ value, python.int (.int value) = .ok value)
    (hsegment : safeSegment frozen.caseId = true) :
    (∃ trial' document, writeOrReplace lang services frozen attempt dir trial =
        .ok (trial', dir.put frozen.caseId "trial-001.json" document) ∧
      (written lang trial.payload = .ok document ∨
        (∃ error, written lang trial.payload = .error error ∧ error.caught = true) ∧
          FallbackSafe lang frozen ∧
          LoadsAs python frozen document)) ∨
    ∃ error, written lang trial.payload = .error error ∧
      ¬ (error.caught = true ∧ FallbackSafe lang frozen) ∧
      ∃ error', writeOrReplace lang services frozen attempt dir trial = .error error' := by
  unfold writeOrReplace
  cases hwritten : written lang trial.payload with
  | ok document =>
    rw [writeTrial_ok_iff.mpr ⟨hsegment, document, hwritten, rfl⟩]
    exact .inl ⟨trial, document, rfl, .inl rfl⟩
  | error error =>
    rw [(writeTrial_segment hsegment).mpr hwritten]
    dsimp only
    by_cases hcaught : error.caught = true
    · rw [if_pos hcaught]
      have hcategory : Plain "UNSAFE_OR_UNSERIALIZABLE_ARTIFACT".toList := by decide
      obtain ⟨hsafe, document, hloads, hput⟩ | ⟨hrefused, error', herror⟩ :=
        writeFailed_cases services attempt .runnerFailure 1 dir law hint hcategory hsegment
      · rw [hput]
        exact .inl ⟨_, document, rfl, .inr ⟨⟨error, rfl, hcaught⟩, hsafe, hloads⟩⟩
      · rw [herror]
        exact .inr ⟨error, rfl, fun h => hrefused h.2, error', rfl⟩
    · rw [if_neg hcaught]
      exact .inr ⟨error, rfl, fun h => hcaught h.1, error, rfl⟩

/-- A failure is written if the case's texts are safe, and nothing is if they are not. -/
theorem writeFailure_cases (dir : RunDirectory) (law : lang.Lawful)
    (hint : ∀ value, python.int (.int value) = .ok value) (hcategory : Plain errorCategory.toList)
    (hsegment : safeSegment frozen.caseId = true)
    (htrial : trial = failedTrial lang services frozen attempt classification errorCategory n) :
    (FallbackSafe lang frozen ∧ ∃ trial' document,
      writeOrReplace lang services frozen attempt dir trial =
        .ok (trial', dir.put frozen.caseId "trial-001.json" document) ∧
          LoadsAs python frozen document) ∨
      (¬ FallbackSafe lang frozen ∧ ∃ error, writeOrReplace lang services frozen attempt dir trial =
        .error error) := by
  subst htrial
  have hiff : _ ↔ FallbackSafe lang frozen :=
    written_failed_iff services attempt classification n law hcategory
  obtain ⟨trial', document, hput, hwritten | ⟨-, hsafe, hloads⟩⟩ | ⟨error, hwritten, -, herror⟩ :=
    writeOrReplace_cases services attempt dir
      (failedTrial lang services frozen attempt classification errorCategory n) law
      hint hsegment
  · exact .inl ⟨hiff.mp ⟨document, hwritten⟩, trial', document, hput,
      written_failed_loads hint hwritten⟩
  · exact .inl ⟨hsafe, trial', document, hput, hloads⟩
  · refine .inr ⟨fun hsafe => ?_, herror⟩
    obtain ⟨document, hdocument⟩ := hiff.mpr hsafe
    exact nomatch hdocument.symm.trans hwritten

/-- Under an id that is no name of a directory nothing is written. -/
theorem runCase_segment (hsegment : ¬ safeSegment frozen.caseId = true) :
    ∃ error, runCase lang state dataset services frozen dir = .error error := by
  unfold runCase
  split
  · exact ⟨_, rfl⟩
  · unfold writeOrReplace writeTrial
    rw [if_neg hsegment]
    exact ⟨_, rfl⟩

/-- A case is aborted and not well tried, or leaves a document that is loaded as the case's exactly
if it is well tried. -/
theorem runCase_cases (state : FixtureState) (dataset : FrozenDataset) (services : Services)
    (frozen : FrozenCase) (dir : RunDirectory) (law : lang.Lawful)
    (hint : ∀ value, python.int (.int value) = .ok value) :
    ((∃ error, runCase lang state dataset services frozen dir = .error error) ∧
      ¬ WellTried lang python state dataset services frozen) ∨
    ∃ trial document, runCase lang state dataset services frozen dir =
        .ok (trial, dir.put frozen.caseId "trial-001.json" document) ∧
      (LoadsAs python frozen document ↔ WellTried lang python state dataset services frozen) := by
  by_cases hsegment : safeSegment frozen.caseId = true
  swap
  · exact .inl ⟨runCase_segment hsegment, fun h => hsegment h.1⟩
  have hfailure (category : String) (hcategory : Plain category.toList)
    (classification : TrialClassification)
      (hobtained : obtained lang state dataset services frozen =
        .ok (failedTrial lang services frozen
        (attempted lang state dataset services frozen).2 classification category 0))
      (hwell : WellTried lang python state dataset services frozen ↔ FallbackSafe lang frozen) :
      ((∃ error, runCase lang state dataset services frozen dir = .error error) ∧
        ¬ WellTried lang python state dataset services frozen) ∨
      ∃ trial document, runCase lang state dataset services frozen dir =
          .ok (trial, dir.put frozen.caseId "trial-001.json" document) ∧
        (LoadsAs python frozen document ↔ WellTried lang python state dataset services frozen) := by
    unfold runCase
    rw [hobtained]
    obtain ⟨hsafe, trial, document, hput, hloads⟩ | ⟨hrefused, error, herror⟩ :=
      writeFailure_cases dir law hint hcategory hsegment rfl
    · dsimp only
      rw [hput]
      exact .inr ⟨trial, document, rfl, fun _ => hwell.mpr hsafe, fun _ => hloads⟩
    · dsimp only
      rw [herror]
      exact .inl ⟨⟨_, rfl⟩, fun h => hrefused (hwell.mp h)⟩
  cases hattempted : attempted lang state dataset services frozen with
  | mk result attempt =>
  cases result with
  | error raised =>
    cases raised with
    | infra =>
      refine hfailure "INFRA_OR_TIMEOUT" (by decide) .infraFailure ?_ ?_
      · unfold obtained
        rw [hattempted]
      · unfold WellTried
        rw [hattempted]
        exact and_iff_right hsegment
    | exception =>
      refine hfailure "SCENARIO_OR_COLLECTOR_FAILURE" (by decide) .runnerFailure ?_ ?_
      · unfold obtained
        rw [hattempted]
      · unfold WellTried
        rw [hattempted]
        exact and_iff_right hsegment
    | baseException =>
      refine .inl ⟨⟨.raised .baseException, ?_⟩, ?_⟩
      · unfold runCase obtained
        rw [hattempted]
      · unfold WellTried
        rw [hattempted]
        exact And.right
  | ok trial =>
    have hobtained : obtained lang state dataset services frozen = .ok trial := by
      unfold obtained
      rw [hattempted]
    have hwell : WellTried lang python state dataset services frozen ↔
        match written lang trial.payload with
        | .ok document => LoadsAs python frozen document
        | .error error => error.caught = true ∧ FallbackSafe lang frozen := by
      unfold WellTried
      rw [hattempted]
      exact and_iff_right hsegment
    unfold runCase
    rw [hobtained]
    dsimp only
    obtain ⟨trial', document, hput, hwritten | ⟨⟨error, hwritten, hcaught⟩, hsafe, hloads⟩⟩ |
        ⟨error, hwritten, hrefused, error', herror⟩ :=
      writeOrReplace_cases services (attempted lang state dataset services frozen).2 dir trial law
        hint hsegment
    · rw [hput]
      rw [hwritten] at hwell
      exact .inr ⟨trial', document, rfl, hwell.symm⟩
    · rw [hput]
      rw [hwritten] at hwell
      exact .inr ⟨trial', document, rfl, fun _ => hwell.mpr ⟨hcaught, hsafe⟩, fun _ => hloads⟩
    · rw [herror]
      rw [hwritten] at hwell
      exact .inl ⟨⟨_, rfl⟩, fun h => hrefused (hwell.mp h)⟩

end Cases

/-! ## The run -/

theorem filter_key {α : Type} {key : α → String} {l : List α} (p : α → Bool)
    (hnodup : (l.map key).Nodup) {a : α} (ha : a ∈ l) (hp : p a = true) :
    (l.filter fun b => key b = key a && p b) = [a] := by
  induction l with
  | nil => exact absurd ha List.not_mem_nil
  | cons b l ih =>
    rw [List.map_cons, List.nodup_cons] at hnodup
    have hothers (c : α) (hc : key c ∉ l.map key) :
        (l.filter fun b => key b = key c && p b) = [] := by
      refine List.filter_eq_nil_iff.mpr fun d hd hboth => hc ?_
      have hkey : key d = key c := of_decide_eq_true (Bool.and_eq_true _ _ ▸ hboth).1
      exact hkey ▸ List.mem_map_of_mem hd
    rcases List.mem_cons.mp ha with rfl | ha
    · rw [List.filter_cons_of_pos (by simp [hp]), hothers a hnodup.1]
    · have hne : key b ≠ key a := fun heq => hnodup.1 (heq ▸ List.mem_map_of_mem ha)
      rw [List.filter_cons_of_neg (by simp [hne])]
      exact ih hnodup.2 ha

section Runs

variable (lang : Language) (python : Python) (state : FixtureState) (dataset : FrozenDataset)
  (services : String → Services)

/-- The run has ended and left one trial file for each selected case and no other; each is loaded,
and so is the directory. -/
structure Complete (name : String) (selected : List FrozenCase)
    (result : Except Aborted (List Trial) × RunDirectory) :
    Prop where
  returned : ∃ trials, result.1 = .ok trials ∧ trials.length = selected.length
  files : (result.2.cases.map fun file => (file.1, file.2.1)).Perm (selected.map fun frozen =>
    (frozen.caseId, "trial-001.json"))
  loadable : ∀ file ∈ result.2.cases, ∃ saved, loadDocument python file.2.2 = .ok saved
  accepted : ∃ saved, loadSavedRun python name result.2 = .ok saved

/-- The file that a case has left, with a document that is loaded as the case's if it is well
tried. -/
def Left (frozen : FrozenCase) (file : String × String × Raw) : Prop :=
  file.1 = frozen.caseId ∧ file.2.1 = "trial-001.json" ∧
    (LoadsAs python frozen file.2.2 ↔
      WellTried lang python state dataset (services frozen.caseId) frozen)

variable {lang python state dataset services} {selected : List FrozenCase} {dir : RunDirectory}

theorem put_new {caseId name : String} {document : Raw} (h : caseId ∉ dir.cases.map (·.1)) :
    dir.put caseId name document = { dir with
      cases := dir.cases ++ [(caseId, name, document)] } := by
  unfold RunDirectory.put
  congr 2
  refine List.filter_eq_self.mpr fun file hfile => ?_
  have hne : file.1 ≠ caseId := fun heq => h (heq ▸ List.mem_map_of_mem hfile)
  simp [hne]

/-- The run is aborted by a case that is not well tried, or each case has left a file of its own. -/
theorem runCases_cases (dir : RunDirectory) (law : lang.Lawful)
    (hint : ∀ value, python.int (.int value) = .ok value)
    (hnodup : (dir.cases.map (·.1) ++ selected.map (·.caseId)).Nodup) :
    ((∃ error, (runCases lang state dataset services selected dir).1 = .error error) ∧
      ∃ frozen ∈ selected, ¬ WellTried lang python state dataset (services frozen.caseId) frozen) ∨
    ∃ trials files, trials.length = selected.length ∧
      List.Forall₂ (Left lang python state dataset services) selected files ∧
      runCases lang state dataset services selected dir = (.ok trials, { dir with
        cases := dir.cases ++ files }) := by
  induction selected generalizing dir with
  | nil =>
    refine .inr ⟨[], [], rfl, .nil, ?_⟩
    rw [List.append_nil]
    rfl
  | cons frozen rest ih =>
    unfold runCases
    obtain ⟨⟨error, herror⟩, hill⟩ | ⟨trial, document, hput, hloads⟩ :=
      runCase_cases state dataset (services frozen.caseId) frozen dir law hint
    · rw [herror]
      exact .inl ⟨⟨error, rfl⟩, frozen, List.mem_cons_self, hill⟩
    · have hnew : frozen.caseId ∉ dir.cases.map (·.1) := by
        rw [List.map_cons] at hnodup
        exact fun hmem => (List.nodup_append.mp hnodup).2.2 _ hmem _ List.mem_cons_self rfl
      have hrest : ((dir.put frozen.caseId "trial-001.json" document).cases.map (·.1) ++
          rest.map (·.caseId)).Nodup := by
        rw [put_new hnew, List.map_append, List.append_assoc]
        exact hnodup
      rw [hput]
      dsimp only
      obtain ⟨⟨error, herror⟩, other, hother, hill⟩ | ⟨trials, files, hlength, hleft, hruns⟩ :=
        ih _ hrest
      · refine .inl ⟨⟨error, ?_⟩, other, List.mem_cons_of_mem _ hother, hill⟩
        split
        · next hruns =>
          rw [hruns] at herror
          cases herror
        · next hruns =>
          rw [hruns] at herror
          exact herror
      · rw [hruns]
        refine .inr ⟨trial :: trials, (frozen.caseId, "trial-001.json", document) :: files,
          congrArg Nat.succ hlength, .cons ⟨rfl, rfl, hloads⟩ hleft, ?_⟩
        rw [put_new hnew, List.append_assoc]
        rfl

theorem forall2_files {files : List (String × String × Raw)}
    (h : List.Forall₂ (Left lang python state dataset services) selected files) :
    files.map (fun file => (file.1, file.2.1)) = selected.map fun frozen =>
      (frozen.caseId, "trial-001.json") := by
  induction h with
  | nil => rfl
  | cons hleft _ ih =>
    rw [List.map_cons, List.map_cons, ih, hleft.1, hleft.2.1]

/-- The case's own file is the one that is looked at. -/
theorem loadCase_iff {files : List (String × String × Raw)} {manifest : Option Raw}
    (hnodup : (files.map (·.1)).Nodup) {file : String × String × Raw} (hfile : file ∈ files)
    (hname : file.2.1 = "trial-001.json") {frozen : FrozenCase} (hcase : file.1 = frozen.caseId) :
    (∃ saved, loadCase python ⟨manifest, files⟩ frozen.caseId = .ok saved) ↔
      LoadsAs python frozen file.2.2 := by
  have htrial : isTrialName file.2.1 = true := by
    rw [hname]
    decide
  have hfilter := filter_key (fun file => isTrialName file.2.1) hnodup hfile htrial
  rw [hcase] at hfilter
  obtain ⟨directory, name, document⟩ := file
  unfold loadCase
  dsimp only
  rw [hfilter]
  dsimp only
  constructor
  · rintro ⟨saved, h⟩
    obtain ⟨item, hitem, h⟩ := Fallible.bind_eq_ok.mp h
    by_cases hidentity : (item.caseId ≠ frozen.caseId || item.trialNo ≠ 1) = true
    · rw [if_pos hidentity] at h
      cases h
    · simp only [Bool.or_eq_true, decide_eq_true_eq, not_or, not_not] at hidentity
      exact ⟨item, hitem, hidentity⟩
  · rintro ⟨saved, hloaded, hid, hno⟩
    refine ⟨saved, Fallible.bind_eq_ok.mpr ⟨saved, hloaded, ?_⟩⟩
    rw [if_neg (by simp [hid, hno])]
    rfl

end Runs

end ProjectAgent.Evaluation
