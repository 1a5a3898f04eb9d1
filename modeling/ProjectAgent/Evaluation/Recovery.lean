/-
Whether a second `prepare` takes up what a failed one left. `ensure_space`
writes the project's code into the description of a dataset, and the audit
expects the project's UUID there: no dataset that a run created passes, and
what passes no run created.
-/
import ProjectAgent.Evaluation.Prepare

namespace ProjectAgent.Evaluation

open Interleave Interleave.Prog Ragflow

variable {py : Ragflow.Python} {uuid5 : UUID → String → UUID} {config : Config} {ns : String}
  {served : Nat → Except String Any}

/-! ## The pages the audit reads -/

/-- The items of the pages, up to a short one that is not the last of those left. -/
inductive Reads (py : Ragflow.Python) (served : Nat → Except String Any) :
    (pages page : Nat) → List (List String) → List Fields → Prop
  | last {pages page : Nat} {seenPages : List (List String)} {response : Any} {items : List Fields}
    (response_eq : served page = .ok response) (objects_eq : objects response = some items)
    (advances : ¬ (items.map (idOf py) ≠ [] ∧ items.map (idOf py) ∈ seenPages))
      (short : items.length < 100) :
    Reads py served (pages + 1) page seenPages items
  | next {pages page : Nat} {seenPages : List (List String)} {response : Any}
      {items rest : List Fields}
    (response_eq : served page = .ok response) (objects_eq : objects response = some items)
    (advances : ¬ (items.map (idOf py) ≠ [] ∧ items.map (idOf py) ∈ seenPages))
      (full : ¬ items.length < 100)
    (more : Reads py served pages (page + 1) (seenPages ++ [items.map (idOf py)]) rest) :
    Reads py served (pages + 1) page seenPages (items ++ rest)

theorem note_append (items others : List Fields) (found : List (String × Fields)) :
    note py ns (items ++ others) found = (note py ns items found).bind (note py ns others) := by
  induction items generalizing found with
  | nil => rfl
  | cons item items ih =>
    rw [List.cons_append]
    unfold note
    cases codeOf py ns (fieldText py item "name") with
    | none => exact ih found
    | some code =>
      dsimp only
      split
      · rfl
      · split
        · rfl
        · exact ih _

theorem collect_ok_iff {pages page : Nat} {seenPages : List (List String)}
    {found found' : List (String × Fields)} :
    collect py ns served pages page seenPages found = .ok found' ↔
      ∃ items, Reads py served pages page seenPages items ∧
        note py ns items found = .ok found' := by
  induction pages generalizing page seenPages found with
  | zero => exact ⟨nofun, fun ⟨_, h, _⟩ => nomatch h⟩
  | succ pages ih =>
    unfold collect
    rw [Fallible.bind_eq_ok]
    constructor
    · rintro ⟨response, hresponse, h⟩
      cases hobjects : objects response with
      | none =>
        rw [hobjects] at h
        cases h
      | some items =>
        rw [hobjects] at h
        dsimp only at h
        split at h
        · cases h
        · next hadvances =>
          obtain ⟨noted, hnoted, h⟩ := Fallible.bind_eq_ok.mp h
          split at h
          · next hshort =>
            cases h
            exact ⟨items, .last hresponse hobjects hadvances hshort, hnoted⟩
          · next hfull =>
            obtain ⟨rest, hrest, hnote⟩ := ih.mp h
            refine ⟨items ++ rest, .next hresponse hobjects hadvances hfull hrest, ?_⟩
            rw [note_append, hnoted]
            exact hnote
    · rintro ⟨items, hreads, hnote⟩
      cases hreads with
      | last hresponse hobjects hadvances hshort =>
        refine ⟨_, hresponse, ?_⟩
        rw [hobjects]
        dsimp only
        rw [if_neg hadvances, Fallible.bind_eq_ok]
        exact ⟨found', hnote, if_pos hshort⟩
      | @next _ _ _ _ first rest hresponse hobjects hadvances hfull hmore =>
        refine ⟨_, hresponse, ?_⟩
        rw [hobjects]
        dsimp only
        rw [if_neg hadvances, Fallible.bind_eq_ok]
        rw [note_append] at hnote
        obtain ⟨noted, hnoted, hnote⟩ := Fallible.bind_eq_ok.mp hnote
        exact ⟨noted, hnoted, (if_neg hfull).trans (ih.mpr ⟨rest, hmore, hnote⟩)⟩

/-! ## What is found on them -/

/-- The items with the folded name of a project's dataset. -/
def matched (py : Ragflow.Python) (ns : String) (items : List Fields) : List (String × Fields) :=
  items.filterMap fun item => (codeOf py ns (fieldText py item "name")).map (·, item)

theorem mem_matched {items : List Fields} {code : String} {item : Fields} :
    (code, item) ∈ matched py ns items ↔ item ∈ items ∧
      codeOf py ns (fieldText py item "name") = some code := by
  unfold matched
  rw [List.mem_filterMap]
  constructor
  · rintro ⟨other, hmem, hcode⟩
    obtain ⟨_, hcode, heq⟩ := Option.map_eq_some_iff.mp hcode
    cases heq
    exact ⟨hmem, hcode⟩
  · rintro ⟨hmem, hcode⟩
    exact ⟨item, hmem, by rw [hcode]; rfl⟩

/-- Each is named exactly, and no two are of one project. -/
structure Sound (py : Ragflow.Python) (ns : String) (found : List (String × Fields)) : Prop where
  exact : ∀ code item, (code, item) ∈ found → fieldText py item "name" = ragflowDatasetName ns code
  nodup : (found.map Prod.fst).Nodup

theorem note_ok_iff {items : List Fields} {found found' : List (String × Fields)}
    (hfound : Sound py ns found) :
    note py ns items found = .ok found' ↔ found' = found ++ matched py ns items ∧
      Sound py ns found' := by
  induction items generalizing found with
  | nil =>
    unfold note matched
    rw [List.filterMap_nil, List.append_nil]
    constructor
    · intro h
      cases h
      exact ⟨rfl, hfound⟩
    · rintro ⟨rfl, -⟩
      rfl
  | cons item items ih =>
    unfold note
    cases hcode : codeOf py ns (fieldText py item "name") with
    | none =>
      have hsame : matched py ns (item :: items) = matched py ns items :=
        List.filterMap_cons_none (by rw [hcode]; rfl)
      rw [hsame]
      exact ih hfound
    | some code =>
      have hsplit : found ++ matched py ns (item :: items) = (found ++ [(code, item)]) ++
          matched py ns items := by
        rw [List.append_assoc]
        refine congrArg (found ++ ·) (List.filterMap_cons_some ?_)
        rw [hcode]
        rfl
      have hin : ∀ rest, (code, item) ∈ (found ++ [(code, item)]) ++ rest :=
        fun rest => List.mem_append_left _ (List.mem_append_right _ List.mem_cons_self)
      dsimp only
      rw [hsplit]
      by_cases hname : fieldText py item "name" = ragflowDatasetName ns code
      · rw [if_neg (not_not.mpr hname)]
        by_cases hdup : code ∈ found.map Prod.fst
        · rw [if_pos hdup]
          refine ⟨nofun, ?_⟩
          rintro ⟨rfl, hsound⟩
          have hnodup := hsound.nodup
          rw [List.map_append, List.map_append] at hnodup
          have := (List.nodup_append.mp (List.nodup_append.mp hnodup).1).2.2 code hdup
            code (by simp)
          exact absurd rfl this
        · rw [if_neg hdup]
          refine ih ⟨?_, ?_⟩
          · intro other entry hmem
            rcases List.mem_append.mp hmem with hmem | hmem
            · exact hfound.exact other entry hmem
            · cases List.mem_singleton.mp hmem
              exact hname
          · rw [List.map_append]
            refine List.nodup_append.mpr ⟨hfound.nodup, List.nodup_singleton _, ?_⟩
            intro other hother last hlast heq
            rw [List.map_singleton, List.mem_singleton] at hlast
            subst heq
            subst hlast
            exact hdup hother
      · rw [if_pos hname]
        refine ⟨nofun, ?_⟩
        rintro ⟨rfl, hsound⟩
        exact absurd (hsound.exact code item (hin _)) hname

theorem checkFound_ok_iff {recoveryIds : Dict String} {found : List (String × Fields)} :
    checkFound py uuid5 ns recoveryIds found = .ok () ↔ ∀ code item, (code, item) ∈ found →
      recoveryIds.lookup code = some (idOf py item) ∧
        describedAs item (expectedDescription uuid5 ns code) := by
  induction found with
  | nil => exact ⟨fun _ _ _ h => (List.not_mem_nil h).elim, fun _ => rfl⟩
  | cons entry found ih =>
    obtain ⟨first, item⟩ := entry
    unfold checkFound
    constructor
    · intro h
      split_ifs at h with hid hdescribed
      rintro code other hmem
      rcases List.mem_cons.mp hmem with heq | hmem
      · cases heq
        exact ⟨not_not.mp hid, hdescribed⟩
      · exact ih.mp h code other hmem
    · intro h
      obtain ⟨hid, hdescribed⟩ := h first item List.mem_cons_self
      rw [if_neg (not_not.mpr hid), if_neg (not_not.mpr hdescribed)]
      exact ih.mpr fun code other hmem => h code other (List.mem_cons_of_mem _ hmem)

/-! ## What the audit accepts -/

/-- Some dataset is found, and each one found is described by the UUID of its project. -/
structure Conforming (py : Ragflow.Python) (uuid5 : UUID → String → UUID) (ns : String)
    (items : List Fields) : Prop where
  some_found : matched py ns items ≠ []
  sound : Sound py ns (matched py ns items)
  described : ∀ code item, (code, item) ∈ matched py ns items →
    describedAs item (expectedDescription uuid5 ns code)

theorem sound_nil : Sound py ns [] := ⟨fun _ _ h => (List.not_mem_nil h).elim, List.nodup_nil⟩

theorem collect_iff {found : List (String × Fields)} : collect py ns served 20 1 [] [] = .ok found ↔
    ∃ items, Reads py served 20 1 [] items ∧ found = matched py ns items ∧ Sound py ns found := by
  rw [collect_ok_iff]
  refine exists_congr fun items => and_congr_right fun _ => ?_
  rw [note_ok_iff sound_nil, List.nil_append]

/-- Of no dataset for no id, or of datasets that conform, under their ids. -/
theorem audit_ok_iff {recoveryIds accepted : Dict String} :
    auditExistingProviderSpaces py uuid5 ns served recoveryIds = .ok accepted ↔
      accepted = recoveryIds ∧
      ∃ items, Reads py served 20 1 [] items ∧
        ((matched py ns items = [] ∧ recoveryIds = ∅) ∨ (Conforming py uuid5 ns items ∧
          ((matched py ns items).map Prod.fst).toFinset = recoveryIds.keys ∧
          ∀ code item, (code, item) ∈ matched py ns items →
            recoveryIds.lookup code = some (idOf py item))) := by
  unfold auditExistingProviderSpaces
  rw [Fallible.bind_eq_ok]
  constructor
  · rintro ⟨found, hcollect, h⟩
    obtain ⟨items, hreads, rfl, hsound⟩ := collect_iff.mp hcollect
    split_ifs at h with hnone hids hkeys
    · cases h
      exact ⟨(not_not.mp hids).symm, items, hreads, .inl ⟨hnone, not_not.mp hids⟩⟩
    · obtain ⟨⟨⟩, hchecked, h⟩ := Fallible.bind_eq_ok.mp h
      cases h
      have hall := checkFound_ok_iff.mp hchecked
      exact ⟨rfl, items, hreads,
        .inr ⟨⟨hnone, hsound, fun code item hmem => (hall code item hmem).2⟩, not_not.mp hkeys,
        fun code item hmem => (hall code item hmem).1⟩⟩
  · rintro ⟨rfl, items, hreads, ⟨hnone, rfl⟩ | ⟨hconforming, hkeys, hids⟩⟩
    · refine ⟨matched py ns items, collect_iff.mpr ⟨items, hreads, rfl, hnone ▸ sound_nil⟩, ?_⟩
      rw [if_pos hnone]
      exact if_neg (not_not.mpr rfl)
    · refine ⟨matched py ns items, collect_iff.mpr ⟨items, hreads, rfl, hconforming.sound⟩, ?_⟩
      rw [if_neg hconforming.some_found, if_neg (not_not.mpr hkeys), Fallible.bind_eq_ok]
      exact ⟨(), checkFound_ok_iff.mpr fun code item hmem =>
        ⟨hids code item hmem, hconforming.described code item hmem⟩, rfl⟩

/-! ## What a run creates -/

/-- The name and the description that `ensure_space` gives the dataset of a project. -/
def CreatedFor (py : Ragflow.Python) (ns code : String) (item : Fields) : Prop :=
  fieldText py item "name" = ragflowDatasetName ns code ∧ describedAs item (managedBy code)

/-- What RAGFlow keeps of the request for the dataset of a project. -/
def createdFor (ns id code : String) : Fields :=
  datasetOf id (ragflowDatasetName ns code) (managedBy code)

theorem createdFor_spec (id code : String) : CreatedFor py ns code (createdFor ns id code) := by
  have hname : (createdFor ns id code).lookup "name" =
      some (.str (ragflowDatasetName ns code)) := by
    simp [createdFor, datasetOf, List.lookup_cons]
  have hdescription : (createdFor ns id code).lookup "description" =
      some (.str (managedBy code)) := by
    simp [createdFor, datasetOf, List.lookup_cons]
  constructor
  · rw [fieldText, hname]
    rfl
  · rw [describedAs, hdescription]
    exact decide_eq_true rfl

/-- The UUID of a project is not its code. -/
theorem uuid_ne_code {code : String} (h : code ∈ projectCodes) (u : UUID) : u.str ≠ code := by
  intro heq
  have hparse := UUID.parse_str u
  rw [heq] at hparse
  have hnone : ∀ code ∈ projectCodes, UUID.parse code = none := by decide +kernel
  rw [hnone code h] at hparse
  cases hparse

theorem managedBy_inj {a b : String} (h : managedBy a = managedBy b) : a = b :=
  (String.append_right_inj _).mp h

theorem describedAs_unique {item : Fields} {a b : String} (ha : describedAs item a)
    (hb : describedAs item b) : a = b := by
  unfold describedAs at ha hb
  split at ha
  · next heq =>
    rw [heq] at hb
    exact (of_decide_eq_true ha).symm.trans (of_decide_eq_true hb)
  · cases ha

theorem codeOf_isSome {code : String} (h : code ∈ projectCodes) :
    ∃ other, codeOf py ns (ragflowDatasetName ns code) = some other := by
  unfold codeOf
  cases hfind : projectCodes.reverse.find? fun other =>
      py.casefold (ragflowDatasetName ns other) = py.casefold (ragflowDatasetName ns code) with
  | some other => exact ⟨other, rfl⟩
  | none =>
    rw [List.find?_eq_none] at hfind
    exact absurd (decide_eq_true rfl) (hfind code (List.mem_reverse.mpr h))

theorem CreatedFor.matched {items : List Fields} {code : String} {item : Fields}
    (h : CreatedFor py ns code item) (hcode : code ∈ projectCodes) (hmem : item ∈ items) :
    ∃ other, (other, item) ∈ matched py ns items := by
  have hsome : ∃ other, codeOf py ns (ragflowDatasetName ns code) = some other :=
    codeOf_isSome hcode
  obtain ⟨other, hother⟩ := hsome
  rw [← h.1] at hother
  exact ⟨other, mem_matched.mpr ⟨hmem, hother⟩⟩

/-- **Where the audit accepts a dataset, the items are of no run.** -/
theorem Conforming.not_created {items : List Fields} (h : Conforming py uuid5 ns items)
    {code : String} {item : Fields} (hcode : code ∈ projectCodes) (hmem : item ∈ items) :
    ¬ CreatedFor py ns code item := by
  intro hcreated
  obtain ⟨other, hmatched⟩ := hcreated.matched hcode hmem
  exact uuid_ne_code hcode _ (managedBy_inj
    (describedAs_unique (h.described other item hmatched) hcreated.2))

/-! ## Runs -/

variable {w w' before after : World} {given : Dict String}

/-- What the statements of `prepareSpaces` keep, from the world before. -/
structure Traced (ns : String) (before w : World) : Prop where
  again : w.again = before.again
  listed : ∀ code id, (code, id) ∈ w.created → code ∈ projectCodes ∧
    createdFor ns id code ∈ w.datasets
  unchanged : w.created = [] → w.datasets = before.datasets

def Traces (ns : String) (before w w' : World) : Prop := Traced ns before w → Traced ns before w'

/-- A dataset is asked for in the name of its project, and described as of it. -/
def AsksInName (ns : String) : Stmt → Prop
  | .request (.createDataset name description _ _) =>
    ∃ code ∈ projectCodes, name = ragflowDatasetName ns code ∧ description = managedBy code
  | _ => True

theorem Traced.answered {s : Stmt} {x : Except RagflowError s.Answer} (hs : AsksInName ns s)
    (hx : answers s w x w') (h : Traced ns before w) : Traced ns before w' := by
  cases s with
  | request r =>
    cases r with
    | createDataset name description chunkMethod embeddingModel =>
      obtain ⟨code, hcode, rfl, rfl⟩ := hs
      rcases hx with ⟨rfl, -⟩ | ⟨id, ⟨front, back, named, hnamed, hdatasets, rfl⟩, -⟩
      · exact h
      · obtain rfl : code = named := managedBy_inj hnamed
        refine ⟨h.again, ?_, fun hc => absurd hc (by simp)⟩
        intro code other hmem
        rcases List.mem_append.mp hmem with hmem | hmem
        · obtain ⟨hproject, hin⟩ := h.listed code other hmem
          rw [hdatasets] at hin
          refine ⟨hproject, ?_⟩
          rcases List.mem_append.mp hin with hin | hin
          · exact List.mem_append_left _ hin
          · exact List.mem_append_right _ (List.mem_cons_of_mem _ hin)
        · cases List.mem_singleton.mp hmem
          exact ⟨hcode, List.mem_append_right _ List.mem_cons_self⟩
    | _ =>
      obtain ⟨rfl, -⟩ := hx
      exact h
  | load objectKey | read =>
    obtain ⟨rfl, -⟩ := hx
    exact h
  | write maps =>
    obtain ⟨rfl, -⟩ := hx
    exact ⟨h.again, h.listed, h.unchanged⟩

theorem bindSpace_asks (projectId datasetId : String) :
    (bindSpace config projectId datasetId).Only (AsksInName ns) := by
  unfold bindSpace
  refine (Only.exec trivial).bind fun maps => ?_
  split
  · split
    · exact trivial
    · exact Only.exec trivial
  · exact Only.exec trivial

theorem prepareSpaces_asks : (prepareSpaces config ns).Only (AsksInName ns) := by
  refine Only.each fun code hcode => Only.bind ?_ fun _ => trivial
  refine (ofExcept_only _).bind fun _ => ?_
  refine Only.bind (findOrCreate_only config (fun _ => trivial) _ ⟨_, hcode, rfl, rfl⟩)
    fun datasetId => ?_
  exact (bindSpace_asks _ _).bind fun _ => trivial

/-- A run of `prepare` that created these datasets and failed: its own audit passed with the ids it
was given. -/
structure FailedRun (uuid5 : UUID → String → UUID) (config : Config) (ns : String)
    (given : Dict String) (before after : World) : Prop where
  valid : validateNamespace ns = .ok ns
  fresh : before.created = []
  audited : auditExistingProviderSpaces config.py uuid5 ns before.served given = .ok given
  prepared : ∃ r, Runs answers (prepareSpaces config ns) before r after

theorem FailedRun.traced (h : FailedRun uuid5 config ns given before after) :
    Traced ns before after := by
  obtain ⟨r, hruns⟩ := h.prepared
  have hstart : Traced ns before before := by
    refine ⟨rfl, fun code id hmem => ?_, fun _ => rfl⟩
    rw [h.fresh] at hmem
    exact absurd hmem List.not_mem_nil
  have hends : Ends answers (fun _ w => Traces ns before before w)
      (prepareSpaces config ns) before :=
    Ends.of_only (fun _ h => h) (fun _ _ _ h₁ h₂ h => h₂ (h₁ h))
      (fun _ _ _ _ hs hx (h : Traced ns before _) => h.answered hs hx) prepareSpaces_asks
  exact hends.of_runs hruns hstart

theorem objects_dicts (items : List Fields) :
    (items.map Any.dict).mapM Any.fields? = some items := by
  induction items with
  | nil => rfl
  | cons item items ih =>
    rw [List.map_cons, List.mapM_cons, ih]
    rfl

theorem served_objects {page : Nat} {response : Any} {items : List Fields}
    (h : w.served page = .ok response) (hobjects : objects response = some items) :
    items = w.listing.page page := by
  cases h
  exact Option.some.inj (hobjects.symm.trans (objects_dicts _))

/-- A short page is read, and all pages up to it. -/
theorem reads_last {pages page : Nat} {seenPages : List (List String)} {items : List Fields}
    (h : Reads py w.served pages page seenPages items) :
    ∃ last, page ≤ last ∧ (w.listing.page last).length < 100 ∧
      ∀ asked, page ≤ asked → asked ≤ last → ∀ item ∈ w.listing.page asked, item ∈ items := by
  induction h with
  | last hresponse hobjects hadvances hshort =>
    obtain rfl := served_objects hresponse hobjects
    refine ⟨_, le_rfl, hshort, fun asked hle hge => ?_⟩
    rw [Nat.le_antisymm hge hle]
    exact fun item hmem => hmem
  | next hresponse hobjects hadvances hfull hmore ih =>
    obtain rfl := served_objects hresponse hobjects
    obtain ⟨last, hle, hshort, hrest⟩ := ih
    refine ⟨last, by omega, hshort, fun asked hasked hlast item hmem => ?_⟩
    rcases Nat.eq_or_lt_of_le hasked with rfl | hlt
    · exact List.mem_append_left _ hmem
    · exact List.mem_append_right _ (hrest asked hlt hlast item hmem)

/-- Every dataset of the provider is on a page the audit reads. -/
theorem reads_all {pages : Nat} {items : List Fields} (h : Reads py w.served pages 1 [] items) :
    ∀ item ∈ w.datasets, item ∈ items := by
  obtain ⟨last, hone, hshort, hpages⟩ := reads_last h
  intro item hmem
  obtain ⟨asked, hasked, hle, hpage⟩ := Listing.covered hone hshort hmem
  exact hpages asked hasked hle item hpage

/-! ## Recovery -/

/-- A second `prepare` that names the datasets the run created passes its audit, and gets them
again. -/
def Recovers (uuid5 : UUID → String → UUID) (config : Config) (ns : String)
    (after : World) : Prop :=
  ∃ claimed, parseRecoveryIds (after.created.map fun entry => entry.1 ++ "=" ++ entry.2) =
    .ok claimed ∧
    auditExistingProviderSpaces config.py uuid5 ns after.served claimed = .ok claimed ∧
    ∀ code id, (code, id) ∈ after.created → ∀ space w,
      Runs answers (ensureSpace config (spaceRequest ns code)) after (.ok space) w →
        space.knowledgeSpaceId = id

/-- What the audit accepts has the name and the description that a run gives, and the id that was
named. -/
def OnlyCreated (py : Ragflow.Python) (uuid5 : UUID → String → UUID) (ns : String)
    (served : Nat → Except String Any) : Prop :=
  ∀ recoveryIds accepted items, auditExistingProviderSpaces py uuid5 ns served recoveryIds =
    .ok accepted →
    Reads py served 20 1 [] items → ∀ code id, accepted.lookup code = some id →
      ∃ item ∈ items, idOf py item = id ∧ CreatedFor py ns code item

/-- Some listing of this provider conforms. -/
def Accepts (py : Ragflow.Python) (uuid5 : UUID → String → UUID) (ns : String)
    (served : Nat → Except String Any) : Prop :=
  ∃ items, Reads py served 20 1 [] items ∧ Conforming py uuid5 ns items

theorem Reads.unique {pages page : Nat} {seenPages : List (List String)}
    {items others : List Fields} (h : Reads py served pages page seenPages items)
    (ho : Reads py served pages page seenPages others) : items = others := by
  induction h generalizing others with
  | last hresponse hobjects hadvances hshort =>
    cases ho with
    | last hresponse' hobjects' hadvances' hshort' =>
      cases hresponse.symm.trans hresponse'
      exact Option.some.inj (hobjects.symm.trans hobjects')
    | next hresponse' hobjects' hadvances' hfull' hmore' =>
      cases hresponse.symm.trans hresponse'
      cases hobjects.symm.trans hobjects'
      exact absurd hshort hfull'
  | next hresponse hobjects hadvances hfull hmore ih =>
    cases ho with
    | last hresponse' hobjects' hadvances' hshort' =>
      cases hresponse.symm.trans hresponse'
      cases hobjects.symm.trans hobjects'
      exact absurd hshort' hfull
    | next hresponse' hobjects' hadvances' hfull' hmore' =>
      cases hresponse.symm.trans hresponse'
      cases hobjects.symm.trans hobjects'
      rw [ih hmore']

/-- The ids of what was found. -/
def idsFound (py : Ragflow.Python) (found : List (String × Fields)) : Dict String :=
  Dict.ofList (found.map fun entry => (entry.1, idOf py entry.2))

theorem codeOf_mem {name code : String} (h : codeOf py ns name = some code) : code ∈ projectCodes :=
  List.mem_reverse.mp (List.mem_of_find?_eq_some h)

/-- The audit accepts what conforms, under its ids. -/
theorem Conforming.accepted {items : List Fields} (h : Conforming py uuid5 ns items)
    (hreads : Reads py served 20 1 [] items) :
    auditExistingProviderSpaces py uuid5 ns served (idsFound py (matched py ns items)) =
      .ok (idsFound py (matched py ns items)) := by
  have hcodes : ((matched py ns items).map fun entry => (entry.1, idOf py entry.2)).map Prod.fst =
      (matched py ns items).map Prod.fst := List.map_map
  refine audit_ok_iff.mpr ⟨rfl, items, hreads, .inr ⟨h, ?_, fun code item hmem => ?_⟩⟩
  · rw [idsFound, Dict.keys_ofList, hcodes]
  · refine Dict.lookup_ofList_of_mem ?_ (List.mem_map.mpr ⟨(code, item), hmem, rfl⟩)
    rw [hcodes]
    exact h.sound.nodup

theorem onlyCreated_iff : OnlyCreated py uuid5 ns served ↔ ¬ Accepts py uuid5 ns served := by
  constructor
  · rintro honly ⟨items, hreads, hconforming⟩
    obtain ⟨⟨code, item⟩, hmem⟩ := List.exists_mem_of_ne_nil _ hconforming.some_found
    have haudit := hconforming.accepted hreads
    obtain ⟨-, _, hreads', ⟨hnone, -⟩ | ⟨-, -, hids⟩⟩ := audit_ok_iff.mp haudit
    · rw [hreads'.unique hreads] at hnone
      exact hconforming.some_found hnone
    · rw [hreads'.unique hreads] at hids
      obtain ⟨other, hother, -, hcreated⟩ :=
        honly _ _ items haudit hreads code _ (hids code item hmem)
      exact hconforming.not_created (codeOf_mem (mem_matched.mp hmem).2) hother hcreated
  · intro hnever recoveryIds accepted items haudit hreads code id hid
    obtain ⟨rfl, others, hothers, ⟨-, rfl⟩ | ⟨hconforming, -⟩⟩ := audit_ok_iff.mp haudit
    · rw [Finmap.lookup_empty] at hid
      cases hid
    · exact absurd ⟨others, hothers, hconforming⟩ hnever

/-! ## A failed run -/

/-- With no ids the audit passes where nothing is found, and then with no ids only. -/
theorem audit_empty {accepted : Dict String}
    (h : auditExistingProviderSpaces py uuid5 ns served ∅ = .ok accepted)
    (hgiven : auditExistingProviderSpaces py uuid5 ns served given = .ok given) : given = ∅ := by
  obtain ⟨-, items, hreads, hfound⟩ := audit_ok_iff.mp h
  have hnone : matched py ns items = [] := by
    rcases hfound with ⟨hnone, -⟩ | ⟨hconforming, hkeys, -⟩
    · exact hnone
    · rw [Finmap.keys_empty, List.toFinset_eq_empty_iff, List.map_eq_nil_iff] at hkeys
      exact hkeys
  obtain ⟨-, others, hothers, ⟨-, hempty⟩ | ⟨hconforming, -⟩⟩ := audit_ok_iff.mp hgiven
  · exact hempty
  · rw [← hreads.unique hothers] at hconforming
    exact absurd hnone hconforming.some_found

theorem FailedRun.served_eq (h : FailedRun uuid5 config ns given before after)
    (hnone : after.created = []) :
    after.served = before.served := by
  have htraced := h.traced
  unfold World.served World.listing
  rw [htraced.again, htraced.unchanged hnone]

theorem FailedRun.recovers_iff (h : FailedRun uuid5 config ns given before after) :
    Recovers uuid5 config ns after ↔ after.created = [] ∧ given = ∅ := by
  constructor
  · rintro ⟨claimed, hparse, haudit, -⟩
    have hnone : after.created = [] := by
      rw [List.eq_nil_iff_forall_not_mem]
      rintro ⟨code, id⟩ hmem
      obtain ⟨hcode, hlisted⟩ := h.traced.listed code id hmem
      have hcreated : CreatedFor config.py ns code _ := createdFor_spec id code
      obtain ⟨-, items, hreads, ⟨hmatched, -⟩ | ⟨hconforming, -⟩⟩ := audit_ok_iff.mp haudit
      · obtain ⟨other, hother⟩ := hcreated.matched hcode (reads_all hreads _ hlisted)
        rw [hmatched] at hother
        exact absurd hother List.not_mem_nil
      · exact hconforming.not_created hcode (reads_all hreads _ hlisted) hcreated
    rw [hnone] at hparse
    cases hparse
    rw [h.served_eq hnone] at haudit
    exact ⟨hnone, audit_empty haudit h.audited⟩
  · rintro ⟨hnone, rfl⟩
    refine ⟨∅, ?_, ?_, fun code id hmem => ?_⟩
    · exact hnone ▸ rfl
    · rw [h.served_eq hnone]
      exact h.audited
    · rw [hnone] at hmem
      exact absurd hmem List.not_mem_nil

/-- **Recovery does what it is for exactly where nothing was created and nothing conforms.** -/
theorem recovery_iff (h : FailedRun uuid5 config ns given before after)
    (served : Nat → Except String Any) :
    Recovers uuid5 config ns after ∧ OnlyCreated config.py uuid5 ns served ↔
      (after.created = [] ∧ given = ∅) ∧ ¬ Accepts config.py uuid5 ns served := by
  rw [h.recovers_iff, onlyCreated_iff]

/-! ## Two runs over an empty provider -/

namespace Sample

def evaluationNs : String := "ws8-cli-unit"

/-- `uuid5`, of the texts of this namespace. -/
def sampleUuid5 (_ : UUID) (text : String) : UUID :=
  if text = "it-outsourcing-knowledge-agent/ws8/evaluation/ws8-cli-unit" then
    UUID.ofNat 217356928381663973905410310859677451035
  else if text = "v0\x00project:PRJ-RETAIL-ALPHA" then
    UUID.ofNat 323620443850625803199784442549000787400
  else if text = "v0\x00project:PRJ-LOGISTICS-BETA" then
    UUID.ofNat 316798708976579443909858798381045094540
  else UUID.ofNat 0

def emptyWorld : World := ⟨[], fun _ => false, .empty, []⟩

/-- The dataset of the first project was created. -/
def oneCreated : World where
  datasets := [createdFor evaluationNs "retail-owned-id" "PRJ-RETAIL-ALPHA"]
  again := fun _ => false
  maps := Maps.empty.bind "PRJ-RETAIL-ALPHA" "retail-owned-id"
  created := [("PRJ-RETAIL-ALPHA", "retail-owned-id")]

theorem reads_empty {items : List Fields} (h : Reads py emptyWorld.served 20 1 [] items) :
    items = [] := by
  have hempty : Reads py emptyWorld.served 20 1 [] [] := by
    exact .last rfl rfl (fun hc => hc.1 rfl) (by decide)
  exact h.unique hempty

theorem audit_emptyWorld :
    auditExistingProviderSpaces asciiConfig.py sampleUuid5 evaluationNs emptyWorld.served ∅ =
      .ok ∅ :=
  rfl

theorem lookup_fails (w : World) (name : String) :
    Runs answers (findVisibleDatasetByName asciiConfig name asciiConfig.pages 1 []) w
      (.error (.raised "timeout")) w :=
  Runs.bind_error (Runs.exec ⟨rfl, .inr ⟨_, rfl⟩⟩)

theorem baseline_ok {code : String} (h : code ∈ projectCodes) :
    validateBaselineBinding asciiConfig code (ragflowDatasetName evaluationNs code) = .ok () := by
  have hnone : ∀ code ∈ projectCodes, ∀ binding ∈ baselineDatasetBindings,
      ¬ (binding.2 = ragflowDatasetName evaluationNs code ∧ binding.1 ≠ code) := by decide +kernel
  have hfind : baselineDatasetBindings.find? (fun binding =>
      binding.2 = ragflowDatasetName evaluationNs code ∧ binding.1 ≠ code) = none :=
    List.find?_eq_none.mpr fun binding hmem hc => hnone code h binding hmem (of_decide_eq_true hc)
  unfold validateBaselineBinding
  rw [hfind]

theorem validated {α : Type} {w w' : World} {code : String} (h : code ∈ projectCodes)
    {f : Unit → Call α} {r : Except RagflowError α} (hf : Runs answers (f ()) w r w') :
    Runs answers
      ((ofExcept (validateBaselineBinding asciiConfig code
        (ragflowDatasetName evaluationNs code))).bind f) w r w' := by
  rw [baseline_ok h]
  exact hf

theorem ensure_fails (w : World) {code : String} (h : code ∈ projectCodes) :
    Runs answers (ensureSpace asciiConfig (spaceRequest evaluationNs code)) w
      (.error (.raised "timeout")) w := by
  unfold ensureSpace spaceRequest
  exact validated h (Runs.bind_error (Runs.bind_error (lookup_fails w _)))

theorem retail : "PRJ-RETAIL-ALPHA" ∈ projectCodes := List.mem_cons_self

theorem logistics : "PRJ-LOGISTICS-BETA" ∈ projectCodes := List.mem_cons_of_mem _ List.mem_cons_self

/-- The first request for a page fails. -/
theorem failed_first : FailedRun sampleUuid5 asciiConfig evaluationNs ∅ emptyWorld emptyWorld where
  valid := rfl
  fresh := rfl
  audited := audit_emptyWorld
  prepared := ⟨_, Runs.bind_error (Runs.bind_error (ensure_fails _ retail))⟩

theorem ensure_creates :
    Runs answers (ensureSpace asciiConfig (spaceRequest evaluationNs "PRJ-RETAIL-ALPHA")) emptyWorld
    (.ok ⟨"retail-owned-id", "PRJ-RETAIL-ALPHA",
      ragflowDatasetName evaluationNs "PRJ-RETAIL-ALPHA"⟩) oneCreated := by
  unfold ensureSpace spaceRequest
  refine validated retail ?_
  have hlookup : Runs answers (findVisibleDatasetByName asciiConfig
    (ragflowDatasetName evaluationNs "PRJ-RETAIL-ALPHA")
      asciiConfig.pages 1 []) emptyWorld (.ok none) emptyWorld :=
    Runs.bind (Runs.exec ⟨rfl, .inl rfl⟩) ⟨rfl, rfl⟩
  have hcreate : Runs answers (findOrCreate asciiConfig
    (spaceRequest evaluationNs "PRJ-RETAIL-ALPHA")) emptyWorld
      (.ok "retail-owned-id") { oneCreated with maps := .empty } := by
    refine Runs.bind hlookup
      (Runs.bind (Runs.exec (.inr ⟨"retail-owned-id", ⟨[], [], _, rfl, rfl, rfl⟩, .inl rfl⟩)) ?_)
    have hid : requiredString (createdFor evaluationNs "retail-owned-id" "PRJ-RETAIL-ALPHA") "id"
      "created dataset" =
        .ok "retail-owned-id" := rfl
    change Runs answers (Ragflow.ofExcept
      (requiredString (createdFor evaluationNs _ _) "id" "created dataset")) _ _ _
    rw [spaceRequest, hid]
    exact ⟨rfl, rfl⟩
  have hbind : Runs answers (bindSpace asciiConfig "PRJ-RETAIL-ALPHA" "retail-owned-id")
    { oneCreated with maps := .empty }
      (.ok ()) oneCreated := by
    refine Runs.bind (Runs.exec ⟨rfl, rfl⟩) ?_
    have hfree : Maps.empty.spaceToProject.lookup "retail-owned-id" = none := Finmap.lookup_empty _
    rw [hfree]
    exact Runs.exec ⟨rfl, rfl⟩
  exact Runs.bind hcreate (Runs.bind hbind ⟨rfl, rfl⟩)

/-- The dataset of the first project is created, and the next request fails. -/
theorem failed_second : FailedRun sampleUuid5 asciiConfig evaluationNs ∅ emptyWorld oneCreated where
  valid := rfl
  fresh := rfl
  audited := audit_emptyWorld
  prepared := ⟨_, Runs.bind (Runs.bind ensure_creates ⟨rfl, rfl⟩)
    (Runs.bind_error (Runs.bind_error (ensure_fails _ logistics)))⟩

end Sample

open Sample in
theorem recovery_sample : Recovers sampleUuid5 asciiConfig evaluationNs emptyWorld ∧
    OnlyCreated asciiConfig.py sampleUuid5 evaluationNs emptyWorld.served :=
  (recovery_iff failed_first emptyWorld.served).mpr ⟨⟨rfl, rfl⟩, fun ⟨_, hreads, hconforming⟩ =>
    hconforming.some_found (by rw [reads_empty hreads]; rfl)⟩

open Sample in
/-- The run created one dataset, and no second run takes it up. -/
theorem created_not_recovered :
    FailedRun sampleUuid5 asciiConfig evaluationNs ∅ emptyWorld oneCreated ∧
    ¬ Recovers sampleUuid5 asciiConfig evaluationNs oneCreated := by
  refine ⟨failed_second, fun h => ?_⟩
  exact absurd (failed_second.recovers_iff.mp h).1 (List.cons_ne_nil _ _)

end ProjectAgent.Evaluation
