/-
A governed pack is loaded as it was frozen: its fields go through columns and
a JSON document, and the map of its conflicts is made again from the flags.
-/
import ProjectAgent.Evidence.RoundTrip

namespace ProjectAgent.Evidence

variable {sha256 : String → String} {ids : Ids} {projectId : UUID} {entry : GovernedEvidence × Nat}
  {item : GovernedEvidence} {items : List GovernedEvidence}

/-- What is written under each key. -/
theorem lookup_governed (sha256 : String → String) (item : GovernedEvidence) :
    (governedMetadata sha256 item).lookup "evidence_label" = some (.str item.label) ∧
    (governedMetadata sha256 item).lookup "project_code" = some (.str item.projectCode) ∧
    (governedMetadata sha256 item).lookup "knowledge_space_id" =
      some (.ofOption .str item.knowledgeSpaceId) ∧
    (governedMetadata sha256 item).lookup "page_no" = some (.ofOption .int item.pageNo) ∧
    (governedMetadata sha256 item).lookup "section" = some (.ofOption .str item.section_) ∧
    (governedMetadata sha256 item).lookup "document_category" =
      some (.str item.documentCategory.value) ∧
    (governedMetadata sha256 item).lookup "document_title" = some (.str item.documentTitle) ∧
    (governedMetadata sha256 item).lookup "version_no" = some (.int item.versionNo) ∧
    (governedMetadata sha256 item).lookup "version_label" = some (.str item.versionLabel) ∧
    (governedMetadata sha256 item).lookup "authority_level" =
      some (.str item.authorityLevel.value) ∧
    (governedMetadata sha256 item).lookup "lifecycle_status" =
      some (.str item.lifecycleStatus.value) ∧
    (governedMetadata sha256 item).lookup "is_current" = some (.bool item.isCurrent) ∧
    (governedMetadata sha256 item).lookup "effective_from" =
      some (.ofOption (fun date => .str date.isoformat) item.effectiveFrom) ∧
    (governedMetadata sha256 item).lookup "effective_to" =
      some (.ofOption (fun date => .str date.isoformat) item.effectiveTo) ∧
    (governedMetadata sha256 item).lookup "content_hash" = some (.str (item.contentHash sha256)) ∧
    (governedMetadata sha256 item).lookup "conflict_key" = some (.ofOption .str item.conflictKey) ∧
    (governedMetadata sha256 item).lookup "claim_value" = some (.ofOption .str item.claimValue) ∧
    (governedMetadata sha256 item).lookup "unresolved_conflict" =
      some (.bool item.unresolvedConflict) := by
  have hlookup (key : String) : (governedMetadata sha256 item).lookup key = List.lookup key _ :=
    Dict.lookup_ofList _ key
  refine ⟨?_, ?_, ?_, ?_, ?_, ?_, ?_, ?_, ?_, ?_, ?_, ?_, ?_, ?_, ?_, ?_, ?_, ?_⟩ <;>
    rw [hlookup] <;> rfl

/-! ## Reading one key back -/

section Reading

variable {row : EvidenceSnapshot Numeric} {key : String}

theorem value_of_lookup {value : JsonValue} (h : row.metadataJson.lookup key = some value) :
    row.value key = value := by
  unfold EvidenceSnapshot.value
  rw [h]
  rfl

theorem required_of_lookup {value : JsonValue} (h : row.metadataJson.lookup key = some value) :
    required row key = .ok value := by
  unfold required
  rw [h]

theorem parsed_of_lookup {α : Type} {f : String → Option α} {text : String} {a : α}
    (h : row.metadataJson.lookup key = some (.str text)) (hf : f text = some a) :
    parsed row f key = .ok a := by
  unfold parsed
  rw [required_of_lookup h]
  have hread : f (JsonValue.str text).toStr = some a := hf
  simp only [bind, Except.bind, hread]

theorem requiredInt_of_lookup {n : Int} (h : row.metadataJson.lookup key = some (.int n)) :
    requiredInt row key = .ok n := by
  unfold requiredInt
  rw [required_of_lookup h]
  rfl

theorem optionalStr_of_lookup {text : Option String}
    (h : row.metadataJson.lookup key = some (.ofOption .str text)) :
    optionalStr row key = text := by
  unfold optionalStr
  rw [value_of_lookup h, toStr_ofOption]

theorem isoformat_ne_empty (date : Date) : date.isoformat ≠ "" := by
  intro h
  have hlength := congrArg (fun text => text.toList.length) h
  simp [Date.isoformat, Date.isoformatChars] at hlength

theorem optionalDate_of_lookup {date : Option Date}
    (h : row.metadataJson.lookup key = some (.ofOption (fun date => .str date.isoformat) date)) :
    optionalDate row key = .ok date := by
  unfold optionalDate
  rw [value_of_lookup h]
  cases date with
  | none => rfl
  | some date =>
    have htruthy : (JsonValue.ofOption (fun date => .str date.isoformat) (some date)).truthy =
        true :=
      decide_eq_true (isoformat_ne_empty date)
    have htext : (JsonValue.ofOption (fun date => .str date.isoformat) (some date)).toStr =
        date.isoformat := rfl
    rw [if_pos htruthy, htext, Date.fromisoformat_isoformat]

end Reading

/-! ## One item -/

/-- The item as the store gives it back. -/
def frozen (sha256 : String → String) (ids : Ids) (projectId : UUID)
    (entry : GovernedEvidence × Nat) : FrozenEvidence where
  snapshotId := ids.snapshot entry.2
  label := entry.1.label
  projectId := projectId
  projectCode := entry.1.projectCode
  documentVersionId := entry.1.documentVersionId
  documentCategory := entry.1.documentCategory
  documentTitle := entry.1.documentTitle
  versionNo := entry.1.versionNo
  versionLabel := entry.1.versionLabel
  authorityLevel := entry.1.authorityLevel
  lifecycleStatus := entry.1.lifecycleStatus
  isCurrent := entry.1.isCurrent
  effectiveFrom := entry.1.effectiveFrom
  effectiveTo := entry.1.effectiveTo
  content := entry.1.content
  contentHash := entry.1.contentHash sha256
  score := entry.1.score.kept
  knowledgeSpaceId := entry.1.knowledgeSpaceId
  providerRef := some (orElse entry.1.providerRef entry.1.label)
  pageNo := entry.1.pageNo
  section_ := entry.1.section_
  conflictKey := entry.1.conflictKey
  claimValue := entry.1.claimValue
  unresolvedConflict := entry.1.unresolvedConflict

theorem load_governedRow (hfits : (governedRow sha256 ids projectId entry).fits = true) :
    loadGoverned (governedRow sha256 ids projectId entry).stored =
      .ok (frozen sha256 ids projectId entry) := by
  obtain ⟨hlabel, hcode, hspace, hpage, hsection, hcategory, htitle, hno, hversionLabel, hauthority,
    hlifecycle, hcurrent,
    hfrom, hto, hhash, hkey, hclaim, hflag⟩ := lookup_governed sha256 entry.1
  have hscore := @stored_score (governedRow sha256 ids projectId entry) _ rfl hfits
  have hmetadata : (governedRow sha256 ids projectId entry).stored.metadataJson =
      governedMetadata sha256 entry.1 := rfl
  generalize hrow : (governedRow sha256 ids projectId entry).stored = row at hscore hmetadata ⊢
  rw [← hmetadata] at hlabel hcode hspace hpage hsection hcategory htitle hno hversionLabel
  rw [← hmetadata] at hauthority hlifecycle hcurrent hfrom
  rw [← hmetadata] at hto hhash hkey hclaim hflag
  have hversion : frozenVersionId row = .ok entry.1.documentVersionId := by
    rw [← hrow]
    rfl
  unfold loadGoverned
  rw [hversion, value_of_lookup hlabel, value_of_lookup hcode,
    parsed_of_lookup hcategory (DocumentCategory.ofValue_value _),
    required_of_lookup htitle, requiredInt_of_lookup hno, required_of_lookup hversionLabel,
    parsed_of_lookup hauthority (AuthorityLevel.ofValue_value _),
      parsed_of_lookup hlifecycle (lifecycleOfValue_value _),
    required_of_lookup hcurrent, optionalDate_of_lookup hfrom, optionalDate_of_lookup hto,
      required_of_lookup hhash, hscore,
    optionalStr_of_lookup hspace, value_of_lookup hpage, int?_ofOption,
      optionalStr_of_lookup hsection,
    optionalStr_of_lookup hkey, optionalStr_of_lookup hclaim, value_of_lookup hflag]
  rw [← hrow]
  rfl

/-! ## The conflicts -/

theorem notedKey_governed : notedKey (governedRow sha256 ids projectId entry).stored =
    if entry.1.unresolvedConflict then entry.1.conflictKey else none := by
  obtain ⟨-, -, -, -, -, -, -, -, -, -, -, -, -, -, -, hkey, -, hflag⟩ :=
    lookup_governed sha256 entry.1
  have hmetadata : (governedRow sha256 ids projectId entry).stored.metadataJson =
      governedMetadata sha256 entry.1 := rfl
  rw [← hmetadata] at hkey hflag
  unfold notedKey
  rw [value_of_lookup hkey, value_of_lookup hflag, str?_ofOption]
  rfl

theorem noted_label :
    ((governedRow sha256 ids projectId entry).stored.value "evidence_label").str? =
      some entry.1.label := by
  have hlabel := (lookup_governed sha256 entry.1).1
  have hmetadata : (governedRow sha256 ids projectId entry).stored.metadataJson =
      governedMetadata sha256 entry.1 := rfl
  rw [← hmetadata] at hlabel
  rw [value_of_lookup hlabel]
  rfl

/-- What the loop over rows notes under a key. -/
theorem lookup_noted (rows : List (EvidenceSnapshot Numeric)) (key : String) :
    (notedConflicts rows).lookup key = if ∃ row ∈ rows, notedKey row = some key then
      some ((rows.filter fun row => notedKey row == some key).filterMap fun row =>
        (row.value "evidence_label").str?)
    else none := by
  have hmap : notedConflicts rows = (rows.filterMap notedKey).eraseDups.filterMap fun k =>
    if True then some (k,
      (rows.filter fun row => notedKey row == some k).filterMap fun row =>
        (row.value "evidence_label").str?) else none := by
    simp only [if_true, List.filterMap_eq_map']
    rfl
  rw [hmap, lookup_keyed]
  have hiff : (key ∈ (rows.filterMap notedKey).eraseDups ∧ True) ↔
      ∃ row ∈ rows, notedKey row = some key := by
    rw [and_true, List.mem_eraseDups, List.mem_filterMap]
  by_cases h : ∃ row ∈ rows, notedKey row = some key
  · rw [if_pos (hiff.mpr h), if_pos h]
  · rw [if_neg fun h' => h (hiff.mp h'), if_neg h]

/-! ## The bundle -/

/-- What the columns take of a packed item. -/
def itemFits (item : GovernedEvidence) : Bool :=
  columnsTake (orElse item.providerRef item.label) item.content item.score

/-- The rows a pack is saved in. -/
def frozenRows (sha256 : String → String) (ids : Ids) (projectId : UUID)
    (items : List GovernedEvidence) :
    List (EvidenceSnapshot Numeric) :=
  (items.zipIdx 1).map fun entry => (governedRow sha256 ids projectId entry).stored

theorem frozenRows_related (sha256 : String → String) (ids : Ids) (projectId : UUID)
    (items : List GovernedEvidence) :
    List.Forall₂ (fun item row =>
    notedKey row = (if item.unresolvedConflict then item.conflictKey else none) ∧
      (row.value "evidence_label").str? = some item.label) items
        (frozenRows sha256 ids projectId items) := by
  unfold frozenRows
  rw [List.forall₂_map_right_iff]
  have hself : List.Forall₂ (fun entry entry' =>
    notedKey (governedRow sha256 ids projectId entry').stored =
      (if entry.1.unresolvedConflict then entry.1.conflictKey else none) ∧
      ((governedRow sha256 ids projectId entry').stored.value "evidence_label").str? =
        some entry.1.label)
      (items.zipIdx 1) (items.zipIdx 1) :=
        List.forall₂_same.mpr fun entry _ => ⟨notedKey_governed, noted_label⟩
  have hmap : List.Forall₂ (fun item entry' =>
    notedKey (governedRow sha256 ids projectId entry').stored =
      (if item.unresolvedConflict then item.conflictKey else none) ∧
      ((governedRow sha256 ids projectId entry').stored.value "evidence_label").str? =
        some item.label)
      ((items.zipIdx 1).map Prod.fst) (items.zipIdx 1) := List.forall₂_map_left_iff.mpr hself
  rwa [List.zipIdx_map_fst] at hmap

/-- The rows noted under a key are those of the items flagged with it. -/
theorem lookup_noted_items (hkeys : ∀ x ∈ items, x.unresolvedConflict = true →
      x.conflictKey ≠ some "") (key : String) :
    (notedConflicts (frozenRows sha256 ids projectId items)).lookup key =
      if conflicting items key = [] then none
        else some ((conflicting items key).map (·.label)) := by
  have hrelated := frozenRows_related sha256 ids projectId items
  have hflagged (x : GovernedEvidence) (hx : x ∈ items) :
      ((if x.unresolvedConflict then x.conflictKey else none) == some key) =
        (x.unresolvedConflict && x.conflictKey == some key && key ≠ "") := by
    cases hflag : x.unresolvedConflict with
    | false => rfl
    | true =>
      by_cases hsame : x.conflictKey = some key
      · have hne : key ≠ "" := fun hempty => hkeys x hx hflag (hempty ▸ hsame)
        simp [hsame, hne]
      · simp [hsame]
  have hrows : ((frozenRows sha256 ids projectId items).filter fun row =>
    notedKey row == some key).filterMap
      (fun row => (row.value "evidence_label").str?) = (conflicting items key).map (·.label) := by
    have hfiltered := Related.filter (p := fun item =>
      (if item.unresolvedConflict then item.conflictKey else none) == some key)
      (q := fun row => notedKey row == some key) (fun item row h => by rw [h.1]) hrelated
    have hlabels := Related.filterMap_eq (f := fun item : GovernedEvidence => some item.label)
      (fun item row h => h.2.symm) hfiltered
    rw [← hlabels, List.filterMap_eq_map', List.filter_congr hflagged]
    rfl
  rw [lookup_noted, hrows]
  by_cases hnone : conflicting items key = []
  · rw [if_pos hnone, if_neg]
    rintro ⟨row, hrow, hnoted⟩
    obtain ⟨item, hitem, hkey, -⟩ := Related.mem_left hrelated.flip hrow
    have hin : item ∈ conflicting items key := by
      unfold conflicting
      rw [List.mem_filter, ← hflagged item hitem, ← hkey, hnoted, beq_self_eq_true]
      exact ⟨hitem, rfl⟩
    rw [hnone] at hin
    cases hin
  · rw [if_neg hnone, if_pos]
    obtain ⟨item, hin⟩ := List.exists_mem_of_ne_nil _ hnone
    obtain ⟨hitem, hflag, hkey, -⟩ := mem_conflicting.mp hin
    obtain ⟨row, hrow, hnoted, -⟩ := Related.mem_left hrelated hitem
    exact ⟨row, hrow, by rw [hnoted, if_pos hflag, hkey]⟩

/-- The key of a flagged item of a pack is not empty. -/
theorem packed_keyed {n : Nat} (hplain : ∀ item ∈ items, item.unresolvedConflict = false)
    {x : GovernedEvidence} (hx : x ∈ (packOf n items).evidence)
    (hflag : x.unresolvedConflict = true) : x.conflictKey ≠ some "" := by
  obtain ⟨key, hne, hkey, -⟩ := packed_conflict hplain hx hflag
  rw [hkey]
  exact fun h => hne (Option.some.inj h)

/-- **The map is made again as it was**, of a pack. -/
theorem lookup_noted_packOf {n : Nat} (hplain : ∀ item ∈ items, item.unresolvedConflict = false)
    (key : String) :
    (notedConflicts (frozenRows sha256 ids projectId (packOf n items).evidence)).lookup key =
      (packOf n items).unresolvedConflicts.lookup key := by
  rw [lookup_noted_items (fun x hx => packed_keyed hplain hx), lookup_packOf hplain]

variable {db db' : EvidenceTables} {runId : UUID} {queryText : String} {p : GovernedEvidencePack}

theorem ranked_governed {bundles : List EvidenceBundle}
    (hfresh : ∀ row ∈ db.snapshots, row.bundleId ≠ ids.bundle) :
    EvidenceTables.ranked ⟨bundles, frozenRows sha256 ids projectId items ++
      db.snapshots⟩ ids.bundle "governed_evidence" =
      frozenRows sha256 ids projectId items := by
  refine @EvidenceTables.ranked_insert ⟨bundles, db.snapshots⟩ _ _ _ hfresh (fun row hrow => ?_) ?_
  · obtain ⟨entry, -, rfl⟩ := List.mem_map.mp hrow
    exact ⟨rfl, rfl⟩
  · have hranks : (frozenRows sha256 ids projectId items).map (·.rank) =
        List.range' 1 items.length := by
      unfold frozenRows
      rw [List.map_map, ← List.zipIdx_map_snd]
      rfl
    have hle : ((frozenRows sha256 ids projectId items).map (·.rank)).Pairwise (· ≤ ·) := by
      rw [hranks]
      exact List.pairwise_le_range'
    exact List.pairwise_map.mp hle

theorem saveGoverned_eq :
    saveGovernedEvidenceBundle sha256 db ids runId projectId queryText p = .ok db' ↔
    (isText queryText = true ∧ ∀ item ∈ p.evidence, itemFits item = true) ∧
      db' = ⟨⟨ids.bundle, runId, queryText⟩ :: db.bundles,
        frozenRows sha256 ids projectId p.evidence ++ db.snapshots⟩ := by
  have hfits : ((p.evidence.zipIdx 1).map (governedRow sha256 ids projectId)).all (·.fits) =
      p.evidence.all itemFits := by
    rw [List.all_map]
    calc (p.evidence.zipIdx 1).all (fun entry => itemFits entry.1)
        = ((p.evidence.zipIdx 1).map Prod.fst).all itemFits := by rw [List.all_map]; rfl
      _ = p.evidence.all itemFits := by rw [List.zipIdx_map_fst]
  unfold saveGovernedEvidenceBundle EvidenceTables.insertBundle
  by_cases htext : isText queryText = true
  · rw [if_pos htext]
    show EvidenceTables.insertSnapshots _ _ = _ ↔ _
    unfold EvidenceTables.insertSnapshots
    rw [hfits, ← List.all_eq_true]
    by_cases hall : p.evidence.all itemFits = true
    · rw [if_pos hall, List.map_map]
      constructor
      · intro h
        cases h
        exact ⟨⟨htext, hall⟩, rfl⟩
      · rintro ⟨-, rfl⟩
        rfl
    · rw [if_neg hall]
      exact ⟨nofun, fun h => absurd h.1.2 hall⟩
  · rw [if_neg htext]
    exact ⟨nofun, fun h => absurd h.1.1 htext⟩

/-- The item and what is loaded of it. -/
structure FrozenAs (sha256 : String → String) (item : GovernedEvidence)
    (loaded : FrozenEvidence) : Prop where
  label : loaded.label = item.label
  projectId : loaded.projectId = item.projectId
  projectCode : loaded.projectCode = item.projectCode
  documentVersionId : loaded.documentVersionId = item.documentVersionId
  documentCategory : loaded.documentCategory = item.documentCategory
  documentTitle : loaded.documentTitle = item.documentTitle
  versionNo : loaded.versionNo = item.versionNo
  versionLabel : loaded.versionLabel = item.versionLabel
  authorityLevel : loaded.authorityLevel = item.authorityLevel
  lifecycleStatus : loaded.lifecycleStatus = item.lifecycleStatus
  isCurrent : loaded.isCurrent = item.isCurrent
  effectiveFrom : loaded.effectiveFrom = item.effectiveFrom
  effectiveTo : loaded.effectiveTo = item.effectiveTo
  content : loaded.content = item.content
  contentHash : loaded.contentHash = item.contentHash sha256
  knowledgeSpaceId : loaded.knowledgeSpaceId = item.knowledgeSpaceId
  pageNo : loaded.pageNo = item.pageNo
  section_ : loaded.section_ = item.section_
  conflictKey : loaded.conflictKey = item.conflictKey
  claimValue : loaded.claimValue = item.claimValue
  unresolvedConflict : loaded.unresolvedConflict = item.unresolvedConflict

theorem frozen_as (hproject : entry.1.projectId = projectId) :
    FrozenAs sha256 entry.1 (frozen sha256 ids projectId entry) := by
  subst hproject
  exact ⟨rfl, rfl, rfl, rfl, rfl, rfl, rfl, rfl, rfl, rfl, rfl, rfl, rfl, rfl, rfl, rfl, rfl, rfl,
    rfl, rfl, rfl⟩

/-- What a pack is saved with and loaded as. -/
def PackFreezes (sha256 : String → String) (db : EvidenceTables) (ids : Ids)
    (runId projectId : UUID) (queryText : String) (p : GovernedEvidencePack) : Prop :=
  ((∃ db', saveGovernedEvidenceBundle sha256 db ids runId projectId queryText p = .ok db') ↔
    isText queryText = true ∧ ∀ item ∈ p.evidence, itemFits item = true) ∧
  ∀ db', saveGovernedEvidenceBundle sha256 db ids runId projectId queryText p = .ok db' →
    ∃ bundle, loadGovernedEvidenceBundle db' ids.bundle = .ok bundle ∧
      List.Forall₂ (FrozenAs sha256) p.evidence bundle.evidence ∧
      ∀ key, bundle.unresolvedConflicts.lookup key = p.unresolvedConflicts.lookup key

/-- A pack is made of candidates, none of them flagged before. -/
theorem pack_eq {repository : Repository} {maxEvidence : Nat} {today : Date} {projectCode : String}
    {chunks : List KnowledgeChunk}
    (h : pack repository maxEvidence today projectId projectCode chunks = .ok p) :
    ∃ found, repository ((parsedChunks projectCode chunks).map (·.2)).eraseDups = .ok found ∧
      p = packOf maxEvidence (candidates (fun versionId =>
        found.lookup versionId) today projectId projectCode []
        (parsedChunks projectCode chunks)) := by
  obtain ⟨found, hfound, h⟩ := Fallible.bind_eq_ok.mp h
  cases h
  exact ⟨found, hfound, rfl⟩

/-- What is loaded of a bundle that was saved: its items, and the conflicts noted of their rows. -/
theorem load_governed (hproject : ∀ x ∈ p.evidence, x.projectId = projectId)
    (hfresh : ∀ row ∈ db.snapshots, row.bundleId ≠ ids.bundle)
    (hsave : saveGovernedEvidenceBundle sha256 db ids runId projectId queryText p = .ok db') :
    ∃ evidence, loadGovernedEvidenceBundle db' ids.bundle =
        .ok ⟨evidence, notedConflicts (frozenRows sha256 ids projectId p.evidence)⟩ ∧
      List.Forall₂ (FrozenAs sha256) p.evidence evidence := by
  obtain ⟨⟨-, hfits⟩, rfl⟩ := saveGoverned_eq.mp hsave
  have hentries : ∀ entry ∈ p.evidence.zipIdx 1, entry.1 ∈ p.evidence :=
    fun entry he => List.fst_mem_of_mem_zipIdx he
  have hload : (frozenRows sha256 ids projectId p.evidence).mapM loadGoverned =
      .ok ((p.evidence.zipIdx 1).map (frozen sha256 ids projectId)) := by
    unfold frozenRows
    rw [List.mapM_map]
    exact Fallible.mapM_ok fun entry he => load_governedRow (hfits entry.1 (hentries entry he))
  refine ⟨(p.evidence.zipIdx 1).map (frozen sha256 ids projectId), ?_, ?_⟩
  · unfold loadGovernedEvidenceBundle
    rw [ranked_governed hfresh]
    dsimp only
    rw [hload]
    rfl
  · have hself : List.Forall₂ (fun entry loaded => FrozenAs sha256 entry.1 loaded)
      (p.evidence.zipIdx 1)
        ((p.evidence.zipIdx 1).map (frozen sha256 ids projectId)) :=
      List.forall₂_map_right_iff.mpr (List.forall₂_same.mpr fun entry he =>
        frozen_as (hproject _ (hentries entry he)))
    have hmap : List.Forall₂ (FrozenAs sha256) ((p.evidence.zipIdx 1).map Prod.fst)
        ((p.evidence.zipIdx 1).map (frozen sha256 ids projectId)) :=
          List.forall₂_map_left_iff.mpr hself
    rwa [List.zipIdx_map_fst] at hmap

/-- The items of a pack are of its project. -/
theorem packed_projectId {repository : Repository} {maxEvidence : Nat} {today : Date}
    {projectCode : String} {chunks : List KnowledgeChunk}
    (hpack : pack repository maxEvidence today projectId projectCode chunks = .ok p) :
    ∀ x ∈ p.evidence, x.projectId = projectId := by
  intro x hx
  obtain ⟨found, -, rfl⟩ := pack_eq hpack
  obtain ⟨item, hitem, label, flag, rfl⟩ := mem_packOf hx
  obtain ⟨_, _, _, -, -, -, rfl⟩ := mem_candidates hitem
  rfl

/-- **A frozen bundle is the pack that was frozen**, of every pack whose items the columns take. -/
theorem pack_is_frozen {repository : Repository} {maxEvidence : Nat} {today : Date}
    {projectCode : String} {chunks : List KnowledgeChunk}
    (hpack : pack repository maxEvidence today projectId projectCode chunks = .ok p)
    (hfresh : ∀ row ∈ db.snapshots, row.bundleId ≠ ids.bundle) :
    PackFreezes sha256 db ids runId projectId queryText p := by
  have hproject := packed_projectId hpack
  obtain ⟨found, -, rfl⟩ := pack_eq hpack
  refine ⟨⟨fun ⟨db', h⟩ => (saveGoverned_eq.mp h).1, fun h => ⟨_, saveGoverned_eq.mpr ⟨h, rfl⟩⟩⟩,
    fun db' hsave => ?_⟩
  obtain ⟨evidence, hload, hevidence⟩ := load_governed hproject hfresh hsave
  exact ⟨_, hload, hevidence, lookup_noted_packOf fun item hitem => candidates_plain hitem⟩

namespace Sample

def claiming (versionId : UUID) (value : String) (score : ℚ) : KnowledgeChunk :=
  { chunk versionId value score with
    metadata := Dict.ofList [("conflict_key", "deadline"), ("claim_value", value)] }

def conflict : List KnowledgeChunk :=
  [claiming (.ofNat 11) "May" (9 / 10), claiming (.ofNat 12) "June" (8 / 10)]

/-- A score that `Numeric(8, 6)` does not take. -/
def great : List KnowledgeChunk := [chunk (.ofNat 11) "first" 100]

end Sample

theorem pack_is_frozen_sample :
    ∃ p, pack Sample.repository 8 Sample.today (.ofNat 1) "P-1" Sample.conflict = .ok p ∧
    p.unresolvedConflicts = [("deadline", ["E1", "E2"])] ∧
    PackFreezes (fun text => text) ⟨[], []⟩ Sample.drawn (.ofNat 4) (.ofNat 1) "query" p :=
  ⟨_, rfl, by decide +kernel, pack_is_frozen
    (show pack Sample.repository 8 Sample.today (.ofNat 1) "P-1" Sample.conflict = .ok _ from rfl)
      (fun _ h => nomatch h)⟩

/-- A pack that is not saved. -/
theorem great_not_frozen :
    ∃ p, pack Sample.repository 8 Sample.today (.ofNat 1) "P-1" Sample.great = .ok p ∧
    p.evidence.length = 1 ∧
    ¬ ∃ db, saveGovernedEvidenceBundle (fun text => text) ⟨[], []⟩ Sample.drawn (.ofNat 4)
      (.ofNat 1) "query" p = .ok db := by
  refine ⟨_, rfl, by decide +kernel, ?_⟩
  rintro ⟨db, hsave⟩
  exact absurd (saveGoverned_eq.mp hsave).1 (by decide +kernel)

end ProjectAgent.Evidence
