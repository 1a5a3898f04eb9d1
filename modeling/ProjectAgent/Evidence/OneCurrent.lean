/-
The three computations of the current version agree: a version is current if
it is published and no published version of its document has a greater number.
-/
import ProjectAgent.Evidence.Current

namespace ProjectAgent.Evidence

open Documents (Document DocumentVersion DocumentLifecycleStatus Tables)
open Interleave

/-- The published version with the greatest number of its document. -/
def Current (t : Tables) (version : DocumentVersion) : Prop :=
  version.lifecycleStatus = .PUBLISHED ∧ ∀ other ∈ t.versions,
    other.documentId = version.documentId →
    other.lifecycleStatus = .PUBLISHED → other.versionNo ≤ version.versionNo

variable {t : Tables} {version : DocumentVersion} {document : Document} {projectId : UUID}
  {documentIds : List UUID}

/-! ## The tables -/

theorem mem_joined : (version, document) ∈ joined t ↔
    version ∈ t.versions ∧ document ∈ t.documents ∧ document.id = version.documentId := by
  unfold joined
  rw [List.mem_flatMap]
  constructor
  · rintro ⟨v, hv, hmem⟩
    obtain ⟨d, hd, heq⟩ := List.mem_map.mp hmem
    cases heq
    obtain ⟨hd, hid⟩ := List.mem_filter.mp hd
    exact ⟨hv, hd, beq_iff_eq.mp hid⟩
  · rintro ⟨hv, hd, hid⟩
    exact ⟨version, hv, List.mem_map.mpr ⟨document,
      List.mem_filter.mpr ⟨hd, beq_iff_eq.mpr hid⟩, rfl⟩⟩

namespace Schema

variable {v v' : DocumentVersion} {d d' : Document}

theorem document_eq (h : Schema t) (hd : d ∈ t.documents) (hd' : d' ∈ t.documents)
    (hid : d.id = d'.id) : d = d' :=
  List.inj_on_of_nodup_map h.documents hd hd' hid

theorem version_eq (h : Schema t) (hv : v ∈ t.versions) (hv' : v' ∈ t.versions)
    (hid : v.id = v'.id) : v = v' :=
  List.inj_on_of_nodup_map h.versions hv hv' hid

theorem number_eq (h : Schema t) (hv : v ∈ t.versions) (hv' : v' ∈ t.versions)
    (hdocument : v.documentId = v'.documentId) (hno : v.versionNo = v'.versionNo) : v = v' :=
  List.inj_on_of_nodup_map h.numbers hv hv' (Prod.ext hdocument hno)

/-- A row of the join is known by its version's id. -/
theorem row_eq (h : Schema t) (hr : (v, d) ∈ joined t) (hr' : (v', d') ∈ joined t)
    (hid : v.id = v'.id) :
    v = v' ∧ d = d' := by
  obtain ⟨hv, hd, hdid⟩ := mem_joined.mp hr
  obtain ⟨hv', hd', hdid'⟩ := mem_joined.mp hr'
  obtain rfl := h.version_eq hv hv' hid
  exact ⟨rfl, h.document_eq hd hd' (hdid.trans hdid'.symm)⟩

end Schema

/-! ## The greatest number -/

theorem mem_publishedNumbers {documentId : UUID} {no : Nat} : no ∈ publishedNumbers t documentId ↔
    ∃ v ∈ t.versions, v.documentId = documentId ∧ v.lifecycleStatus = .PUBLISHED ∧
      v.versionNo = no := by
  unfold publishedNumbers
  rw [List.mem_map]
  constructor
  · rintro ⟨v, hv, rfl⟩
    obtain ⟨hv, hof⟩ := List.mem_filter.mp hv
    rw [Bool.and_eq_true, beq_iff_eq, beq_iff_eq] at hof
    exact ⟨v, hv, hof.1, hof.2, rfl⟩
  · rintro ⟨v, hv, hdocument, hpublished, rfl⟩
    refine ⟨v, List.mem_filter.mpr ⟨hv, ?_⟩, rfl⟩
    rw [hdocument, hpublished, beq_self_eq_true, beq_self_eq_true, Bool.and_true]

/-- **The version with the greatest published number is the current one.** -/
theorem currentVersions_iff (hv : version ∈ t.versions) (hin : version.documentId ∈ documentIds) :
    (version.lifecycleStatus = .PUBLISHED ∧
      currentVersions t documentIds version.documentId = some version.versionNo) ↔
      Current t version := by
  unfold currentVersions Current
  rw [if_pos hin]
  refine and_congr_right fun hpublished => ?_
  rw [List.max?_eq_some_iff]
  constructor
  · rintro ⟨-, hmax⟩ other hother hdocument hpublished
    exact hmax _ (mem_publishedNumbers.mpr ⟨other, hother, hdocument, hpublished, rfl⟩)
  · intro hmax
    refine ⟨mem_publishedNumbers.mpr ⟨version, hv, rfl, hpublished, rfl⟩, fun no hno => ?_⟩
    obtain ⟨other, hother, hdocument, hpublished', rfl⟩ := mem_publishedNumbers.mp hno
    exact hmax other hother hdocument hpublished'

theorem isCurrent_iff (hv : version ∈ t.versions) (hin : version.documentId ∈ documentIds) :
    (decide (version.lifecycleStatus = .PUBLISHED) &&
      currentVersions t documentIds version.documentId == some version.versionNo) = true ↔
        Current t version := by
  rw [Bool.and_eq_true, decide_eq_true_iff, beq_iff_eq]
  exact currentVersions_iff hv hin

/-! ## The first in the sort -/

theorem mem_publishedRows : (version, document) ∈ publishedRows t projectId ↔
    (version, document) ∈ joined t ∧ document.projectId = projectId ∧
      version.lifecycleStatus = .PUBLISHED := by
  unfold publishedRows
  rw [List.mem_filter, Bool.and_eq_true, beq_iff_eq, beq_iff_eq]

instance : Std.Total AccessBefore := ⟨fun a b => by
  unfold AccessBefore
  rcases lt_trichotomy a.1.documentId.int b.1.documentId.int with h | h | h
  · exact .inl (.inl h)
  · have hid : a.1.documentId = b.1.documentId := congrArg UUID.mk h
    rcases Nat.le_total b.1.versionNo a.1.versionNo with h | h
    · exact .inl (.inr ⟨hid, h⟩)
    · exact .inr (.inr ⟨hid.symm, h⟩)
  · exact .inr (.inl h)⟩

instance : IsTrans (DocumentVersion × Document) AccessBefore := ⟨fun a b c hab hbc => by
  unfold AccessBefore at *
  rcases hab with hab | ⟨hab, hno⟩
  · rcases hbc with hbc | ⟨hbc, -⟩
    · exact .inl (hab.trans hbc)
    · exact .inl (hbc ▸ hab)
  · rcases hbc with hbc | ⟨hbc, hno'⟩
    · exact .inl (hab ▸ hbc)
    · exact .inr ⟨hab.trans hbc, hno'.trans hno⟩⟩

theorem accessBefore_same {a b : DocumentVersion × Document}
    (hid : a.1.documentId = b.1.documentId) :
    AccessBefore a b ↔ b.1.versionNo ≤ a.1.versionNo := by
  unfold AccessBefore
  rw [hid]
  constructor
  · rintro (h | h)
    · exact absurd h (lt_irrefl _)
    · exact h.2
  · exact fun h => .inr ⟨rfl, h⟩

/-- **The first version of a document in the sort is the current one.** -/
theorem listed_iff (h : Schema t) (hv : version ∈ t.versions) (hd : document ∈ t.documents)
    (hid : document.id = version.documentId) :
    version.id ∈ (listPublishedDocumentAccess t document.projectId).map (·.documentVersionId) ↔
      Current t version := by
  have hrow : (version, document) ∈ joined t := mem_joined.mpr ⟨hv, hd, hid⟩
  have hsorted := List.pairwise_insertionSort AccessBefore (publishedRows t document.projectId)
  have hmem (row : DocumentVersion × Document) :
      row ∈ (publishedRows t document.projectId).insertionSort AccessBefore ↔
        row ∈ publishedRows t document.projectId :=
    List.mem_insertionSort _
  have hanti : ∀ b ∈ (publishedRows t document.projectId).insertionSort AccessBefore,
      ∀ c ∈ (publishedRows t document.projectId).insertionSort AccessBefore,
        b.1.documentId = c.1.documentId → AccessBefore b c → AccessBefore c b → b = c := by
    rintro ⟨v, d⟩ hb ⟨v', d'⟩ hc hdocument hbc hcb
    obtain ⟨hb, -⟩ := mem_publishedRows.mp ((hmem _).mp hb)
    obtain ⟨hc, -⟩ := mem_publishedRows.mp ((hmem _).mp hc)
    have hno := Nat.le_antisymm ((accessBefore_same hdocument.symm).mp hcb)
      ((accessBefore_same hdocument).mp hbc)
    obtain rfl := h.number_eq (mem_joined.mp hb).1 (mem_joined.mp hc).1 hdocument hno
    exact Prod.ext rfl (h.row_eq hb hc rfl).2
  have hfirst := @Ranking.mem_firsts_sorted _ AccessBefore _ (version, document) UUID _ (fun row =>
    row.1.documentId) hsorted
    hanti fun b _ => (Std.Total.total b b).elim id id
  have hlisted : version.id ∈ (listPublishedDocumentAccess t document.projectId).map
    (·.documentVersionId) ↔
      (version, document) ∈ Ranking.firsts (fun row => row.1.documentId) []
        ((publishedRows t document.projectId).insertionSort AccessBefore) := by
    unfold listPublishedDocumentAccess
    rw [List.map_map, List.mem_map]
    constructor
    · rintro ⟨⟨v, d⟩, hfirsts, hsame⟩
      obtain ⟨-, pre, post, hsplit, -⟩ := Ranking.mem_firsts.mp hfirsts
      have hin := (hmem (v, d)).mp (hsplit ▸ List.mem_append_right _ List.mem_cons_self)
      obtain ⟨rfl, rfl⟩ := h.row_eq (mem_publishedRows.mp hin).1 hrow hsame
      exact hfirsts
    · exact fun hfirsts => ⟨(version, document), hfirsts, rfl⟩
  rw [hlisted, hfirst, hmem, mem_publishedRows]
  constructor
  · rintro ⟨⟨-, -, hpublished⟩, hall⟩
    refine ⟨hpublished, fun other hother hdocument hpublished' => ?_⟩
    have hother' : (other, document) ∈ publishedRows t document.projectId :=
      mem_publishedRows.mpr ⟨mem_joined.mpr ⟨hother, hd, hid.trans hdocument.symm⟩, rfl,
        hpublished'⟩
    exact (accessBefore_same hdocument.symm).mp (hall _ ((hmem _).mpr hother') hdocument)
  · rintro ⟨hpublished, hmax⟩
    refine ⟨⟨hrow, rfl, hpublished⟩, ?_⟩
    rintro ⟨v, d⟩ hb hdocument
    obtain ⟨hb, -, hpublished'⟩ := mem_publishedRows.mp ((hmem _).mp hb)
    exact (accessBefore_same hdocument.symm).mpr (hmax v (mem_joined.mp hb).1 hdocument hpublished')

/-! ## The metadata -/

variable {versionIds : List UUID} {versionId : UUID}
  {found : List (UUID × DocumentEvidenceMetadata)}
  {info : DocumentEvidenceMetadata}

/-- What is said of a version, and of the document it is of. -/
structure InfoOf (t : Tables) (version : DocumentVersion) (document : Document)
    (info : DocumentEvidenceMetadata) : Prop where
  documentVersionId : info.documentVersionId = version.id
  documentId : info.documentId = version.documentId
  projectId : info.projectId = document.projectId
  lifecycleStatus : info.lifecycleStatus = version.lifecycleStatus
  versionNo : info.versionNo = version.versionNo
  effectiveFrom : info.effectiveFrom = version.effectiveFrom.map Date.ofCode
  effectiveTo : info.effectiveTo = version.effectiveTo.map Date.ofCode
  isCurrent : info.isCurrent = true ↔ Current t version

theorem evidenceMetadata_ok (hv : version ∈ t.versions) (hin : version.documentId ∈ documentIds)
    {entry : UUID × DocumentEvidenceMetadata}
    (h : evidenceMetadata t documentIds (version, document) = .ok entry) :
    entry.1 = version.id ∧ InfoOf t version document entry.2 := by
  unfold evidenceMetadata at h
  split at h
  · cases h
    exact ⟨rfl, rfl, rfl, rfl, rfl, rfl, rfl, rfl, isCurrent_iff hv hin⟩
  · cases h
  · cases h

theorem mem_requestedRows : (version, document) ∈ requestedRows t versionIds ↔
    (version, document) ∈ joined t ∧ version.id ∈ versionIds := by
  unfold requestedRows
  rw [List.mem_filter, decide_eq_true_iff]

/-- Each requested row has its entry, and each entry is of a requested row. -/
theorem metadata_related (hget : getDocumentEvidenceMetadata t versionIds = .ok found) :
    List.Forall₂ (fun row entry => row ∈ requestedRows t versionIds ∧ entry.1 = row.1.id ∧
      InfoOf t row.1 row.2 entry.2)
      (requestedRows t versionIds) found := by
  unfold getDocumentEvidenceMetadata at hget
  split at hget
  · next hempty =>
    obtain rfl := List.isEmpty_iff.mp hempty
    cases hget
    have hnone : requestedRows t [] = [] := List.filter_eq_nil_iff.mpr fun row _ h => by simp at h
    rw [hnone]
    exact .nil
  · have hall := (List.forall₂_and_left _ _).mpr ⟨fun _ hrow => hrow, Fallible.mapM_eq_ok.mp hget⟩
    refine hall.imp fun row entry h => ?_
    obtain ⟨hrow, hentry⟩ := h
    obtain ⟨v, d⟩ := row
    have hv := (mem_joined.mp (mem_requestedRows.mp hrow).1).1
    have hdocument : v.documentId ∈ (requestedRows t versionIds).map (·.1.documentId) :=
      List.mem_map.mpr ⟨(v, d), hrow, rfl⟩
    exact ⟨hrow, evidenceMetadata_ok hv hdocument hentry⟩

/-- **What is reported of an id is of the version that has it.** -/
theorem lookup_metadata (hget : getDocumentEvidenceMetadata t versionIds = .ok found)
    (hlookup : found.lookup versionId = some info) :
    ∃ version document, (version, document) ∈ joined t ∧ version.id = versionId ∧
      InfoOf t version document info := by
  obtain ⟨pre, post, rfl, -⟩ := List.lookup_eq_some_iff.mp hlookup
  obtain ⟨⟨v, d⟩, -, hrow, hid, hinfo⟩ := Related.mem_left (metadata_related hget).flip
    (List.mem_append_right _ List.mem_cons_self)
  exact ⟨v, d, (mem_requestedRows.mp hrow).1, hid.symm, hinfo⟩

theorem reported (h : Schema t) (hrow : (version, document) ∈ joined t)
    (hin : version.id ∈ versionIds) (hget : getDocumentEvidenceMetadata t versionIds = .ok found) :
    ∃ info, found.lookup version.id = some info ∧ InfoOf t version document info := by
  obtain ⟨⟨id, info⟩, hentry, -, hid, -⟩ :=
    Related.mem_left (metadata_related hget) (mem_requestedRows.mpr ⟨hrow, hin⟩)
  have hsome : (found.lookup version.id).isSome := by
    rw [List.lookup_isSome_iff]
    exact ⟨(id, info), hentry, beq_iff_eq.mpr hid.symm⟩
  obtain ⟨info, hinfo⟩ := Option.isSome_iff_exists.mp hsome
  obtain ⟨v, d, hrow', hid, hof⟩ := lookup_metadata hget hinfo
  obtain ⟨rfl, rfl⟩ := h.row_eq hrow' hrow hid
  exact ⟨info, hinfo, hof⟩

/-! ## The collector -/

variable {snapshots : List (EvidenceSnapshot Numeric)} {row : EvidenceSnapshot Numeric}

/-- What the collector finds of a version of the project is the version, its document and the
number. -/
theorem lookup_documents (h : Schema t) (hrow : (version, document) ∈ joined t)
    (hproject : document.projectId = projectId) (hin : row ∈ snapshots)
    (hversion : row.documentVersionId = some version.id) :
    ∃ no, (readDocuments t snapshots projectId).lookup version.id = some (version, document, no) ∧
      ((version.lifecycleStatus = .PUBLISHED && no == some version.versionNo) = true ↔
        Current t version) := by
  unfold readDocuments
  dsimp only
  generalize hrows : (joined t).filter (fun row =>
    row.1.id ∈ snapshots.filterMap (·.documentVersionId) &&
    row.2.projectId == projectId) = rows
  have hmem : (version, document) ∈ rows := by
    rw [← hrows, List.mem_filter, Bool.and_eq_true, decide_eq_true_iff, beq_iff_eq]
    exact ⟨hrow, List.mem_filterMap.mpr ⟨row, hin, hversion⟩, hproject⟩
  have hjoined : ∀ r ∈ rows, r ∈ joined t := fun r hr => by
    rw [← hrows] at hr
    exact List.mem_of_mem_filter hr
  refine ⟨currentVersions t (rows.map (·.1.documentId)) version.documentId, ?_,
    isCurrent_iff (mem_joined.mp hrow).1 (List.mem_map_of_mem hmem)⟩
  have hsome : ((rows.map fun row =>
    (row.1.id, row.1, row.2, currentVersions t (rows.map (·.1.documentId)) row.1.documentId)).lookup
      version.id).isSome := by
    rw [List.lookup_isSome_iff]
    exact ⟨_, List.mem_map_of_mem hmem, beq_iff_eq.mpr rfl⟩
  obtain ⟨entry, hentry⟩ := Option.isSome_iff_exists.mp hsome
  obtain ⟨pre, post, hsplit, -⟩ := List.lookup_eq_some_iff.mp hentry
  have hin' : (version.id, entry) ∈ rows.map fun row =>
      (row.1.id, row.1, row.2, currentVersions t (rows.map (·.1.documentId)) row.1.documentId) := by
    rw [hsplit]
    exact List.mem_append_right _ List.mem_cons_self
  obtain ⟨⟨v, d⟩, hr, heq⟩ := List.mem_map.mp hin'
  obtain ⟨hid, hrest⟩ := Prod.mk.inj heq
  obtain ⟨rfl, rfl⟩ := h.row_eq (hjoined _ hr) hrow hid
  rw [hentry, ← hrest]

/-- Nor does it find a version of another project. -/
theorem lookup_elsewhere (h : Schema t) (hrow : (version, document) ∈ joined t)
    (hproject : document.projectId ≠ projectId) :
    (readDocuments t snapshots projectId).lookup version.id = none := by
  rw [List.lookup_eq_none_iff]
  intro entry hentry
  unfold readDocuments at hentry
  dsimp only at hentry
  obtain ⟨⟨v, d⟩, hr, rfl⟩ := List.mem_map.mp hentry
  obtain ⟨hr, hof⟩ := List.mem_filter.mp hr
  rw [Bool.and_eq_true, beq_iff_eq] at hof
  refine bne_iff_ne.mpr fun hid => hproject ?_
  obtain ⟨-, rfl⟩ := h.row_eq hrow hr hid
  exact hof.2

/-- **The collector reports the version of a row that has not frozen its own answer, in a run of its
project.** -/
theorem evidence_isCurrent {text : String → String} {versionToCode : Dict String}
    {expectedProjectCode : String} {artifact : EvidenceArtifact} (h : Schema t)
    (hrow : (version, document) ∈ joined t) (hin : row ∈ snapshots)
    (hversion : row.documentVersionId = some version.id) (hfrozen : row.value "is_current" = .null)
    (hcollected : evidence text row versionToCode
      (readDocuments t snapshots projectId) expectedProjectCode projectId = .ok artifact) :
    artifact.isCurrent = some true ↔ document.projectId = projectId ∧ Current t version := by
  unfold evidence at hcollected
  rw [hversion, Option.bind_some, hfrozen] at hcollected
  split at hcollected
  · cases hcollected
  · dsimp only at hcollected
    split at hcollected
    · cases hcollected
    · split at hcollected
      · cases hcollected
      · cases hcollected
        by_cases hproject : document.projectId = projectId
        · obtain ⟨no, hlookup, hcurrent⟩ := lookup_documents h hrow hproject hin hversion
          rw [hlookup, ← hcurrent]
          exact Option.some_inj.trans (and_iff_right hproject).symm
        · rw [lookup_elsewhere h hrow hproject]
          have hnone : ((none : Option Bool) = some true) ↔
              (document.projectId = projectId ∧ Current t version) :=
            iff_of_false (fun hsome => nomatch hsome) fun hcurrent => hproject hcurrent.1
          exact hnone

/-! ## The three together -/

/--
**The three computations agree on every snapshot of the database.** A version is listed for its
project if its metadata, whenever it is fetched, says it is current, and if the collector says so of
a row of the version that has not frozen its own answer; in a run of another project the collector
says so of no version.
-/
theorem current_versions_agree (s : Snapshot) (version : DocumentVersion) (document : Document)
    (hv : version ∈ s.tables.versions) (hd : document ∈ s.tables.documents)
    (hid : document.id = version.documentId) :
    (∀ versionIds found, version.id ∈ versionIds →
      getDocumentEvidenceMetadata s.tables versionIds = .ok found →
      ∃ info, found.lookup version.id = some info ∧ (info.isCurrent = true ↔
        version.id ∈ (listPublishedDocumentAccess s.tables document.projectId).map
          (·.documentVersionId))) ∧
    (∀ text snapshots row versionToCode projectCode projectId artifact, row ∈ snapshots →
      row.documentVersionId = some version.id → row.value "is_current" = .null →
      evidence text row versionToCode (readDocuments s.tables snapshots projectId) projectCode
        projectId = .ok artifact →
        (artifact.isCurrent = some true ↔ document.projectId = projectId ∧
          version.id ∈ (listPublishedDocumentAccess s.tables document.projectId).map
            (·.documentVersionId))) := by
  have hrow : (version, document) ∈ joined s.tables := mem_joined.mpr ⟨hv, hd, hid⟩
  have hlisted := listed_iff s.schema hv hd hid
  refine ⟨fun versionIds found hin hget => ?_, ?_⟩
  · obtain ⟨info, hinfo, hof⟩ := reported s.schema hrow hin hget
    exact ⟨info, hinfo, hof.isCurrent.trans hlisted.symm⟩
  · intro text snapshots row versionToCode projectCode projectId artifact hin hversion
      hfrozen hcollected
    rw [hlisted]
    exact evidence_isCurrent s.schema hrow hin hversion hfrozen hcollected

def sampleDocument : Document := ⟨⟨10⟩, ⟨1⟩, ⟨2⟩, "approved_design", "Design", none⟩

/-- A published version of the document. -/
def publishedVersion (no : Fin (2 ^ 128)) : DocumentVersion :=
  { id := ⟨no⟩, documentId := ⟨10⟩, versionNo := no, versionLabel := "v", authorityLevel := "approved_design"
    lifecycleStatus := .PUBLISHED, effectiveFrom := none, effectiveTo :=
      none, supersedesVersionId := none
    sourceUri := none, contentHash := none, publishedAt := none, createdBy := ⟨3⟩ }

def publishedSnapshot : Snapshot where
  tables :=
    { documents := [sampleDocument], versions := [publishedVersion 3, publishedVersion 7], audits := [] }
  schema := by constructor <;> decide

def publishedRow : EvidenceSnapshot Numeric :=
  { id := ⟨20⟩, bundleId := ⟨21⟩, projectId := ⟨2⟩, documentVersionId := some ⟨7⟩, sourceType := "retrieval_candidate"
    sourceRef := "chunk-1", content := "text", rank := 1, score := none, metadataJson := ∅ }

def publishedMetadata (no : Fin (2 ^ 128)) : DocumentEvidenceMetadata :=
  { documentVersionId := ⟨no⟩, documentId := ⟨10⟩, projectId := ⟨2⟩, documentCategory := .APPROVED_DESIGN, title := "Design"
    authorityLevel := .APPROVED_DESIGN, lifecycleStatus := .PUBLISHED, versionNo :=
      no, versionLabel := "v"
    effectiveFrom := none, effectiveTo := none, isCurrent := no = 7 }

def publishedArtifact : EvidenceArtifact :=
  { evidenceId := ⟨20⟩, docCode := none, projectCode := some "P", rank := 1, documentVersionId := some ⟨7⟩
    lifecycleStatus := some "PUBLISHED", isCurrent := some true, metadata := ∅, score := none }

/-- Of two published versions the later is current: its metadata and its row say so, and it is
listed. -/
theorem current_versions_agree_sample :
    (∃ info, [(⟨3⟩, publishedMetadata 3), (⟨7⟩, publishedMetadata 7)].lookup
      (publishedVersion 7).id = some info ∧
      (info.isCurrent = true ↔ (publishedVersion 7).id ∈
        (listPublishedDocumentAccess publishedSnapshot.tables ⟨2⟩).map (·.documentVersionId))) ∧
    (publishedArtifact.isCurrent = some true ↔ sampleDocument.projectId = ⟨2⟩ ∧
      (publishedVersion 7).id ∈
      (listPublishedDocumentAccess publishedSnapshot.tables ⟨2⟩).map (·.documentVersionId)) := by
  have hagree := current_versions_agree publishedSnapshot (publishedVersion 7) sampleDocument
    (List.mem_cons_of_mem _ List.mem_cons_self) List.mem_cons_self rfl
  exact ⟨hagree.1 [⟨3⟩, ⟨7⟩] _ (List.mem_cons_of_mem _ List.mem_cons_self)
    (Fallible.mapM_eq_ok.mpr (.cons rfl (.cons rfl .nil))),
    hagree.2 id [publishedRow] publishedRow ∅ "P" ⟨2⟩ publishedArtifact List.mem_cons_self
      rfl rfl rfl⟩

end ProjectAgent.Evidence
