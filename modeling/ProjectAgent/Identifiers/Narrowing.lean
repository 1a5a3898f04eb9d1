/-
What the resolver narrows a retrieval to: the versions that are the only hit
of an identifier. An identifier with several hits adds none of them.
-/
import ProjectAgent.Identifiers.Registry
import ProjectAgent.Lib.Ranking
import ProjectAgent.Lib.Related

namespace ProjectAgent.Identifiers

variable {py : Python} {rows : List DocumentIdentifier} {projectId : UUID} {allowed : List UUID}
  {row : DocumentIdentifier}
  {entry : IdentifierRegistryEntry} {identifierType : IdentifierType} {value normalized : String}

/-! ## Rows -/

theorem toEntry_eq (h : toEntry row = .ok entry) :
    IdentifierType.ofValue row.identifierType = some entry.identifierType ∧
    entry.documentVersionId = row.documentVersionId ∧
      entry.normalizedValue = row.normalizedValue := by
  unfold toEntry at h
  split at h
  · cases h
  · cases h
  · next type source htype hsource =>
    split at h
    · cases h
      exact ⟨htype, rfl, rfl⟩
    · cases h

theorem mem_exactRows : row ∈ exactRows rows projectId identifierType normalized ↔
    row ∈ rows ∧ row.projectId = projectId ∧ row.identifierType = identifierType.value ∧
      row.normalizedValue = normalized := by
  unfold exactRows
  rw [List.mem_insertionSort, List.mem_filter, Bool.and_eq_true, Bool.and_eq_true,
    decide_eq_true_iff, decide_eq_true_iff,
    decide_eq_true_iff, and_assoc]

/-- The versions of what is found are those of the rows. -/
theorem versions_of_rows {entries : List IdentifierRegistryEntry}
    (h : rows.mapM toEntry = .ok entries) :
    entries.map (·.documentVersionId) = rows.map (·.documentVersionId) := by
  have hall := Fallible.mapM_eq_ok.mp h
  clear h
  induction hall with
  | nil => rfl
  | cons hrow _ ih => rw [List.map_cons, List.map_cons, ih, (toEntry_eq hrow).2.1]

theorem mem_sortedIds {ids : List UUID} {id : UUID} : id ∈ sortedIds ids ↔ id ∈ ids := by
  unfold sortedIds
  rw [List.mem_insertionSort, List.mem_eraseDups]

/-! ## Hits -/

/-- An allowed version with a row of the identifier. -/
def Hit (py : Python) (rows : List DocumentIdentifier) (projectId : UUID) (allowed : List UUID)
    (identifier : QueryExactIdentifier) (versionId : UUID) : Prop :=
  versionId ∈ allowed ∧ ∃ normalized,
    normalizeIdentifier py identifier.identifierType identifier.normalizedValue = .ok normalized ∧
    ∃ row ∈ rows, row.projectId = projectId ∧ row.identifierType = identifier.identifierType.value ∧
      row.normalizedValue = normalized ∧ row.documentVersionId = versionId

def OnlyHit (py : Python) (rows : List DocumentIdentifier) (projectId : UUID) (allowed : List UUID)
    (identifier : QueryExactIdentifier) (versionId : UUID) : Prop :=
  ∀ other, Hit py rows projectId allowed identifier other ↔ other = versionId

/-- The resolution of an identifier has its hits. -/
structure Resolves (py : Python) (rows : List DocumentIdentifier) (projectId : UUID)
    (allowed : List UUID) (identifier : QueryExactIdentifier)
    (r : IdentifierResolution) : Prop where
  identifierType : r.identifierType = identifier.identifierType
  normalizedValue : r.normalizedValue = identifier.normalizedValue
  hits : ∀ versionId, versionId ∈ r.authorizedDocumentVersionIds ↔
    Hit py rows projectId allowed identifier versionId
  nodup : r.authorizedDocumentVersionIds.Nodup
  unique : r.uniqueAuthorizedHit = true ↔ r.authorizedDocumentVersionIds.length = 1

theorem resolution_resolves {identifier : QueryExactIdentifier}
    {entries : List IdentifierRegistryEntry}
    (h : findExact py rows projectId identifier.identifierType identifier.normalizedValue =
      .ok entries) :
    Resolves py rows projectId allowed identifier
      (resolution identifier (entries.map (·.documentVersionId)) allowed) where
  identifierType := rfl
  normalizedValue := rfl
  hits versionId := by
    obtain ⟨normalized, hnormalized, hrows⟩ := Fallible.bind_eq_ok.mp h
    unfold resolution
    rw [versions_of_rows hrows, mem_sortedIds, List.mem_filter, decide_eq_true_iff,
      List.mem_map, and_comm]
    refine and_congr_right fun _ => ⟨?_, ?_⟩
    · rintro ⟨row, hrow, hversion⟩
      obtain ⟨hmem, hproject, htype, hvalue⟩ := mem_exactRows.mp hrow
      exact ⟨normalized, hnormalized, row, hmem, hproject, htype, hvalue, hversion⟩
    · rintro ⟨normalized', hnormalized', row, hmem, hproject, htype, hvalue, hversion⟩
      obtain rfl := Except.ok.inj (hnormalized.symm.trans hnormalized')
      exact ⟨row, mem_exactRows.mpr ⟨hmem, hproject, htype, hvalue⟩, hversion⟩
  nodup := (List.perm_insertionSort _ _).nodup_iff.mpr (Interleave.Ranking.nodup_eraseDups _)
  unique := by
    unfold resolution
    exact decide_eq_true_iff

theorem resolve_eq {analysis : QueryAnalysis} {result : ExactResolutionResult}
    (h : resolve py rows projectId analysis allowed = .ok result) :
    List.Forall₂ (Resolves py rows projectId allowed)
      (lookedUp analysis.exactIdentifiers) result.resolutions ∧
      result.constrainedDocumentVersionIds = sortedIds (uniqueVersions result.resolutions) := by
  obtain ⟨resolutions, hresolutions, h⟩ := Fallible.bind_eq_ok.mp h
  cases h
  refine ⟨(Fallible.mapM_eq_ok.mp hresolutions).imp fun identifier r hr => ?_, rfl⟩
  obtain ⟨entries, hentries, hr⟩ := Fallible.bind_eq_ok.mp hr
  cases hr
  exact resolution_resolves hentries

/-- A resolution is unique exactly if its identifier has one hit. -/
theorem Resolves.only {identifier : QueryExactIdentifier} {r : IdentifierResolution}
    {versionId : UUID} (h : Resolves py rows projectId allowed identifier r) :
    r.uniqueAuthorizedHit = true ∧ versionId ∈ r.authorizedDocumentVersionIds ↔
      OnlyHit py rows projectId allowed identifier versionId := by
  rw [h.unique]
  constructor
  · rintro ⟨hone, hmem⟩ other
    obtain ⟨only, honly⟩ := List.length_eq_one_iff.mp hone
    rw [honly, List.mem_singleton] at hmem
    rw [← h.hits, honly, List.mem_singleton, hmem]
  · intro honly
    have hall : ∀ other ∈ r.authorizedDocumentVersionIds, other = versionId := fun other hother =>
      (honly other).mp ((h.hits other).mp hother)
    have hmem : versionId ∈ r.authorizedDocumentVersionIds :=
      (h.hits versionId).mpr ((honly versionId).mpr rfl)
    have hrepeat := List.eq_replicate_of_mem hall
    have hle := List.nodup_replicate.mp (hrepeat ▸ h.nodup)
    have hpos := List.length_pos_of_mem hmem
    exact ⟨Nat.le_antisymm hle hpos, hmem⟩

/-! ## Narrowing -/

/-- **What the retrieval is narrowed to**: the versions that are the only authorized hit of an
identifier that is looked up, so that it holds every hit of each of them exactly if each hit is the
only one of some identifier. -/
theorem constrained_iff {analysis : QueryAnalysis} {result : ExactResolutionResult}
    (h : resolve py rows projectId analysis allowed = .ok result) :
    (∀ versionId, versionId ∈ result.constrainedDocumentVersionIds ↔
      ∃ identifier ∈ lookedUp analysis.exactIdentifiers,
        OnlyHit py rows projectId allowed identifier versionId) ∧
    ((∀ identifier ∈ lookedUp analysis.exactIdentifiers, ∀ versionId,
      Hit py rows projectId allowed identifier versionId →
        versionId ∈ result.constrainedDocumentVersionIds) ↔
      ∀ identifier ∈ lookedUp analysis.exactIdentifiers, ∀ versionId,
        Hit py rows projectId allowed identifier versionId →
        ∃ other ∈ lookedUp analysis.exactIdentifiers,
          OnlyHit py rows projectId allowed other versionId) := by
  obtain ⟨hresolves, hconstrained⟩ := resolve_eq h
  have honly (versionId : UUID) : versionId ∈ result.constrainedDocumentVersionIds ↔
      ∃ identifier ∈ lookedUp analysis.exactIdentifiers,
        OnlyHit py rows projectId allowed identifier versionId := by
    rw [hconstrained, mem_sortedIds]
    unfold uniqueVersions
    rw [List.mem_flatMap]
    constructor
    · rintro ⟨r, hr, hmem⟩
      obtain ⟨hr, hunique⟩ := List.mem_filter.mp hr
      obtain ⟨identifier, hin, hresolve⟩ := Related.mem_left hresolves.flip hr
      exact ⟨identifier, hin, hresolve.only.mp ⟨hunique, hmem⟩⟩
    · rintro ⟨identifier, hin, honly⟩
      obtain ⟨r, hr, hresolve⟩ := Related.mem_left hresolves hin
      obtain ⟨hunique, hmem⟩ := hresolve.only.mpr honly
      exact ⟨r, List.mem_filter.mpr ⟨hr, hunique⟩, hmem⟩
  refine ⟨honly, forall₂_congr fun identifier _ => forall₂_congr fun versionId _ => honly versionId⟩

namespace Sample

def requirement (id versionId : Nat) (value : String) : DocumentIdentifier :=
  ⟨.ofNat id, .ofNat 1, .ofNat 2, .ofNat versionId, "requirement_id", value, value, none, none,
    "regex", some 1, 0⟩

/-- One requirement in one version, the other in two. -/
def registry : List DocumentIdentifier :=
  [requirement 20 11 "REQ-1.1", requirement 21 12 "REQ-2.1", requirement 22 13 "REQ-2.1"]

def twoRequirements : QueryAnalysis :=
  ⟨"REQ-1.1 REQ-2.1", "REQ-1.1 REQ-2.1",
    [⟨.REQUIREMENT_ID, "REQ-1.1", "REQ-1.1"⟩, ⟨.REQUIREMENT_ID, "REQ-2.1", "REQ-2.1"⟩]⟩

def allowedVersions : List UUID := [.ofNat 11, .ofNat 12, .ofNat 13]

def narrowed : ExactResolutionResult :=
  ⟨[⟨.REQUIREMENT_ID, "REQ-1.1", "REQ-1.1", [.ofNat 11], true⟩,
    ⟨.REQUIREMENT_ID, "REQ-2.1", "REQ-2.1", [.ofNat 12, .ofNat 13], false⟩], [.ofNat 11]⟩

end Sample

theorem constrained_iff_sample : ∃ identifier ∈ lookedUp Sample.twoRequirements.exactIdentifiers,
    OnlyHit .ascii Sample.registry (.ofNat 2) Sample.allowedVersions identifier (.ofNat 11) := by
  have hresolve : resolve .ascii Sample.registry
    (.ofNat 2) Sample.twoRequirements Sample.allowedVersions =
      .ok Sample.narrowed := by decide +kernel
  exact ((constrained_iff hresolve).1 (.ofNat 11)).mp List.mem_cons_self

/-- The retrieval is narrowed, and what the second requirement hits is left out. -/
theorem hits_excluded :
    resolve .ascii Sample.registry (.ofNat 2) Sample.twoRequirements Sample.allowedVersions =
      .ok Sample.narrowed ∧
      Sample.narrowed.constrainedDocumentVersionIds ≠ [] ∧
      ∃ identifier ∈ Sample.twoRequirements.exactIdentifiers,
        Hit .ascii Sample.registry (.ofNat 2) Sample.allowedVersions identifier (.ofNat 12) ∧
        .ofNat 12 ∉ Sample.narrowed.constrainedDocumentVersionIds := by
  refine
    ⟨by
    decide +kernel, by
    decide +kernel, ⟨.REQUIREMENT_ID, "REQ-2.1", "REQ-2.1"⟩, by
      decide +kernel, ?_, by decide +kernel⟩
  exact ⟨by decide +kernel, "REQ-2.1", by decide +kernel, Sample.requirement 21 12 "REQ-2.1",
    List.mem_cons_of_mem _ List.mem_cons_self, rfl, rfl, rfl, rfl⟩

end ProjectAgent.Identifiers
