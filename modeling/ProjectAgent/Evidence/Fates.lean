/-
What becomes of each candidate. The eligible chunks are made items first, and
of those of one version with one text the first is kept; the conflicts then
decide of each item, by the group it is in, whether it stays and is flagged.
-/
import ProjectAgent.Evidence.Packs
import ProjectAgent.Lib.Ranking

namespace ProjectAgent.Evidence

open Interleave

/-! ## The eligible chunks -/

section Candidates

variable (metadata : UUID → Option DocumentEvidenceMetadata) (today : Date) (projectId : UUID)
  (projectCode : String)

/-- The chunks that pass the filters, each as the item it would be. -/
def eligibleItems (parsed : List (KnowledgeChunk × UUID)) : List GovernedEvidence :=
  parsed.filterMap fun (chunk, versionId) =>
    ((metadata versionId).filter (eligible projectId today)).map
      (candidate projectId projectCode chunk versionId)

/-- What tells two eligible chunks apart: the version and the text. -/
def textKey (item : GovernedEvidence) : UUID × String :=
  (item.documentVersionId, strip item.content)

variable {metadata today projectId projectCode}

theorem eligibleItems_cons {chunk : KnowledgeChunk} {versionId : UUID}
    {parsed : List (KnowledgeChunk × UUID)} :
    eligibleItems metadata today projectId projectCode ((chunk, versionId) :: parsed) =
      match (metadata versionId).filter (eligible projectId today) with
      | none => eligibleItems metadata today projectId projectCode parsed
      | some info => candidate projectId projectCode chunk versionId info ::
        eligibleItems metadata today projectId projectCode parsed := by
  unfold eligibleItems
  rw [List.filterMap_cons]
  dsimp only
  cases (metadata versionId).filter (eligible projectId today) <;> rfl

/-- **The candidates are the first eligible chunks of their version and text.** -/
theorem candidates_eq (seen : List (UUID × String)) (parsed : List (KnowledgeChunk × UUID)) :
    candidates metadata today projectId projectCode seen parsed =
      Ranking.firsts textKey seen (eligibleItems metadata today projectId projectCode parsed) := by
  induction parsed generalizing seen with
  | nil => rfl
  | cons entry parsed ih =>
    obtain ⟨chunk, versionId⟩ := entry
    rw [eligibleItems_cons]
    unfold candidates
    cases (metadata versionId).filter (eligible projectId today) with
    | none => exact ih seen
    | some info =>
      dsimp only
      rw [Ranking.firsts]
      by_cases hseen : textKey (candidate projectId projectCode chunk versionId info) ∈ seen
      · rw [if_pos hseen, if_pos (show (versionId, strip chunk.content) ∈ seen from hseen)]
        exact ih seen
      · rw [if_neg hseen, if_neg (show (versionId, strip chunk.content) ∉ seen from hseen)]
        exact congrArg _ (ih _)

theorem eligibleItems_keyed {parsed : List (KnowledgeChunk × UUID)} {item : GovernedEvidence}
    (h : item ∈ eligibleItems metadata today projectId projectCode parsed) :
    item.unresolvedConflict = false ∧ item.conflictKey ≠ some "" := by
  obtain ⟨⟨chunk, versionId⟩, -, h⟩ := List.mem_filterMap.mp h
  obtain ⟨info, -, rfl⟩ := Option.map_eq_some_iff.mp h
  refine ⟨rfl, fun hkey => ?_⟩
  obtain ⟨-, hne⟩ := Option.filter_eq_some_iff.mp hkey
  exact of_decide_eq_true hne rfl

end Candidates

/-- The eligible chunks of a list, by the metadata that was found. -/
abbrev eligibleOf (found : List (UUID × DocumentEvidenceMetadata)) (today : Date) (projectId : UUID)
    (projectCode : String) (chunks : List KnowledgeChunk) : List GovernedEvidence :=
  eligibleItems (fun versionId => found.lookup versionId) today projectId projectCode
    (parsedChunks projectCode chunks)

/-- The versions whose metadata is asked for. -/
abbrev versionIds (projectCode : String) (chunks : List KnowledgeChunk) : List UUID :=
  ((parsedChunks projectCode chunks).map (·.2)).eraseDups

theorem pack_of_found {repository : Repository} {maxEvidence : Nat} {today : Date}
    {projectId : UUID} {projectCode : String} {chunks : List KnowledgeChunk}
    {found : List (UUID × DocumentEvidenceMetadata)}
    (hfound : repository (versionIds projectCode chunks) = .ok found) :
    pack repository maxEvidence today projectId projectCode chunks =
      .ok (packOf maxEvidence (Ranking.firsts textKey []
        (eligibleOf found today projectId projectCode chunks))) := by
  unfold pack
  rw [← candidates_eq]
  dsimp only
  rw [hfound]
  rfl

/-! ## Groups -/

variable {items values : List GovernedEvidence} {item x : GovernedEvidence} {key : String}

theorem mem_topOf_iff : item ∈ topOf values ↔
    item ∈ values ∧ ∀ other ∈ values, authorityRank item.authorityLevel ≤
      authorityRank other.authorityLevel := by
  unfold topOf
  rw [List.mem_filter, decide_eq_true_iff]
  refine and_congr_right fun hin => ?_
  have hranks : authorityRank item.authorityLevel ∈ values.map fun item =>
      authorityRank item.authorityLevel :=
    List.mem_map_of_mem hin
  obtain ⟨best, hbest⟩ := Option.isSome_iff_exists.mp (List.isSome_min?_of_mem hranks)
  obtain ⟨hmem, hle⟩ := List.min?_eq_some_iff.mp hbest
  have hrank : bestRank values = best := by
    unfold bestRank
    rw [hbest]
    rfl
  rw [hrank]
  constructor
  · rintro rfl other hother
    exact hle _ (List.mem_map_of_mem hother)
  · intro hall
    obtain ⟨other, hother, rfl⟩ := List.mem_map.mp hmem
    exact Nat.le_antisymm (hall other hother) (hle _ hranks)

/-- What becomes of an item in its group. -/
def fateIn (values : List GovernedEvidence) (item : GovernedEvidence) : Option GovernedEvidence :=
  if distinctCount (values.map (·.claimValue)) ≤ 1 then some item
  else if authorityRank item.authorityLevel = bestRank values then
    if distinctCount ((topOf values).map (·.claimValue)) = 1 then some item else some item.flagged
  else none

theorem resolveGroup_eq (values : List GovernedEvidence) :
    resolveGroup values = values.filterMap (fateIn values) := by
  have htop (f : GovernedEvidence → GovernedEvidence) : (topOf values).map f =
    values.filterMap fun item =>
      if authorityRank item.authorityLevel = bestRank values then some (f item) else none := by
    unfold topOf
    rw [← List.filterMap_eq_map, List.filterMap_filter]
    simp only [decide_eq_true_eq, Function.comp_apply]
  unfold resolveGroup fateIn
  split
  · exact List.filterMap_some.symm
  · split
    · rw [← htop, List.map_id']
    · exact htop _

/-- What becomes of a candidate. -/
def fate (items : List GovernedEvidence) (item : GovernedEvidence) : Option GovernedEvidence :=
  match item.grouped, item.conflictKey with
  | true, some key => fateIn (groupOf items key) item
  | _, _ => some item

theorem fate_of_grouped (hgrouped : item.grouped = true) (hkey : item.conflictKey = some key) :
    fate items item = fateIn (groupOf items key) item := by
  unfold fate
  rw [hgrouped, hkey]

theorem fate_eq (h : fate items item = some x) : x = item ∨ x = item.flagged := by
  have hin (values : List GovernedEvidence) (h : fateIn values item = some x) : x = item ∨
      x = item.flagged := by
    unfold fateIn at h
    split at h
    · exact .inl (Option.some.inj h).symm
    · split at h
      · split at h
        · exact .inl (Option.some.inj h).symm
        · exact .inr (Option.some.inj h).symm
      · cases h
  unfold fate at h
  split at h
  · exact hin _ h
  · exact .inl (Option.some.inj h).symm

theorem fate_of_not_grouped (h : item.grouped = false) : fate items item = some item := by
  unfold fate
  rw [h]

theorem groupOf_eq :
    groupOf items key = (items.filter (·.grouped)).filter (·.conflictKey = some key) := by
  unfold groupOf
  rw [List.filter_filter]
  refine List.filter_congr fun item _ => ?_
  rw [Bool.and_comm]
  exact congrArg (· && item.grouped) (beq_eq_decide _ _)

theorem mem_groupKeys :
    key ∈ groupKeys items ↔ ∃ item ∈ items, item.grouped = true ∧ item.conflictKey = some key := by
  unfold groupKeys
  rw [List.mem_eraseDups, List.mem_filterMap]
  constructor
  · rintro ⟨item, hitem, hkey⟩
    obtain ⟨hitem, hgrouped⟩ := List.mem_filter.mp hitem
    exact ⟨item, hitem, hgrouped, hkey⟩
  · rintro ⟨item, hitem, hgrouped, hkey⟩
    exact ⟨item, List.mem_filter.mpr ⟨hitem, hgrouped⟩, hkey⟩

theorem conflictKey_of_grouped (h : item.grouped = true) :
    ∃ key, key ≠ "" ∧ item.conflictKey = some key := by
  unfold GovernedEvidence.grouped at h
  cases hkey : item.conflictKey with
  | none =>
    rw [hkey] at h
    cases h
  | some key =>
    rw [hkey, Bool.and_eq_true] at h
    exact ⟨key, of_decide_eq_true h.1, rfl⟩

/-- **What the conflicts leave is what becomes of the candidates**, in another order. -/
theorem resolve_perm (items : List GovernedEvidence) :
    (resolveExplicitConflicts items).Perm (items.filterMap (fate items)) := by
  have hgrouped : ((groupKeys items).flatMap fun key => resolveGroup (groupOf items key)).Perm
      ((items.filter (·.grouped)).filterMap (fate items)) := by
    have hnodup : ((groupKeys items).map some).Nodup :=
      (Ranking.nodup_eraseDups _).map (Option.some_injective _)
    have hgroups : (((groupKeys items).map some).flatMap fun k =>
      (items.filter (·.grouped)).filter (·.conflictKey = k)).Perm
        (items.filter (·.grouped)) :=
      Ranking.flatMap_groups_perm hnodup fun item hitem => by
        obtain ⟨hitem, hgrouped⟩ := List.mem_filter.mp hitem
        obtain ⟨key, -, hkey⟩ := conflictKey_of_grouped hgrouped
        rw [hkey]
        exact List.mem_map_of_mem (mem_groupKeys.mpr ⟨item, hitem, hgrouped, hkey⟩)
    have hfates : ((groupKeys items).flatMap fun key => resolveGroup (groupOf items key)) =
        (((groupKeys items).map some).flatMap fun k =>
          (items.filter (·.grouped)).filter (·.conflictKey = k)).filterMap
          (fate items) := by
      rw [List.flatMap_map, List.filterMap_flatMap]
      refine List.flatMap_congr fun key _ => ?_
      rw [resolveGroup_eq, ← groupOf_eq]
      refine List.filterMap_congr fun item hitem => ?_
      obtain ⟨-, hgrouped, hkey⟩ := mem_groupOf.mp hitem
      exact (fate_of_grouped hgrouped hkey).symm
    rw [hfates]
    exact hgroups.filterMap _
  have hplain : items.filter (!·.grouped) = (items.filter (!·.grouped)).filterMap (fate items) := by
    rw [List.filterMap_congr (g := some) fun item hitem => ?_, List.filterMap_some]
    exact fate_of_not_grouped (Bool.not_eq_true' _ ▸ (List.mem_filter.mp hitem).2)
  unfold resolveExplicitConflicts
  rw [hplain]
  refine (List.perm_append_comm.trans (hgrouped.append_right _)).trans ?_
  rw [← List.filterMap_append]
  exact (List.filter_append_perm _ items).filterMap _

theorem mem_resolve_iff :
    x ∈ resolveExplicitConflicts items ↔ ∃ item ∈ items, fate items item = some x := by
  rw [(resolve_perm items).mem_iff, List.mem_filterMap]

end ProjectAgent.Evidence
