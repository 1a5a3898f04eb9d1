/-
The order in which the provider returns its chunks. Where no two eligible
chunks tie, in their text or in the order of evidence, it makes no difference
to the pack; where two do, the one that comes first is kept or packed first.
-/
import ProjectAgent.Evidence.Conflicts
import ProjectAgent.Evidence.OneCurrent

namespace ProjectAgent.Evidence

open Documents (Tables)
open Interleave

/-! ## What does not read the order -/

variable {items items' values values' : List GovernedEvidence}
  {a b x y : GovernedEvidence} {n : Nat}

theorem distinctCount_perm {α : Type} [DecidableEq α] {values values' : List α}
    (h : values.Perm values') :
    distinctCount values = distinctCount values' := by
  refine List.Perm.length_eq
    ((List.perm_ext_iff_of_nodup (Ranking.nodup_eraseDups _) (Ranking.nodup_eraseDups _)).mpr
    fun a => ?_)
  rw [List.mem_eraseDups, List.mem_eraseDups, h.mem_iff]

theorem bestRank_perm (h : values.Perm values') : bestRank values = bestRank values' := by
  have hranks := h.map fun item => authorityRank item.authorityLevel
  unfold bestRank
  congr 1
  cases hmin : (values.map fun item => authorityRank item.authorityLevel).min? with
  | none =>
    rw [List.min?_eq_none_iff] at hmin
    rw [hmin] at hranks
    rw [hranks.symm.eq_nil]
    rfl
  | some best =>
    obtain ⟨hmem, hle⟩ := List.min?_eq_some_iff.mp hmin
    exact (List.min?_eq_some_iff.mpr ⟨hranks.mem_iff.mp hmem, fun rank hrank =>
      hle rank (hranks.mem_iff.mpr hrank)⟩).symm

theorem topOf_perm (h : values.Perm values') : (topOf values).Perm (topOf values') := by
  unfold topOf
  rw [bestRank_perm h]
  exact h.filter _

theorem fateIn_perm (h : values.Perm values') : fateIn values = fateIn values' := by
  funext item
  unfold fateIn
  rw [distinctCount_perm (h.map (·.claimValue)), bestRank_perm h,
    distinctCount_perm ((topOf_perm h).map (·.claimValue))]

theorem fate_perm (h : items.Perm items') : fate items = fate items' := by
  funext item
  unfold fate
  split
  · exact congrFun (fateIn_perm (h.filter _)) item
  · rfl

theorem resolve_of_perm (h : items.Perm items') :
    (resolveExplicitConflicts items).Perm (resolveExplicitConflicts items') := by
  refine ((resolve_perm items).trans ?_).trans (resolve_perm items').symm
  rw [fate_perm h]
  exact h.filterMap _

/-! ## Ties -/

/-- Two that the sort does not tell apart. -/
def Tied (a b : GovernedEvidence) : Prop :=
  a.documentVersionId = b.documentVersionId ∧ a.score = b.score

instance : DecidableRel Tied := fun _ _ => inferInstanceAs (Decidable (_ ∧ _))

/-- No two are of one version with one text or one score, and every score is a number. -/
structure NoTies (items : List GovernedEvidence) : Prop where
  numbered : Numbered items
  text : ∀ a ∈ items, ∀ b ∈ items, textKey a = textKey b → a = b
  score : ∀ a ∈ items, ∀ b ∈ items, Tied a b → a = b

theorem tied_of_sortKey (h : sortKey a = sortKey b) : Tied a b := by
  unfold sortKey at h
  obtain ⟨-, h⟩ := Prod.mk.inj (toLex.injective h)
  obtain ⟨hscore, h⟩ := Prod.mk.inj (toLex.injective h)
  obtain ⟨-, hversion⟩ := Prod.mk.inj (toLex.injective h)
  exact ⟨UUID.str_inj hversion, scoreKey_injective hscore⟩

theorem Numbered.perm (h : Numbered items) (hperm : items.Perm items') : Numbered items' :=
  fun item hitem =>
  h item (hperm.mem_iff.mpr hitem)

/-- **Without ties the pack is one of the candidates, not of their order.** -/
theorem packOf_perm (hties : NoTies items) (h : items.Perm items') :
    packOf n items = packOf n items' := by
  have hnumbered := hties.numbered.resolved
  have hresolved := resolve_of_perm h
  have hsorted : sortEvidence (resolveExplicitConflicts items) =
      sortEvidence (resolveExplicitConflicts items') := by
    refine List.Perm.eq_of_pairwise (fun x y hx hy hxy hyx => ?_) (sortEvidence_pairwise hnumbered)
      (sortEvidence_pairwise (hnumbered.perm hresolved)) ?_
    · obtain ⟨a, ha, hax⟩ := mem_resolve_iff.mp (mem_sortEvidence.mp hx)
      obtain ⟨b, hb, hby⟩ := mem_resolve_iff.mp (hresolved.mem_iff.mpr (mem_sortEvidence.mp hy))
      have hkey {c z : GovernedEvidence} (hfate : fate items c = some z) : sortKey z =
          sortKey c := by
        rcases fate_eq hfate with rfl | rfl
        · rfl
        · rfl
      have heq : sortKey a = sortKey b := by rw [← hkey hax, ← hkey hby, le_antisymm hxy hyx]
      obtain rfl := hties.score a ha b hb (tied_of_sortKey heq)
      exact Option.some.inj (hax.symm.trans hby)
    · unfold sortEvidence
      exact ((List.perm_insertionSort _ _).trans hresolved).trans (List.perm_insertionSort _ _).symm
  unfold packOf
  rw [hsorted]

/-- Nor are the candidates of the order of the eligible chunks. -/
theorem firsts_perm (htext : ∀ a ∈ items, ∀ b ∈ items, textKey a = textKey b → a = b)
    (h : items.Perm items') :
    (Ranking.firsts textKey [] items).Perm (Ranking.firsts textKey [] items') := by
  have hmem {l : List GovernedEvidence} (htext : ∀ a ∈ l, ∀ b ∈ l, textKey a = textKey b → a = b)
    (a : GovernedEvidence) :
      a ∈ Ranking.firsts textKey [] l ↔ a ∈ l := by
    refine ⟨Ranking.mem_of_mem_firsts, fun ha => ?_⟩
    obtain ⟨b, hb, hkey⟩ :=
      Ranking.exists_firsts List.not_mem_nil (List.mem_map_of_mem (f := textKey) ha)
    exact htext b (Ranking.mem_of_mem_firsts hb) a ha hkey ▸ hb
  refine (List.perm_ext_iff_of_nodup (Ranking.nodup_firsts [] items).of_map
    (Ranking.nodup_firsts [] items').of_map).mpr
    fun a => ?_
  rw [hmem htext, hmem fun a ha b hb => htext a (h.mem_iff.mpr ha) b (h.mem_iff.mpr hb), h.mem_iff]

/-! ## The order of the chunks -/

section Pack

variable {t : Tables} {maxEvidence : Nat} {today : Date} {projectId : UUID} {projectCode : String}
  {chunks chunks' : List KnowledgeChunk}

/-- The metadata is of the versions that are asked for, in whatever order. -/
theorem getDocumentEvidenceMetadata_congr {ids ids' : List UUID} (h : ∀ id, id ∈ ids ↔ id ∈ ids') :
    getDocumentEvidenceMetadata t ids = getDocumentEvidenceMetadata t ids' := by
  have hempty : ids.isEmpty = ids'.isEmpty := by
    rw [Bool.eq_iff_iff, List.isEmpty_iff, List.isEmpty_iff, List.eq_nil_iff_forall_not_mem,
      List.eq_nil_iff_forall_not_mem]
    exact forall_congr' fun id => not_congr (h id)
  have hrows : requestedRows t ids = requestedRows t ids' :=
    List.filter_congr fun row _ => decide_eq_decide.mpr (h row.1.id)
  unfold getDocumentEvidenceMetadata
  rw [hempty, hrows]

/-- **The order of the chunks makes no difference to their pack**, where no two eligible ones
tie. -/
theorem pack_perm (h : chunks.Perm chunks')
    (hties : ∀ found, getDocumentEvidenceMetadata t (versionIds projectCode chunks) = .ok found →
      NoTies (eligibleOf found today projectId projectCode chunks)) :
    pack (getDocumentEvidenceMetadata t) maxEvidence today projectId projectCode chunks =
      pack (getDocumentEvidenceMetadata t) maxEvidence today projectId projectCode chunks' := by
  have hparsed : (parsedChunks projectCode chunks).Perm (parsedChunks projectCode chunks') :=
    h.filterMap _
  have hids : getDocumentEvidenceMetadata t (versionIds projectCode chunks) =
      getDocumentEvidenceMetadata t (versionIds projectCode chunks') := by
    refine getDocumentEvidenceMetadata_congr fun id => ?_
    rw [List.mem_eraseDups, List.mem_eraseDups, (hparsed.map _).mem_iff]
  cases hfound : getDocumentEvidenceMetadata t (versionIds projectCode chunks) with
  | error e =>
    have hfails {chunks : List KnowledgeChunk}
      (herror : getDocumentEvidenceMetadata t (versionIds projectCode chunks) = .error e) :
        pack (getDocumentEvidenceMetadata t) maxEvidence today projectId projectCode chunks =
          .error e := by
      unfold pack
      dsimp only
      rw [herror]
      rfl
    rw [hfails hfound, hfails (hids ▸ hfound)]
  | ok found =>
    rw [pack_of_found hfound, pack_of_found (hids ▸ hfound)]
    obtain ⟨hnumbered, htext, hscore⟩ := hties found hfound
    have hfirsts := @firsts_perm _ (eligibleOf found today projectId projectCode chunks') htext
      (hparsed.filterMap _)
    refine congrArg Except.ok (packOf_perm ⟨fun item hitem => ?_, fun a ha b hb => ?_,
      fun a ha b hb => ?_⟩ hfirsts)
    · exact hnumbered item (Ranking.mem_of_mem_firsts hitem)
    · exact htext a (Ranking.mem_of_mem_firsts ha) b (Ranking.mem_of_mem_firsts hb)
    · exact hscore a (Ranking.mem_of_mem_firsts ha) b (Ranking.mem_of_mem_firsts hb)

end Pack

namespace Sample

def apart : List KnowledgeChunk := [chunk ⟨7⟩ "first" (1 / 2), chunk ⟨7⟩ "second" (9 / 10)]

def oneText : List KnowledgeChunk := [chunk ⟨7⟩ "text" (1 / 2), chunk ⟨7⟩ "text" (9 / 10)]

def oneScore : List KnowledgeChunk := [chunk ⟨7⟩ "first" (1 / 2), chunk ⟨7⟩ "second" (1 / 2)]

def noScore : List KnowledgeChunk :=
  [chunk ⟨7⟩ "first" (1 / 2), { chunk ⟨7⟩ "second" 0 with score := .nan }]

def packed (chunks : List KnowledgeChunk) : Option GovernedEvidencePack :=
  (pack (getDocumentEvidenceMetadata publishedSnapshot.tables) 8 today ⟨2⟩ "P-1" chunks).toOption

end Sample

theorem pack_perm_sample :
    pack (getDocumentEvidenceMetadata publishedSnapshot.tables) 8 Sample.today
      ⟨2⟩ "P-1" Sample.apart =
      pack (getDocumentEvidenceMetadata publishedSnapshot.tables) 8 Sample.today
        ⟨2⟩ "P-1" Sample.apart.reverse := by
  refine pack_perm (List.reverse_perm _).symm fun found hfound => ?_
  obtain rfl : [(⟨7⟩, publishedMetadata 7)] = found := Except.ok.inj hfound
  exact ⟨by decide +kernel, by decide +kernel, by decide +kernel⟩

/-- Chunks of one text, of one score, and with a score that is no number, are packed by their
order. -/
theorem order_matters : Sample.packed Sample.oneText ≠ Sample.packed Sample.oneText.reverse ∧
    Sample.packed Sample.oneScore ≠ Sample.packed Sample.oneScore.reverse ∧
    Sample.packed Sample.noScore ≠ Sample.packed Sample.noScore.reverse := by
  refine ⟨?_, ?_, ?_⟩ <;> decide +kernel

end ProjectAgent.Evidence
