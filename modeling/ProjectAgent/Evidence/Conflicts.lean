/-
Whether a conflict between eligible chunks is told. A conflict between packed
items is; but of two chunks of one version with one text the second is dropped
before the conflicts are looked at, whatever it claims.
-/
import ProjectAgent.Evidence.Shape

namespace ProjectAgent.Evidence

open Interleave

/-! ## Claims -/

def GovernedEvidence.Claims (item : GovernedEvidence) (key value : String) : Prop :=
  item.conflictKey = some key ∧ item.claimValue = some value

instance (item : GovernedEvidence) (key value : String) : Decidable (item.Claims key value) :=
  inferInstanceAs (Decidable (_ ∧ _))

/-- Claimed of the key by an item of the best authority among those of the key. -/
def ClaimedBest (items : List GovernedEvidence) (key value : String) : Prop :=
  ∃ item ∈ items, item.Claims key value ∧ ∀ other ∈ items, other.conflictKey = some key →
    authorityRank item.authorityLevel ≤ authorityRank other.authorityLevel

instance (items : List GovernedEvidence) (key value : String) :
    Decidable (ClaimedBest items key value) :=
  inferInstanceAs (Decidable (∃ item ∈ items, _))

/-- Two things are claimed of the key with the best authority. -/
def Opposed (items : List GovernedEvidence) (key value value' : String) : Prop :=
  value ≠ value' ∧ ClaimedBest items key value ∧ ClaimedBest items key value'

instance (items : List GovernedEvidence) (key value value' : String) :
    Decidable (Opposed items key value value') :=
  inferInstanceAs (Decidable (_ ∧ _))

/-- Claimed of the key by an item of the best authority among those that claim something of it. -/
def Kept (items : List GovernedEvidence) (key value : String) : Prop :=
  ∃ item ∈ items, item.Claims key value ∧ ∀ other ∈ items, other.conflictKey = some key →
    other.claimValue.isSome = true →
    authorityRank item.authorityLevel ≤ authorityRank other.authorityLevel

def Flagged (p : GovernedEvidencePack) (key value : String) : Prop :=
  ∃ item ∈ p.evidence, item.Claims key value ∧ item.unresolvedConflict = true

/-- Both sides of a conflict are packed and flagged, and the key is in the map with the labels of
what claims something of it. -/
structure Told (p : GovernedEvidencePack) (key value value' : String) : Prop where
  left : Flagged p key value
  right : Flagged p key value'
  labels : p.unresolvedConflicts.lookup key = some ((carrying p.evidence key).map (·.label))

variable {items : List GovernedEvidence} {item x : GovernedEvidence}
  {key value value' : String} {n : Nat}

theorem GovernedEvidence.Claims.grouped (hkeyed : item.conflictKey ≠ some "")
    (h : item.Claims key value) : item.grouped = true := by
  unfold GovernedEvidence.grouped
  rw [h.1, h.2, Option.isSome_some, Bool.and_true]
  exact decide_eq_true fun hempty : key = "" => hkeyed (hempty ▸ h.1)

/-- What is kept is the best of its group. -/
theorem kept_iff (hkeyed : ∀ item ∈ items, item.conflictKey ≠ some "") : Kept items key value ↔
    ∃ item ∈ topOf (groupOf items key), item.claimValue = some value := by
  constructor
  · rintro ⟨item, hitem, hclaims, hbest⟩
    refine ⟨item, mem_topOf_iff.mpr ⟨?_, fun other hother => ?_⟩, hclaims.2⟩
    · exact mem_groupOf.mpr ⟨hitem, hclaims.grouped (hkeyed item hitem), hclaims.1⟩
    · obtain ⟨hother, hgrouped, hkey⟩ := mem_groupOf.mp hother
      exact hbest other hother hkey (Bool.and_eq_true _ _ ▸ hgrouped).2
  · rintro ⟨item, hitem, hvalue⟩
    obtain ⟨hitem, hbest⟩ := mem_topOf_iff.mp hitem
    obtain ⟨hmem, hgrouped, hkey⟩ := mem_groupOf.mp hitem
    refine ⟨item, hmem, ⟨hkey, hvalue⟩, fun other hother hkey' hclaim =>
      hbest other (mem_groupOf.mpr ⟨hother, ?_, hkey'⟩)⟩
    obtain ⟨value', hvalue'⟩ := Option.isSome_iff_exists.mp hclaim
    exact GovernedEvidence.Claims.grouped (hkeyed other hother) ⟨hkey', hvalue'⟩

/-! ## What is packed of a conflict -/

/-- A flagged item is the best of its group. -/
theorem flagged_kept (hplain : ∀ item ∈ items, item.unresolvedConflict = false)
    (hkeyed : ∀ item ∈ items, item.conflictKey ≠ some "") (h : Flagged (packOf n items) key value) :
    Kept items key value := by
  obtain ⟨x, hx, ⟨hkey, hvalue⟩, hflag⟩ := h
  have hcarry : x ∈ carrying (packOf n items).evidence key :=
    mem_carrying.mpr ⟨hx, hkey, Option.isSome_iff_exists.mpr ⟨value, hvalue⟩⟩
  obtain ⟨item, hitem, y, label, hfate, rfl⟩ := carrying_fate hkeyed hcarry
  have hunflagged (hsame : y = item) : False := by
    have hfalse := hplain item (mem_groupOf.mp hitem).1
    rw [← hsame] at hfalse
    exact Bool.false_ne_true (hfalse.symm.trans hflag)
  refine (kept_iff hkeyed).mpr ⟨item, ?_, ?_⟩
  · unfold fateIn at hfate
    split at hfate
    · exact (hunflagged (Option.some.inj hfate).symm).elim
    · rw [Option.ite_none_right_eq_some] at hfate
      exact List.mem_filter.mpr ⟨hitem, decide_eq_true hfate.1⟩
  · obtain ⟨hmem, hgrouped, hkey'⟩ := mem_groupOf.mp hitem
    have hfate' : fate items item = some y := (fate_of_grouped hgrouped hkey').trans hfate
    rcases fate_eq hfate' with rfl | rfl
    · exact hvalue
    · exact hvalue

/-- **Of a group whose best claim two things, each is packed and flagged.** -/
theorem kept_flagged (hkeyed : ∀ item ∈ items, item.conflictKey ≠ some "") (hne : value ≠ value')
    (h : Kept items key value) (h' : Kept items key value') :
    Flagged (packOf n items) key value := by
  obtain ⟨a, ha, hvalue⟩ := (kept_iff hkeyed).mp h
  obtain ⟨b, hb, hvalue'⟩ := (kept_iff hkeyed).mp h'
  have hgroup := mem_topOf ha
  obtain ⟨hmem, hgrouped, hkey⟩ := mem_groupOf.mp hgroup
  have htwo (values : List GovernedEvidence) (ha : a ∈ values) (hb : b ∈ values) :
      ¬ distinctCount (values.map (·.claimValue)) ≤ 1 := by
    intro hle
    have hsame := distinctCount_le_one.mp hle _ (List.mem_map_of_mem ha) _ (List.mem_map_of_mem hb)
    rw [hvalue, hvalue'] at hsame
    exact hne (Option.some.inj hsame)
  have hfate : fate items a = some a.flagged := by
    rw [fate_of_grouped hgrouped hkey]
    unfold fateIn
    rw [if_neg (htwo _ hgroup (mem_topOf hb)), if_pos (of_decide_eq_true (List.mem_filter.mp ha).2),
      if_neg fun hone => htwo _ ha hb (Nat.le_of_eq hone)]
  have hresolved : a.flagged ∈ resolveExplicitConflicts items :=
    mem_resolve_iff.mpr ⟨a, hmem, hfate⟩
  obtain ⟨i, hi⟩ := List.mem_iff_getElem?.mp
    (select_of_flagged (n := n) (mem_sortEvidence.mpr hresolved) rfl hkey)
  exact ⟨_, mem_labeled.mpr ⟨i, a.flagged, hi, rfl⟩, ⟨hkey, hvalue⟩, rfl⟩

/-- The map has the labels of what claims something of a key, once two things are claimed. -/
theorem lookup_of_flagged (hplain : ∀ item ∈ items, item.unresolvedConflict = false)
    (hkeyed : ∀ item ∈ items, item.conflictKey ≠ some "") (hne : value ≠ value')
    (h : Flagged (packOf n items) key value) (h' : Flagged (packOf n items) key value') :
    (packOf n items).unresolvedConflicts.lookup key =
      some ((carrying (packOf n items).evidence key).map (·.label)) := by
  have hmem {value : String} (h : Flagged (packOf n items) key value) :
      some value ∈ (carrying (packOf n items).evidence key).map (·.claimValue) := by
    obtain ⟨x, hx, ⟨hkey, hvalue⟩, -⟩ := h
    exact hvalue ▸ List.mem_map_of_mem
      (mem_carrying.mpr ⟨hx, hkey, Option.isSome_iff_exists.mpr ⟨_, hvalue⟩⟩)
  rw [packOf_conflicts hplain hkeyed, if_pos]
  by_contra hle
  exact hne (Option.some.inj (distinctCount_le_one.mp (Nat.not_lt.mp hle) _ (hmem h) _ (hmem h')))

/-! ## Conflicts between chunks -/

section Pack

variable {repository : Repository} {maxEvidence : Nat} {today : Date} {projectId : UUID}
  {projectCode : String}
  {chunks : List KnowledgeChunk} {found : List (UUID × DocumentEvidenceMetadata)}

/-- **When every conflict between eligible chunks is told**: exactly when each of its claims is also
made, with the best authority that is left, by a chunk that is the first of its version and text. -/
theorem conflicts_told_iff (hfound : repository (versionIds projectCode chunks) = .ok found) :
    ∃ p, pack repository maxEvidence today projectId projectCode chunks = .ok p ∧
      ((∀ key value value',
        Opposed (eligibleOf found today projectId projectCode chunks) key value value' →
          Told p key value value') ↔
        ∀ key value value',
          Opposed (eligibleOf found today projectId projectCode chunks) key value value' →
          Kept (Ranking.firsts textKey [] (eligibleOf found today projectId projectCode chunks))
            key value ∧
          Kept (Ranking.firsts textKey [] (eligibleOf found today projectId projectCode chunks)) key
            value') := by
  refine ⟨_, pack_of_found hfound, ?_⟩
  generalize hitems : Ranking.firsts textKey []
    (eligibleOf found today projectId projectCode chunks) = items
  have hplain : ∀ item ∈ items, item.unresolvedConflict = false := fun item hitem =>
    (eligibleItems_keyed (Ranking.mem_of_mem_firsts (hitems ▸ hitem))).1
  have hkeyed : ∀ item ∈ items, item.conflictKey ≠ some "" := fun item hitem =>
    (eligibleItems_keyed (Ranking.mem_of_mem_firsts (hitems ▸ hitem))).2
  constructor
  · intro htold key value value' hopposed
    obtain ⟨hleft, hright, -⟩ := htold key value value' hopposed
    exact ⟨flagged_kept hplain hkeyed hleft, flagged_kept hplain hkeyed hright⟩
  · intro hkept key value value' hopposed
    obtain ⟨h, h'⟩ := hkept key value value' hopposed
    have hleft := kept_flagged (n := maxEvidence) hkeyed hopposed.1 h h'
    have hright := kept_flagged (n := maxEvidence) hkeyed (Ne.symm hopposed.1) h' h
    exact ⟨hleft, hright, lookup_of_flagged hplain hkeyed hopposed.1 hleft hright⟩

end Pack

namespace Sample

def found : List (UUID × DocumentEvidenceMetadata) :=
  [(.ofNat 11, info (.ofNat 11) 1), (.ofNat 12, info (.ofNat 12) 2)]

/-- One text twice, with another claim each time. -/
def sameText : List KnowledgeChunk :=
  [{ chunk (.ofNat 11) "The deadline" (9 / 10) with
      metadata := Dict.ofList [("conflict_key", "deadline"), ("claim_value", "May")] },
    { chunk (.ofNat 11) "The deadline" (8 / 10) with
      metadata := Dict.ofList [("conflict_key", "deadline"), ("claim_value", "June")] }]

end Sample

theorem conflicts_told_sample :
    ∃ p, pack Sample.repository 8 Sample.today (.ofNat 1) "P-1" Sample.conflict = .ok p ∧
    Told p "deadline" "May" "June" := by
  obtain ⟨p, hpack, htold⟩ :=
    @conflicts_told_iff Sample.repository 8 Sample.today (.ofNat 1) "P-1" Sample.conflict _ rfl
  refine ⟨p, hpack, htold.mpr (fun key value value' hopposed =>
    ?_) "deadline" "May" "June" (by decide +kernel)⟩
  have hkept {value : String}
    (h : ClaimedBest (eligibleOf Sample.found Sample.today (.ofNat 1) "P-1" Sample.conflict)
    key value) :
      Kept (Ranking.firsts textKey []
        (eligibleOf Sample.found Sample.today (.ofNat 1) "P-1" Sample.conflict)) key value := by
    have hfirsts : Ranking.firsts textKey []
      (eligibleOf Sample.found Sample.today (.ofNat 1) "P-1" Sample.conflict) =
      eligibleOf Sample.found Sample.today (.ofNat 1) "P-1" Sample.conflict := by decide +kernel
    rw [hfirsts]
    obtain ⟨item, hitem, hclaims, hbest⟩ := h
    exact ⟨item, hitem, hclaims, fun other hother hkey _ => hbest other hother hkey⟩
  exact ⟨hkept hopposed.2.1, hkept hopposed.2.2⟩

/-- The second claim is dropped with its text, and the conflict is not told. -/
theorem conflict_hidden :
    ∃ p, pack Sample.repository 8 Sample.today (.ofNat 1) "P-1" Sample.sameText = .ok p ∧
    Opposed (eligibleOf Sample.found Sample.today (.ofNat 1) "P-1" Sample.sameText) "deadline"
      "May" "June" ∧
    p.unresolvedConflicts = [] ∧ ¬ Told p "deadline" "May" "June" := by
  refine ⟨_,
    rfl, by decide +kernel, by decide +kernel, fun htold => absurd htold.labels (by decide +kernel)⟩

end ProjectAgent.Evidence
