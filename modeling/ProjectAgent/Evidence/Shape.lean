/-
The shape of a pack: its labels, its order, what it says of each conflict, and
how much of it is not in a conflict. A score that is no number has no place in
the order, so the order is that of the packs whose chunks have none.
-/
import ProjectAgent.Evidence.Fates
import ProjectAgent.Evidence.Frozen
import Mathlib.Data.Prod.Lex
import Mathlib.Data.String.Basic

namespace ProjectAgent.Evidence

open Interleave

/-! ## The order -/

/-- By authority, then the greater score, then the later version, then the version's id. -/
def Before (a b : GovernedEvidence) : Prop :=
  authorityRank a.authorityLevel < authorityRank b.authorityLevel ∨
    authorityRank a.authorityLevel = authorityRank b.authorityLevel ∧
      (Score.lt b.score a.score = true ∨
        a.score = b.score ∧
          (b.versionNo < a.versionNo ∨
            b.versionNo = a.versionNo ∧ a.documentVersionId.str ≤ b.documentVersionId.str))

instance : DecidableRel Before := fun _ _ => inferInstanceAs (Decidable (_ ∨ _))

/-- The scores in a line, the greater first. -/
def scoreKey : Score → (ℕ ×ₗ ℚ)ᵒᵈ
  | .negInf => OrderDual.toDual (toLex (0, 0))
  | .finite q => OrderDual.toDual (toLex (1, q))
  | .posInf => OrderDual.toDual (toLex (2, 0))
  | .nan => OrderDual.toDual (toLex (3, 0))

def sortKey (item : GovernedEvidence) : ℕ ×ₗ (ℕ ×ₗ ℚ)ᵒᵈ ×ₗ ℕᵒᵈ ×ₗ String :=
  toLex (authorityRank item.authorityLevel, toLex (scoreKey item.score,
    toLex (OrderDual.toDual item.versionNo, item.documentVersionId.str)))

theorem scoreKey_lt {s t : Score} (hs : s ≠ .nan) (ht : t ≠ .nan) :
    scoreKey s < scoreKey t ↔ Score.lt t s = true := by
  cases s <;> cases t <;> first
    | exact absurd rfl hs
    | exact absurd rfl ht
    | simp [scoreKey, Score.lt, Prod.Lex.toLex_lt_toLex]

theorem scoreKey_injective : Function.Injective scoreKey := by
  intro s t h
  cases s <;> cases t <;> simp [scoreKey] at h <;> first
    | rfl
    | rw [h]

theorem scoreKey_eq {s t : Score} : scoreKey s = scoreKey t ↔ s = t := scoreKey_injective.eq_iff

theorem eq_iff {s t : Score} (hs : s ≠ .nan) : Score.eq s t = true ↔ s = t := by
  cases s <;> cases t <;> simp_all [Score.eq]

variable {a b : GovernedEvidence}

theorem sortKey_lt : sortKey a < sortKey b ↔
    authorityRank a.authorityLevel < authorityRank b.authorityLevel ∨
      authorityRank a.authorityLevel = authorityRank b.authorityLevel ∧
        (scoreKey a.score < scoreKey b.score ∨ a.score = b.score ∧
          (b.versionNo < a.versionNo ∨
            b.versionNo = a.versionNo ∧ a.documentVersionId.str < b.documentVersionId.str)) := by
  unfold sortKey
  rw [Prod.Lex.toLex_lt_toLex, Prod.Lex.toLex_lt_toLex, Prod.Lex.toLex_lt_toLex]
  dsimp only
  rw [scoreKey_eq, OrderDual.toDual_lt_toDual, OrderDual.toDual_inj, eq_comm (a := a.versionNo)]

theorem sortKey_le : sortKey a ≤ sortKey b ↔
    authorityRank a.authorityLevel < authorityRank b.authorityLevel ∨
      authorityRank a.authorityLevel = authorityRank b.authorityLevel ∧
        (scoreKey a.score < scoreKey b.score ∨ a.score = b.score ∧
          (b.versionNo < a.versionNo ∨
            b.versionNo = a.versionNo ∧ a.documentVersionId.str ≤ b.documentVersionId.str)) := by
  unfold sortKey
  rw [Prod.Lex.toLex_le_toLex, Prod.Lex.toLex_le_toLex, Prod.Lex.toLex_le_toLex]
  dsimp only
  rw [scoreKey_eq, OrderDual.toDual_lt_toDual, OrderDual.toDual_inj, eq_comm (a := a.versionNo)]

/-- Of scores that are numbers the sort key of the code says what this one says. -/
theorem keyLt_iff (ha : a.score ≠ .nan) (hb : b.score ≠ .nan) :
    keyLt a b = true ↔ sortKey a < sortKey b := by
  rw [sortKey_lt, scoreKey_lt ha hb]
  unfold keyLt
  by_cases hrank : authorityRank a.authorityLevel = authorityRank b.authorityLevel
  · rw [if_neg (not_not.mpr hrank)]
    have hnot : ¬ authorityRank a.authorityLevel < authorityRank b.authorityLevel := by omega
    rw [or_iff_right hnot, and_iff_right hrank]
    by_cases hscore : a.score = b.score
    · rw [if_neg (by rw [(eq_iff ha).mpr hscore]; exact Bool.false_ne_true)]
      have hnot : ¬ Score.lt b.score a.score = true := by
        rw [← scoreKey_lt ha hb, hscore]
        exact lt_irrefl _
      rw [or_iff_right hnot, and_iff_right hscore]
      by_cases hno : a.versionNo = b.versionNo
      · have hnot : ¬ b.versionNo < a.versionNo := by omega
        rw [if_neg (not_not.mpr hno), or_iff_right hnot, and_iff_right hno.symm, decide_eq_true_iff]
      · rw [if_pos hno, decide_eq_true_iff]
        exact (or_iff_left fun h => hno h.1.symm).symm
    · rw
        [if_pos
        (by rw [Bool.not_eq_true', Bool.eq_false_iff]; exact fun h => hscore ((eq_iff ha).mp h))]
      exact (or_iff_left fun h => hscore h.1).symm
  · rw [if_pos hrank, decide_eq_true_iff]
    exact (or_iff_left fun h => hrank h.1).symm

theorem keyLt_eq_false_iff (ha : a.score ≠ .nan) (hb : b.score ≠ .nan) :
    keyLt b a = false ↔ sortKey a ≤ sortKey b := by
  rw [← Bool.not_eq_true, keyLt_iff hb ha, not_lt]

theorem before_iff (ha : a.score ≠ .nan) (hb : b.score ≠ .nan) :
    Before a b ↔ sortKey a ≤ sortKey b := by
  rw [sortKey_le, scoreKey_lt ha hb]
  rfl

/-- The lists in which every score is a number. -/
def Numbered (items : List GovernedEvidence) : Prop := ∀ item ∈ items, item.score ≠ .nan

instance {items : List GovernedEvidence} : Decidable (Numbered items) :=
  inferInstanceAs (Decidable (∀ item ∈ items, _))

variable {items : List GovernedEvidence} {n : Nat}

theorem Numbered.sortEvidence (h : Numbered items) : Numbered (Evidence.sortEvidence items) :=
  fun item hitem =>
  h item (mem_sortEvidence.mp hitem)

/-- Of such a list the sort is the one by the key. -/
theorem sortEvidence_eq (h : Numbered items) :
    sortEvidence items = items.insertionSort fun a b => sortKey a ≤ sortKey b := by
  have hsame : List.Forall₂ (fun a b => a = b ∧ a.score ≠ .nan) items items := by
    rw [List.forall₂_same]
    exact fun item hitem => ⟨rfl, h item hitem⟩
  have hsort := Related.insertionSort (r := fun a b => keyLt b a = false)
    (s := fun a b => sortKey a ≤ sortKey b)
    (fun a b hab a' b' hab' => by rw [← hab.1, ← hab'.1, keyLt_eq_false_iff hab.2 hab'.2]) hsame
  exact List.forall₂_eq_eq_eq ▸ hsort.imp fun _ _ hab => hab.1

theorem sortEvidence_pairwise (h : Numbered items) :
    (sortEvidence items).Pairwise fun a b => sortKey a ≤ sortKey b := by
  have htotal : Std.Total fun a b : GovernedEvidence => sortKey a ≤ sortKey b :=
    ⟨fun _ _ => le_total _ _⟩
  have htrans : IsTrans GovernedEvidence fun a b => sortKey a ≤ sortKey b := ⟨fun _ _ _ => le_trans⟩
  rw [sortEvidence_eq h]
  exact List.pairwise_insertionSort _ _

theorem select_pairwise (h : Numbered items) :
    (select n (sortEvidence items)).Pairwise fun a b => sortKey a ≤ sortKey b := by
  unfold select
  split
  · exact (sortEvidence_pairwise h).take
  · refine sortEvidence_pairwise fun item hitem => ?_
    rcases List.mem_append.mp hitem with hitem | hitem
    · exact h.sortEvidence item (List.mem_of_mem_take hitem)
    · exact h.sortEvidence item (List.mem_of_mem_drop (List.mem_of_mem_filter hitem))

theorem Numbered.resolved (h : Numbered items) : Numbered (resolveExplicitConflicts items) := by
  intro x hx
  obtain ⟨item, hitem, rfl | rfl⟩ := mem_resolve hx
  · exact h x hitem
  · exact h item hitem

/-! ## Labels -/

theorem labeled_labels (selected : List GovernedEvidence) :
    (labeled selected).map (·.label) = (List.range' 1 selected.length).map labelOf := by
  unfold labeled
  rw [List.map_map, ← List.zipIdx_map_snd 1 selected, List.map_map]
  rfl

theorem length_labeled (selected : List GovernedEvidence) :
    (labeled selected).length = selected.length := by
  unfold labeled
  rw [List.length_map, List.length_zipIdx]

/-- What does not read the label is as it was before the labels. -/
theorem labeled_filter (p : GovernedEvidence → Bool)
    (hp : ∀ item label, p { item with label := label } = p item)
    (selected : List GovernedEvidence) :
    ((labeled selected).filter p).length = (selected.filter p).length := by
  have hsame : (labeled selected).map p = selected.map p := by
    unfold labeled
    rw [List.map_map, ← List.zipIdx_map_fst 1 selected, List.map_map, List.zipIdx_map_fst]
    exact List.map_congr_left fun entry _ => hp entry.1 _
  rw [← List.countP_eq_length_filter, ← List.countP_eq_length_filter, ← Function.id_comp p,
    ← List.countP_map,
    ← List.countP_map, hsame]

theorem labeled_pairwise (hnumbered : Numbered items)
    (h : items.Pairwise fun a b => sortKey a ≤ sortKey b) :
    (labeled items).Pairwise Before := by
  unfold labeled
  rw [List.pairwise_map]
  rw [← List.zipIdx_map_fst 1 items, List.pairwise_map] at h
  refine h.imp_of_mem fun {x y} hx hy hle => ?_
  have hmem : ∀ entry ∈ items.zipIdx 1, entry.1 ∈ items := fun entry hentry => by
    rw [← List.zipIdx_map_fst 1 items]
    exact List.mem_map_of_mem hentry
  exact (before_iff (hnumbered x.1 (hmem x hx)) (hnumbered y.1 (hmem y hy))).mpr hle

/-! ## Conflicts -/

/-- The items that claim something of the key. -/
def carrying (items : List GovernedEvidence) (key : String) : List GovernedEvidence :=
  items.filter fun item => item.conflictKey == some key && item.claimValue.isSome

/-- What a pack is, whatever it is of. -/
structure PackShape (maxEvidence : Nat) (p : GovernedEvidencePack) : Prop where
  labels : p.evidence.map (·.label) = (List.range' 1 p.evidence.length).map labelOf
  claims : ∀ key, (∀ a ∈ carrying p.evidence key, ∀ b ∈ carrying p.evidence key,
    a.claimValue = b.claimValue) ∨
    (∀ a ∈ carrying p.evidence key, ∀ b ∈ carrying p.evidence key,
      authorityRank a.authorityLevel = authorityRank b.authorityLevel) ∧
    ∀ a ∈ carrying p.evidence key, a.unresolvedConflict = true
  keys : (p.unresolvedConflicts.map (·.1)).Nodup
  conflicts : ∀ key, p.unresolvedConflicts.lookup key =
    if 1 < distinctCount ((carrying p.evidence key).map (·.claimValue)) then
      some ((carrying p.evidence key).map (·.label))
    else none
  bound : (p.evidence.filter (!·.unresolvedConflict)).length ≤ maxEvidence

variable {x : GovernedEvidence} {key : String}

theorem mem_carrying :
    x ∈ carrying items key ↔ x ∈ items ∧ x.conflictKey = some key ∧ x.claimValue.isSome = true := by
  unfold carrying
  rw [List.mem_filter, Bool.and_eq_true, beq_iff_eq]

/-- **A packed item is what became of a candidate**, with its label. -/
theorem packed_fate (h : x ∈ (packOf n items).evidence) :
    ∃ item ∈ items, ∃ y label, fate items item = some y ∧ x = { y with label := label } := by
  obtain ⟨i, y, hget, rfl⟩ := mem_labeled.mp h
  obtain ⟨item, hitem, hfate⟩ :=
    mem_resolve_iff.mp (mem_sortEvidence.mp (mem_of_mem_select (List.mem_of_getElem? hget)))
  exact ⟨item, hitem, y, _, hfate, rfl⟩

/-- A packed item that claims something of a key is what its group made of it. -/
theorem carrying_fate (hkeyed : ∀ item ∈ items, item.conflictKey ≠ some "")
    (h : x ∈ carrying (packOf n items).evidence key) :
    ∃ item ∈ groupOf items key, ∃ y label, fateIn (groupOf items key) item = some y ∧ x = { y with
      label := label } := by
  obtain ⟨hx, hkey, hclaim⟩ := mem_carrying.mp h
  obtain ⟨item, hitem, y, label, hfate, rfl⟩ := packed_fate hx
  have hsame : item.conflictKey = some key ∧ item.claimValue.isSome = true := by
    rcases fate_eq hfate with rfl | rfl
    · exact ⟨hkey, hclaim⟩
    · exact ⟨hkey, hclaim⟩
  have hgrouped : item.grouped = true := by
    unfold GovernedEvidence.grouped
    rw [hsame.1, hsame.2, Bool.and_true]
    exact decide_eq_true fun hempty : key = "" => hkeyed item hitem (hempty ▸ hsame.1)
  rw [fate_of_grouped hgrouped hsame.1] at hfate
  exact ⟨item, mem_groupOf.mpr ⟨hitem, hgrouped, hsame.1⟩, y, label, hfate, rfl⟩

/-- What a group makes of its items: all of one claim, or all flagged and of the best authority. -/
theorem fateIn_claims (values : List GovernedEvidence) :
    (∀ a ∈ values, ∀ y, fateIn values a = some y → ∀ b ∈ values, ∀ z, fateIn values b = some z →
      y.claimValue = z.claimValue) ∨
    ∀ a ∈ values, ∀ y, fateIn values a = some y →
      authorityRank y.authorityLevel = bestRank values ∧ y.unresolvedConflict = true := by
  unfold fateIn
  by_cases hone : distinctCount (values.map (·.claimValue)) ≤ 1
  · left
    intro a ha y hy b hb z hz
    rw [if_pos hone] at hy hz
    obtain rfl := Option.some.inj hy
    obtain rfl := Option.some.inj hz
    exact distinctCount_le_one.mp hone _ (List.mem_map_of_mem ha) _ (List.mem_map_of_mem hb)
  · by_cases htop : distinctCount ((topOf values).map (·.claimValue)) = 1
    · left
      intro a ha y hy b hb z hz
      rw [if_neg hone, if_pos htop, Option.ite_none_right_eq_some] at hy hz
      obtain ⟨hranka, rfl⟩ := hy.imp id Option.some.inj
      obtain ⟨hrankb, rfl⟩ := hz.imp id Option.some.inj
      have hmem {c : GovernedEvidence} (hc : c ∈ values)
        (hrank : authorityRank c.authorityLevel = bestRank values) :
          c.claimValue ∈ (topOf values).map (·.claimValue) :=
        List.mem_map_of_mem (List.mem_filter.mpr ⟨hc, decide_eq_true hrank⟩)
      exact distinctCount_le_one.mp (Nat.le_of_eq htop) _ (hmem ha hranka) _ (hmem hb hrankb)
    · right
      intro a _ y hy
      rw [if_neg hone, if_neg htop, Option.ite_none_right_eq_some] at hy
      obtain ⟨hrank, rfl⟩ := hy.imp id Option.some.inj
      exact ⟨hrank, rfl⟩

theorem packOf_claims (hkeyed : ∀ item ∈ items, item.conflictKey ≠ some "") (key : String) :
    (∀ a ∈ carrying (packOf n items).evidence key, ∀ b ∈ carrying (packOf n items).evidence key,
      a.claimValue = b.claimValue) ∨
      (∀ a ∈ carrying (packOf n items).evidence key, ∀ b ∈ carrying (packOf n items).evidence key,
        authorityRank a.authorityLevel = authorityRank b.authorityLevel) ∧
      ∀ a ∈ carrying (packOf n items).evidence key, a.unresolvedConflict = true := by
  rcases fateIn_claims (groupOf items key) with hclaims | hflags
  · left
    intro a ha b hb
    obtain ⟨item, hitem, y, label, hy, rfl⟩ := carrying_fate hkeyed ha
    obtain ⟨other, hother, z, label', hz, rfl⟩ := carrying_fate hkeyed hb
    exact hclaims item hitem y hy other hother z hz
  · have hall : ∀ a ∈ carrying (packOf n items).evidence key,
        authorityRank a.authorityLevel = bestRank (groupOf items key) ∧
          a.unresolvedConflict = true := by
      intro a ha
      obtain ⟨item, hitem, y, label, hy, rfl⟩ := carrying_fate hkeyed ha
      exact hflags item hitem y hy
    exact .inr ⟨fun a ha b hb => (hall a ha).1.trans (hall b hb).1.symm, fun a ha => (hall a ha).2⟩

/-- A flagged item claims something of its key. -/
theorem conflicting_carrying (hplain : ∀ item ∈ items, item.unresolvedConflict = false)
    (h : x ∈ conflicting (packOf n items).evidence key) :
    x ∈ carrying (packOf n items).evidence key := by
  obtain ⟨hx, hflag, hkey, -⟩ := mem_conflicting.mp h
  refine mem_carrying.mpr ⟨hx, hkey, ?_⟩
  obtain ⟨item, hitem, y, label, hfate, rfl⟩ := packed_fate hx
  rcases hgrouped : item.grouped with _ | _
  · rw [fate_of_not_grouped hgrouped] at hfate
    obtain rfl := Option.some.inj hfate
    have hfalse : item.unresolvedConflict = true := hflag
    rw [hplain item hitem] at hfalse
    cases hfalse
  · have hclaim : item.claimValue.isSome = true := (Bool.and_eq_true _ _ ▸ hgrouped).2
    rcases fate_eq hfate with rfl | rfl
    · exact hclaim
    · exact hclaim

theorem packOf_conflicts (hplain : ∀ item ∈ items, item.unresolvedConflict = false)
    (hkeyed : ∀ item ∈ items, item.conflictKey ≠ some "") (key : String) :
    (packOf n items).unresolvedConflicts.lookup key =
      if 1 < distinctCount ((carrying (packOf n items).evidence key).map (·.claimValue)) then
        some ((carrying (packOf n items).evidence key).map (·.label))
      else none := by
  have hlookup : (packOf n items).unresolvedConflicts.lookup key = _ := lookup_unresolvedConflicts
  rw [hlookup]
  change (if 1 < distinctCount ((conflicting (packOf n items).evidence key).map (·.claimValue)) then
    some ((conflicting (packOf n items).evidence key).map (·.label)) else none) = _
  by_cases hmany : 1 < distinctCount ((carrying (packOf n items).evidence key).map (·.claimValue))
  · have hflags : ∀ a ∈ carrying (packOf n items).evidence key, a.unresolvedConflict = true := by
      refine (packOf_claims hkeyed key).elim (fun hsame => absurd ?_ (Nat.not_le.mpr hmany)) (·.2)
      refine distinctCount_le_one.mpr fun c hc d hd => ?_
      obtain ⟨a, ha, rfl⟩ := List.mem_map.mp hc
      obtain ⟨b, hb, rfl⟩ := List.mem_map.mp hd
      exact hsame a ha b hb
    have hsame : conflicting (packOf n items).evidence key =
        carrying (packOf n items).evidence key := by
      refine List.filter_congr fun x hx => ?_
      rw [Bool.eq_iff_iff]
      constructor
      · intro hconf
        have hx' : x ∈ conflicting (packOf n items).evidence key := List.mem_filter.mpr ⟨hx, hconf⟩
        exact (List.mem_filter.mp (conflicting_carrying hplain hx')).2
      · intro hcarry
        have hx' : x ∈ carrying (packOf n items).evidence key := List.mem_filter.mpr ⟨hx, hcarry⟩
        obtain ⟨item, hitem, y, label, hy, rfl⟩ := carrying_fate hkeyed hx'
        obtain ⟨hitem, -, hkey⟩ := mem_groupOf.mp hitem
        refine (List.mem_filter.mp
          (mem_conflicting.mpr ⟨hx, hflags _ hx', (mem_carrying.mp hx').2.1, ?_⟩)).2
        exact fun hempty => hkeyed item hitem (hempty ▸ hkey)
    rw [hsame]
  · rw [if_neg hmany, if_neg fun hlt => hmany (Nat.lt_of_not_le fun hle => ?_)]
    refine absurd (distinctCount_le_one.mpr fun c hc d hd => ?_) (Nat.not_le.mpr hlt)
    obtain ⟨a, ha, rfl⟩ := List.mem_map.mp hc
    obtain ⟨b, hb, rfl⟩ := List.mem_map.mp hd
    exact distinctCount_le_one.mp hle _ (List.mem_map_of_mem (conflicting_carrying hplain ha)) _
      (List.mem_map_of_mem (conflicting_carrying hplain hb))

theorem nodup_unresolvedConflicts (items : List GovernedEvidence) :
    ((unresolvedConflicts items).map (·.1)).Nodup := by
  have hkeys : ((conflictKeys items).insertionSort (· ≤ ·)).Nodup :=
    (List.perm_insertionSort _ _).nodup_iff.mpr (Ranking.nodup_eraseDups _)
  unfold unresolvedConflicts
  rw [List.map_filterMap]
  refine hkeys.sublist ?_
  generalize (conflictKeys items).insertionSort (· ≤ ·) = keys
  induction keys with
  | nil => exact .slnil
  | cons key keys ih =>
    rw [List.filterMap_cons]
    split
    · exact ih.cons key
    · next heq =>
      split at heq
      · cases heq
        exact ih.cons_cons key
      · cases heq

/-! ## What is not in a conflict -/

/-- What is added behind the first few is flagged. -/
theorem select_bound (n : Nat) (sorted : List GovernedEvidence) :
    ((select n sorted).filter (!·.unresolvedConflict)).length ≤ n := by
  have htake : ((sorted.take n).filter (!·.unresolvedConflict)).length ≤ n :=
    (List.length_filter_le _ _).trans (List.length_take_le _ _)
  unfold select
  split
  · exact htake
  · have hnone : ((sorted.drop n).filter (isProtected sorted)).filter (!·.unresolvedConflict) =
        [] := by
      refine List.filter_eq_nil_iff.mpr fun item hitem => ?_
      have hflag : item.unresolvedConflict = true :=
        (Bool.and_eq_true _ _ ▸ (List.mem_filter.mp hitem).2).1
      rw [hflag]
      exact Bool.false_ne_true
    unfold sortEvidence
    rw [((List.perm_insertionSort _ _).filter _).length_eq, List.filter_append, hnone,
      List.append_nil]
    exact htake

/-! ## The shape -/

theorem packOf_shape (hplain : ∀ item ∈ items, item.unresolvedConflict = false)
    (hkeyed : ∀ item ∈ items, item.conflictKey ≠ some "") : PackShape n (packOf n items) where
  labels := by
    unfold packOf
    dsimp only
    rw [labeled_labels, length_labeled]
  claims := packOf_claims hkeyed
  keys := nodup_unresolvedConflicts _
  conflicts := packOf_conflicts hplain hkeyed
  bound := by
    unfold packOf
    dsimp only
    rw [labeled_filter _ fun _ _ => rfl]
    exact select_bound _ _

theorem packOf_pairwise (h : Numbered items) : (packOf n items).evidence.Pairwise Before := by
  refine labeled_pairwise (fun item hitem => ?_) (select_pairwise h.resolved)
  exact h.resolved.sortEvidence item (mem_of_mem_select hitem)

section Pack

variable {repository : Repository} {maxEvidence : Nat} {today : Date} {projectId : UUID}
  {projectCode : String}
  {chunks : List KnowledgeChunk} {found : List (UUID × DocumentEvidenceMetadata)}

/-- **The shape of every pack.** The labels are E1 to En; the items that claim something of one key
claim one thing, or are all flagged and of one authority; the map has the keys of which two things
are claimed, with the labels of those items; no more than `maxEvidence` items are without a flag;
and the items stand in their order, if every eligible chunk's score is a number. -/
theorem pack_shape (hfound : repository (versionIds projectCode chunks) = .ok found) :
    ∃ p, pack repository maxEvidence today projectId projectCode chunks = .ok p ∧
      PackShape maxEvidence p ∧
      (Numbered (eligibleOf found today projectId projectCode chunks) →
        p.evidence.Pairwise Before) := by
  refine ⟨_, pack_of_found hfound, packOf_shape ?_ ?_, fun hnumbered =>
    packOf_pairwise fun item hitem => ?_⟩
  · exact fun item hitem => (eligibleItems_keyed (Ranking.mem_of_mem_firsts hitem)).1
  · exact fun item hitem => (eligibleItems_keyed (Ranking.mem_of_mem_firsts hitem)).2
  · exact hnumbered item (Ranking.mem_of_mem_firsts hitem)

end Pack

namespace Sample

/-- Of one version, the second with a score that is no number. -/
def unordered : List KnowledgeChunk :=
  [chunk (.ofNat 11) "first" (1 / 2), { chunk (.ofNat 11) "second" 0 with
    score := .nan }, chunk (.ofNat 11) "third" (9 / 10)]

end Sample

theorem pack_shape_sample :
    ∃ p, pack Sample.repository 8 Sample.today (.ofNat 1) "P-1" Sample.conflict = .ok p ∧
    PackShape 8 p ∧ p.evidence.Pairwise Before := by
  obtain ⟨p, hpack, hshape, hordered⟩ :=
    @pack_shape Sample.repository 8 Sample.today (.ofNat 1) "P-1" Sample.conflict _ rfl
  exact ⟨p, hpack, hshape, hordered (by decide +kernel)⟩

/-- A score that is no number keeps the lesser of two scores before the greater. -/
theorem unordered_pack :
    ∃ p, pack Sample.repository 8 Sample.today (.ofNat 1) "P-1" Sample.unordered = .ok p ∧
    p.evidence.length = 3 ∧ ¬ p.evidence.Pairwise Before :=
  ⟨_, rfl, by decide +kernel, by decide +kernel⟩

end ProjectAgent.Evidence
