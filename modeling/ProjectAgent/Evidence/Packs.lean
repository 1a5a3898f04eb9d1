/-
What holds of every pack: where its items come from, that a conflict it flags
is one between packed items, and that what it does not read makes no difference
to it.
-/
import ProjectAgent.Evidence.Governance

namespace ProjectAgent.Evidence

/-! ## Counting values -/

theorem distinctCount_le_one {α : Type} [DecidableEq α] {values : List α} :
    distinctCount values ≤ 1 ↔ ∀ a ∈ values, ∀ b ∈ values, a = b := by
  unfold distinctCount
  constructor
  · intro hle a ha b hb
    have ha : a ∈ values.eraseDups := List.mem_eraseDups.mpr ha
    have hb : b ∈ values.eraseDups := List.mem_eraseDups.mpr hb
    obtain ⟨i, hi, rfl⟩ := List.mem_iff_getElem.mp ha
    obtain ⟨j, hj, rfl⟩ := List.mem_iff_getElem.mp hb
    obtain rfl : i = j := by omega
    rfl
  · intro hall
    cases values with
    | nil => exact Nat.zero_le _
    | cons a rest =>
      rw [List.eraseDups_cons]
      have hnone : rest.filter (fun b => !b == a) = [] := by
        refine List.filter_eq_nil_iff.mpr fun b hb => ?_
        rw [hall b (List.mem_cons_of_mem _ hb) a List.mem_cons_self]
        simp
      rw [hnone]
      exact Nat.le_refl _

theorem exists_ne_of_distinctCount {α : Type} [DecidableEq α] {values : List α}
    (h : distinctCount values ≠ 1) {a : α} (ha : a ∈ values) : ∃ b ∈ values, b ≠ a := by
  by_contra hnone
  have hall : ∀ b ∈ values, b = a := by
    intro b hb
    by_contra hne
    exact hnone ⟨b, hb, hne⟩
  have hle : distinctCount values ≤ 1 :=
    distinctCount_le_one.mpr fun b hb c hc => (hall b hb).trans (hall c hc).symm
  have hpos : 0 < distinctCount values := List.length_pos_of_mem (List.mem_eraseDups.mpr ha)
  omega

/-! ## Where the items come from -/

variable {items sorted selected : List GovernedEvidence} {item x : GovernedEvidence}
  {key : String} {n : Nat}

theorem mem_sortEvidence : item ∈ sortEvidence items ↔ item ∈ items := List.mem_insertionSort _

theorem mem_groupOf :
    item ∈ groupOf items key ↔ item ∈ items ∧ item.grouped ∧ item.conflictKey = some key := by
  unfold groupOf
  rw [List.mem_filter, Bool.and_eq_true, beq_iff_eq]

theorem mem_topOf (h : item ∈ topOf items) : item ∈ items := List.mem_of_mem_filter h

/-- What a group leaves is of the group, flagged perhaps. -/
theorem mem_resolveGroup (h : x ∈ resolveGroup items) :
    ∃ item ∈ items, x = item ∨ x = item.flagged := by
  unfold resolveGroup at h
  split at h
  · exact ⟨x, h, .inl rfl⟩
  · split at h
    · exact ⟨x, mem_topOf h, .inl rfl⟩
    · obtain ⟨item, hitem, rfl⟩ := List.mem_map.mp h
      exact ⟨item, mem_topOf hitem, .inr rfl⟩

theorem mem_resolve (h : x ∈ resolveExplicitConflicts items) :
    ∃ item ∈ items, x = item ∨ x = item.flagged := by
  rcases List.mem_append.mp h with h | h
  · exact ⟨x, List.mem_of_mem_filter h, .inl rfl⟩
  · obtain ⟨key, -, h⟩ := List.mem_flatMap.mp h
    obtain ⟨item, hitem, heq⟩ := mem_resolveGroup h
    exact ⟨item, (mem_groupOf.mp hitem).1, heq⟩

theorem mem_of_mem_select (h : item ∈ select n sorted) : item ∈ sorted := by
  unfold select at h
  split at h
  · exact List.mem_of_mem_take h
  · rcases List.mem_append.mp (mem_sortEvidence.mp h) with h | h
    · exact List.mem_of_mem_take h
    · exact List.mem_of_mem_drop (List.mem_of_mem_filter h)

theorem mem_labeled : x ∈ labeled selected ↔
    ∃ (i : Nat) (item : GovernedEvidence), selected[i]? = some item ∧ x = { item with
      label := labelOf (i + 1) } := by
  unfold labeled
  rw [List.mem_map]
  constructor
  · rintro ⟨⟨item, index⟩, hmem, rfl⟩
    obtain ⟨hle, -, hget⟩ := List.mem_zipIdx hmem
    refine ⟨index - 1, item, ?_, ?_⟩
    · rw [List.getElem?_eq_some_iff]
      exact ⟨_, hget.symm⟩
    · rw [Nat.sub_add_cancel hle]
  · rintro ⟨i, item, hget, rfl⟩
    refine ⟨(item, i + 1), ?_, rfl⟩
    rw [List.mk_mem_zipIdx_iff_le_and_getElem?_sub]
    exact ⟨Nat.le_add_left 1 i, hget⟩

/-- **A packed item is a candidate**, with a label and perhaps a flag. -/
theorem mem_packOf (h : x ∈ (packOf n items).evidence) :
    ∃ item ∈ items, ∃ label flag, x = { item with label := label, unresolvedConflict := flag } := by
  obtain ⟨i, item, hget, rfl⟩ := mem_labeled.mp h
  obtain ⟨item, hitem, rfl | rfl⟩ :=
    mem_resolve (mem_sortEvidence.mp (mem_of_mem_select (List.mem_of_getElem? hget)))
  · exact ⟨_, hitem, _, _, rfl⟩
  · exact ⟨item, hitem, labelOf (i + 1), true, rfl⟩

/-! ## Flags -/

/-- **A flag is of a conflict**: some other candidate with the same key is flagged too, and claims
something else. -/
theorem flagged_in_conflict (hplain : ∀ item ∈ items, item.unresolvedConflict = false)
    (hx : x ∈ resolveExplicitConflicts items) (hflag : x.unresolvedConflict = true) :
    ∃ key, key ≠ "" ∧ x.conflictKey = some key ∧ ∃ y ∈ resolveExplicitConflicts items,
      y.unresolvedConflict = true ∧ y.conflictKey = some key ∧ y.claimValue ≠ x.claimValue := by
  rcases List.mem_append.mp hx with hx | hx
  · rw [hplain x (List.mem_of_mem_filter hx)] at hflag
    cases hflag
  · obtain ⟨key, hkey, hx⟩ := List.mem_flatMap.mp hx
    have hin : ∀ y ∈ resolveGroup (groupOf items key), y ∈ resolveExplicitConflicts items :=
      fun y hy =>
      List.mem_append_right _ (List.mem_flatMap.mpr ⟨key, hkey, hy⟩)
    have hgroup : ∀ t ∈ topOf (groupOf items key), t ∈ items ∧ t.grouped ∧
        t.conflictKey = some key := fun t ht =>
      mem_groupOf.mp (mem_topOf ht)
    -- a group without a conflict is left without a flag
    have hnot : ∀ t ∈ groupOf items key, ¬ t.unresolvedConflict = true := fun t ht htrue => by
      rw [hplain t (mem_groupOf.mp ht).1] at htrue
      cases htrue
    unfold resolveGroup at hx hin
    split at hx
    · exact absurd hflag (hnot x hx)
    · next hmany =>
      split at hx
      · exact absurd hflag (hnot x (mem_topOf hx))
      · next htop =>
        rw [if_neg hmany, if_neg htop] at hin
        obtain ⟨t, ht, rfl⟩ := List.mem_map.mp hx
        obtain ⟨-, hgrouped, htkey⟩ := hgroup t ht
        obtain ⟨value, hvalue, hne⟩ := exists_ne_of_distinctCount htop (List.mem_map_of_mem ht)
        obtain ⟨u, hu, rfl⟩ := List.mem_map.mp hvalue
        refine ⟨key, ?_, htkey, u.flagged, hin _ (List.mem_map_of_mem hu), rfl,
          (hgroup u hu).2.2, hne⟩
        unfold GovernedEvidence.grouped at hgrouped
        rw [htkey, Bool.and_eq_true] at hgrouped
        exact of_decide_eq_true hgrouped.1

/-- A flagged item is selected, wherever it stands. -/
theorem select_of_flagged (hitem : item ∈ sorted) (hflag : item.unresolvedConflict = true)
    (hkey : item.conflictKey = some key) : item ∈ select n sorted := by
  have hprotected : key ∈ protectedKeys sorted := by
    refine List.mem_filterMap.mpr ⟨item, hitem, ?_⟩
    rw [if_pos hflag, hkey]
  have hnonempty : ¬ (protectedKeys sorted).isEmpty := fun hempty => by
    rw [List.isEmpty_iff.mp hempty] at hprotected
    cases hprotected
  unfold select
  rw [if_neg hnonempty, mem_sortEvidence]
  rw [← List.take_append_drop n sorted] at hitem
  rcases List.mem_append.mp hitem with hitem | hitem
  · exact List.mem_append_left _ hitem
  · refine List.mem_append_right _ (List.mem_filter.mpr ⟨hitem, ?_⟩)
    unfold isProtected
    rw [hflag, hkey]
    exact decide_eq_true hprotected

theorem mem_conflicting : item ∈ conflicting items key ↔
    item ∈ items ∧ item.unresolvedConflict = true ∧ item.conflictKey = some key ∧ key ≠ "" := by
  unfold conflicting
  rw [List.mem_filter, Bool.and_eq_true, Bool.and_eq_true, beq_iff_eq, decide_eq_true_eq, and_assoc]

/-- **Each side of a flagged conflict is packed**: the packed items that are flagged with one key
claim two things at least. -/
theorem packed_conflict (hplain : ∀ item ∈ items, item.unresolvedConflict = false)
    (hx : x ∈ (packOf n items).evidence) (hflag : x.unresolvedConflict = true) :
    ∃ key, key ≠ "" ∧ x.conflictKey = some key ∧
      1 < distinctCount ((conflicting (packOf n items).evidence key).map (·.claimValue)) := by
  obtain ⟨i, item, hget, rfl⟩ := mem_labeled.mp hx
  have hitem := mem_sortEvidence.mp (mem_of_mem_select (List.mem_of_getElem? hget))
  obtain ⟨key, hkey, hitemKey, y, hy, hyflag, hykey, hne⟩ := flagged_in_conflict hplain hitem hflag
  obtain ⟨j, hj⟩ := List.mem_iff_getElem?.mp
    (select_of_flagged (n := n) (mem_sortEvidence.mpr hy) hyflag hykey)
  have hy' : { y with label := labelOf (j + 1) } ∈ (packOf n items).evidence :=
    mem_labeled.mpr ⟨j, y, hj, rfl⟩
  refine ⟨key, hkey, hitemKey, ?_⟩
  by_contra hle
  have hsame := distinctCount_le_one.mp (Nat.not_lt.mp hle)
  refine hne (hsame y.claimValue ?_ item.claimValue ?_)
  · exact List.mem_map.mpr ⟨_, mem_conflicting.mpr ⟨hy', hyflag, hykey, hkey⟩, rfl⟩
  · exact List.mem_map.mpr ⟨_, mem_conflicting.mpr ⟨hx, hflag, hitemKey, hkey⟩, rfl⟩

/-! ## The map of the conflicts -/

theorem lookup_keyed {α : Type} (keys : List String) (p : String → Prop) [DecidablePred p]
    (f : String → α) (key : String) :
    (keys.filterMap fun k => if p k then some (k, f k) else none).lookup key =
      if key ∈ keys ∧ p key then some (f key) else none := by
  induction keys with
  | nil => rw [if_neg fun h => nomatch h.1]; rfl
  | cons k keys ih =>
    rw [List.filterMap_cons]
    by_cases hp : p k
    · rw [if_pos hp]
      by_cases hk : key = k
      · subst hk
        rw [if_pos ⟨List.mem_cons_self, hp⟩]
        simp
      · simp [hk, List.lookup_cons, beq_false_of_ne hk, ih]
    · rw [if_neg hp, ih]
      by_cases hk : key = k
      · subst hk
        rw [if_neg fun h => hp h.2, if_neg fun h => hp h.2]
      · simp [hk]

theorem mem_conflictKeys : key ∈ conflictKeys items ↔ ∃ item, item ∈ conflicting items key := by
  unfold conflictKeys
  rw [List.mem_eraseDups, List.mem_filterMap]
  constructor
  · rintro ⟨item, hitem, hkey⟩
    obtain ⟨hmem, hflag⟩ := List.mem_filter.mp hitem
    obtain ⟨hkey, hne⟩ := Option.filter_eq_some_iff.mp hkey
    exact ⟨item, mem_conflicting.mpr ⟨hmem, hflag, hkey, of_decide_eq_true hne⟩⟩
  · rintro ⟨item, hitem⟩
    obtain ⟨hmem, hflag, hkey, hne⟩ := mem_conflicting.mp hitem
    exact ⟨item, List.mem_filter.mpr ⟨hmem, hflag⟩,
      Option.filter_eq_some_iff.mpr ⟨hkey, decide_eq_true hne⟩⟩

theorem lookup_unresolvedConflicts : (unresolvedConflicts items).lookup key =
    if 1 < distinctCount ((conflicting items key).map (·.claimValue)) then
      some ((conflicting items key).map (·.label))
    else none := by
  unfold unresolvedConflicts
  rw [lookup_keyed]
  by_cases hmany : 1 < distinctCount ((conflicting items key).map (·.claimValue))
  · have hmem : ∃ item, item ∈ conflicting items key := by
      cases hconf : conflicting items key with
      | nil =>
        rw [hconf] at hmany
        cases hmany
      | cons item rest => exact ⟨item, List.mem_cons_self⟩
    rw [if_pos ⟨(List.mem_insertionSort _).mpr (mem_conflictKeys.mpr hmem), hmany⟩, if_pos hmany]
  · rw [if_neg fun h => hmany h.2, if_neg hmany]

/-- **The map of a pack says of each key which items are flagged with it.** -/
theorem lookup_packOf (hplain : ∀ item ∈ items, item.unresolvedConflict = false) :
    (packOf n items).unresolvedConflicts.lookup key =
      if conflicting (packOf n items).evidence key = [] then none
      else some ((conflicting (packOf n items).evidence key).map (·.label)) := by
  show (unresolvedConflicts (packOf n items).evidence).lookup key = _
  rw [lookup_unresolvedConflicts]
  cases hconf : conflicting (packOf n items).evidence key with
  | nil => rfl
  | cons x rest =>
    have hx : x ∈ conflicting (packOf n items).evidence key := hconf ▸ List.mem_cons_self
    obtain ⟨hmem, hflag, hkey, -⟩ := mem_conflicting.mp hx
    obtain ⟨key', -, hkey', hmany⟩ := packed_conflict hplain hmem hflag
    obtain rfl : key = key' := Option.some.inj (hkey.symm.trans hkey')
    rw [← hconf, if_pos hmany, if_neg fun hnil => by rw [hconf] at hnil; cases hnil]

/-! ## Candidates -/

variable {metadata : UUID → Option DocumentEvidenceMetadata} {today : Date} {projectId : UUID}
  {projectCode : String}
  {seen : List (UUID × String)} {parsed : List (KnowledgeChunk × UUID)}

/-- **A candidate is a chunk of a version that is eligible.** -/
theorem mem_candidates (h : item ∈ candidates metadata today projectId projectCode seen parsed) :
    ∃ chunk versionId info, (chunk, versionId) ∈ parsed ∧ metadata versionId = some info ∧
      eligible projectId today info = true ∧
        item = candidate projectId projectCode chunk versionId info := by
  induction parsed generalizing seen with
  | nil => cases h
  | cons first rest ih =>
    obtain ⟨chunk, versionId⟩ := first
    have hrest : ∀ seen', item ∈ candidates metadata today projectId projectCode seen' rest →
        ∃ chunk' versionId' info, (chunk', versionId') ∈ (chunk, versionId) :: rest ∧
          metadata versionId' = some info ∧
          eligible projectId today info = true ∧
            item = candidate projectId projectCode chunk' versionId' info := by
      intro seen' hin
      obtain ⟨chunk', versionId', info, hmem, hrest⟩ := ih hin
      exact ⟨chunk', versionId', info, List.mem_cons_of_mem _ hmem, hrest⟩
    unfold candidates at h
    split at h
    · exact hrest _ h
    · next info hinfo =>
      obtain ⟨hinfo, heligible⟩ := Option.filter_eq_some_iff.mp hinfo
      split at h
      · exact hrest _ h
      · rcases List.mem_cons.mp h with rfl | h
        · exact ⟨chunk, versionId, info, List.mem_cons_self, hinfo, heligible, rfl⟩
        · exact hrest _ h

theorem candidates_plain (h : item ∈ candidates metadata today projectId projectCode seen parsed) :
    item.unresolvedConflict = false := by
  obtain ⟨_, _, _, -, -, -, rfl⟩ := mem_candidates h
  rfl

theorem mem_parsedChunks {chunks : List KnowledgeChunk} {chunk : KnowledgeChunk} {versionId : UUID}
    (h : (chunk, versionId) ∈ parsedChunks projectCode chunks) :
    chunk ∈ chunks ∧ chunk.projectId = projectCode ∧
      UUID.parse chunk.documentVersionId = some versionId := by
  obtain ⟨chunk', hmem, heq⟩ := List.mem_filterMap.mp h
  split at heq
  · cases heq
  · next hcode =>
    obtain ⟨versionId', hparse, heq⟩ := Option.map_eq_some_iff.mp heq
    cases heq
    exact ⟨hmem, not_not.mp hcode, hparse⟩

end ProjectAgent.Evidence
