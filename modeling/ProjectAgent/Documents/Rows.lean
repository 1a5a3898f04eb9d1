/-
What a session's writes make of the versions and of their statuses.
-/
import ProjectAgent.Documents.Services

namespace ProjectAgent.Documents

open Interleave

/-- The versions that are inserted. -/
def versionIds (ws : List Write) : List UUID :=
  ws.filterMap fun
    | .version row => some row.id
    | _ => none

def Tables.ids (t : Tables) : List UUID := t.versions.map (·.id)

def Tables.statusOf (t : Tables) (versionId : UUID) : Option DocumentLifecycleStatus :=
  (t.version versionId).map (·.lifecycleStatus)

variable {t t' : Tables} {w : Write} {ws : List Write} {id : UUID} {row : DocumentVersion}
  {seen target status : DocumentLifecycleStatus} {publishedAt : Option Nat}

/-! ## Versions -/

theorem Tables.version_mem (h : t.version id = some row) : row ∈ t.versions ∧ row.id = id :=
  ⟨List.mem_of_find?_eq_some h, by simpa using List.find?_some h⟩

/-- Where ids are distinct, a row is the one its id finds. -/
theorem find?_of_mem {rows : List DocumentVersion} (hu : (rows.map (·.id)).Nodup) (h : row ∈ rows) :
    rows.find? (·.id == row.id) = some row := by
  induction rows with
  | nil => cases h
  | cons row' rows ih =>
    obtain ⟨hhead, htail⟩ := List.nodup_cons.mp hu
    rw [List.find?_cons]
    rcases List.mem_cons.mp h with rfl | h
    · simp
    · have hne : (row'.id == row.id) = false := by
        rw [beq_eq_false_iff_ne]
        intro heq
        exact hhead (List.mem_map.mpr ⟨row, h, heq.symm⟩)
      rw [hne]
      exact ih htail h

theorem Tables.version_of_mem (hu : t.ids.Nodup) (h : row ∈ t.versions) :
    t.version row.id = some row :=
  find?_of_mem hu h

theorem Tables.version_isSome : (t.version id).isSome ↔ id ∈ t.ids := by
  unfold Tables.version Tables.ids
  simp

theorem version_status (t : Tables) (versionId id : UUID) :
    ((Write.status versionId seen target publishedAt).apply t).version id =
      (t.version id).map fun row => if row.id = versionId then setRowStatus target publishedAt row
        else row := by
  simp only [Write.apply, Tables.version]
  induction t.versions with
  | nil => rfl
  | cons row rows ih =>
    have hid : (if row.id = versionId then setRowStatus target publishedAt row else row).id =
        row.id := by
      split <;> rfl
    rw [List.map_cons, List.find?_cons, List.find?_cons, hid]
    cases row.id == id with
    | true => rfl
    | false => exact ih

theorem ids_apply (w : Write) (t : Tables) : (w.apply t).ids = versionIds [w] ++ t.ids := by
  cases w with
  | document row | audit record => rfl
  | version row => rfl
  | status versionId seen target publishedAt =>
    show List.map _ (List.map _ _) = _
    rw [List.map_map]
    refine List.map_congr_left fun row _ => ?_
    simp only [Function.comp_apply]
    split <;> rfl

theorem ids_foldl (ws : List Write) (t : Tables) :
    (ws.foldl (fun t w => w.apply t) t).ids = (versionIds ws).reverse ++ t.ids := by
  induction ws generalizing t with
  | nil => rfl
  | cons w ws ih =>
    have hcons : versionIds (w :: ws) = versionIds [w] ++ versionIds ws := by
      rw [versionIds, versionIds, versionIds, ← List.filterMap_append]
      rfl
    rw [List.foldl_cons, ih, ids_apply, hcons, List.reverse_append, List.append_assoc]
    have hrev : (versionIds [w]).reverse = versionIds [w] := by cases w <;> rfl
    rw [hrev]

/-- What no write changes of a version. -/
structure SameVersion (row row' : DocumentVersion) : Prop where
  id : row'.id = row.id
  documentId : row'.documentId = row.documentId
  supersedesVersionId : row'.supersedesVersionId = row.supersedesVersionId
  sourceUri : row'.sourceUri = row.sourceUri
  contentHash : row'.contentHash = row.contentHash

theorem SameVersion.refl (row : DocumentVersion) : SameVersion row row := ⟨rfl, rfl, rfl, rfl, rfl⟩

theorem SameVersion.trans {row row' row'' : DocumentVersion} (h : SameVersion row row')
    (h' : SameVersion row' row'') : SameVersion row row'' :=
  ⟨h'.id.trans h.id, h'.documentId.trans h.documentId,
    h'.supersedesVersionId.trans h.supersedesVersionId,
    h'.sourceUri.trans h.sourceUri, h'.contentHash.trans h.contentHash⟩

theorem sameVersion_setRowStatus : SameVersion row (setRowStatus target publishedAt row) :=
  ⟨rfl, rfl, rfl, rfl, rfl⟩

/-- Every version is still there. -/
def Grows (t t' : Tables) : Prop := ∀ row ∈ t.versions, ∃ row' ∈ t'.versions, SameVersion row row'

theorem Grows.refl (t : Tables) : Grows t t := fun row h => ⟨row, h, .refl row⟩

theorem Grows.trans {t'' : Tables} (h : Grows t t') (h' : Grows t' t'') : Grows t t'' := by
  intro row hrow
  obtain ⟨row', hrow', hs⟩ := h row hrow
  obtain ⟨row'', hrow'', hs'⟩ := h' row' hrow'
  exact ⟨row'', hrow'', hs.trans hs'⟩

theorem grows_apply (w : Write) (t : Tables) : Grows t (w.apply t) := by
  intro row hrow
  cases w with
  | document | audit => exact ⟨row, hrow, .refl row⟩
  | version row' => exact ⟨row, List.mem_cons_of_mem _ hrow, .refl row⟩
  | status versionId seen target publishedAt =>
    refine ⟨_, List.mem_map_of_mem hrow, ?_⟩
    split
    · exact sameVersion_setRowStatus
    · exact .refl row

theorem grows_foldl (ws : List Write) (t : Tables) :
    Grows t (ws.foldl (fun t w => w.apply t) t) := by
  induction ws generalizing t with
  | nil => exact .refl t
  | cons w ws ih => exact (grows_apply w t).trans (ih _)

/-- Where a version comes from: it was there, or it is inserted; it is as it was unless its status
is written. -/
theorem version_foldl {ws : List Write} (h : row ∈ (ws.foldl (fun t w => w.apply t) t).versions) :
    ∃ row₀, (row₀ ∈ t.versions ∨ Write.version row₀ ∈ ws) ∧ SameVersion row₀ row ∧
      (row.id ∉ statusIds ws → row = row₀) := by
  induction ws generalizing t with
  | nil => exact ⟨row, .inl h, .refl row, fun _ => rfl⟩
  | cons w ws ih =>
    obtain ⟨row₁, hfrom, hsame, heq⟩ := ih h
    rcases hfrom with hmem | hmem
    · cases w with
      | document | audit => exact ⟨row₁, .inl hmem, hsame, heq⟩
      | version row' =>
        rcases List.mem_cons.mp hmem with rfl | hmem
        · exact ⟨row₁, .inr List.mem_cons_self, hsame, heq⟩
        · exact ⟨row₁, .inl hmem, hsame, heq⟩
      | status versionId seen target publishedAt =>
        obtain ⟨row₀, hrow₀, hrow₁⟩ := List.mem_map.mp hmem
        refine ⟨row₀, .inl hrow₀, ?_, fun hid => ?_⟩
        · subst hrow₁
          split at hsame
          · exact sameVersion_setRowStatus.trans hsame
          · exact hsame
        · obtain ⟨hne, hrest⟩ := not_or.mp (mt List.mem_cons.mpr hid)
          have hrow := heq hrest
          subst hrow₁
          split at hrow
          · next hid₀ =>
            subst hrow
            exact absurd hid₀ hne
          · exact hrow
    · have hsub : row.id ∉ statusIds (w :: ws) → row.id ∉ statusIds ws := by
        cases w with
        | document | audit | version => exact id
        | status => exact fun hid hmem => hid (List.mem_cons_of_mem _ hmem)
      exact ⟨row₁, .inr (List.mem_cons_of_mem _ hmem), hsame, fun hid => heq (hsub hid)⟩

/-! ## Statuses -/

theorem statusOf_apply (w : Write) (t : Tables) (id : UUID) : (w.apply t).statusOf id =
    match w with
    | .version row => if row.id = id then some row.lifecycleStatus else t.statusOf id
    | .status versionId _ target _ =>
      if versionId = id then (t.statusOf id).map fun _ => target else t.statusOf id
    | _ => t.statusOf id := by
  cases w with
  | document row | audit record => rfl
  | version row =>
    show (List.find? _ (row :: t.versions)).map _ = _
    rw [List.find?_cons]
    by_cases h : row.id = id
    · rw [beq_iff_eq.mpr h]
      exact (if_pos h).symm
    · rw [beq_eq_false_iff_ne.mpr h]
      exact (if_neg h).symm
  | status versionId seen target publishedAt =>
    unfold Tables.statusOf
    rw [version_status, Option.map_map]
    cases hrow : t.version id with
    | none => simp
    | some row =>
      have hid := (Tables.version_mem hrow).2
      simp only [Option.map_some, Function.comp_apply, hid]
      by_cases h : versionId = id
      · simp [h, setRowStatus]
      · simp [h, Ne.symm h]

theorem mem_statusIds :
    id ∈ statusIds ws ↔ ∃ seen target publishedAt,
      Write.status id seen target publishedAt ∈ ws := by
  unfold statusIds
  rw [List.mem_filterMap]
  constructor
  · rintro ⟨w, hw, hid⟩
    cases w with
    | status versionId seen target publishedAt =>
      obtain rfl := Option.some.inj hid
      exact ⟨seen, target, publishedAt, hw⟩
    | document | version | audit => cases hid
  · rintro ⟨seen, target, publishedAt, hw⟩
    exact ⟨_, hw, rfl⟩

theorem mem_versionIds : id ∈ versionIds ws ↔ ∃ row, Write.version row ∈ ws ∧ row.id = id := by
  unfold versionIds
  rw [List.mem_filterMap]
  constructor
  · rintro ⟨w, hw, hid⟩
    cases w with
    | version row => exact ⟨row, hw, Option.some.inj hid⟩
    | document | status | audit => cases hid
  · rintro ⟨row, hw, hid⟩
    exact ⟨_, hw, congrArg some hid⟩

/-- Writes that do not write it leave a version's status as it is. -/
theorem statusOf_foldl_of_not_mem (hs : id ∉ statusIds ws) (hv : id ∉ versionIds ws) (t : Tables) :
    (ws.foldl (fun t w => w.apply t) t).statusOf id = t.statusOf id := by
  induction ws generalizing t with
  | nil => rfl
  | cons w ws ih =>
    have hs' : id ∉ statusIds ws := fun h => hs (by
      obtain ⟨seen, target, at_, hw⟩ := mem_statusIds.mp h
      exact mem_statusIds.mpr ⟨seen, target, at_, List.mem_cons_of_mem _ hw⟩)
    have hv' : id ∉ versionIds ws := fun h => hv (by
      obtain ⟨row, hw, hid⟩ := mem_versionIds.mp h
      exact mem_versionIds.mpr ⟨row, List.mem_cons_of_mem _ hw, hid⟩)
    rw [List.foldl_cons, ih hs' hv', statusOf_apply]
    cases w with
    | document | audit => rfl
    | version row =>
      refine if_neg fun hid => hv (mem_versionIds.mpr ⟨row, List.mem_cons_self, hid⟩)
    | status versionId seen target publishedAt =>
      refine if_neg ?_
      rintro rfl
      exact hs (mem_statusIds.mpr ⟨seen, target, publishedAt, List.mem_cons_self⟩)

/-- A status that is written once is what was written. -/
theorem statusOf_foldl_of_mem (hw : Write.status id seen target publishedAt ∈ ws)
    (hs : (statusIds ws).Nodup) (hv : id ∉ versionIds ws) (ht : (t.statusOf id).isSome) :
    (ws.foldl (fun t w => w.apply t) t).statusOf id = some target := by
  induction ws generalizing t with
  | nil => cases hw
  | cons w ws ih =>
    have hv' : id ∉ versionIds ws := fun h => hv (by
      obtain ⟨row, hw, hid⟩ := mem_versionIds.mp h
      exact mem_versionIds.mpr ⟨row, List.mem_cons_of_mem _ hw, hid⟩)
    rw [List.foldl_cons]
    rcases List.mem_cons.mp hw with rfl | hw
    · have hnot : id ∉ statusIds ws := (List.nodup_cons.mp hs).1
      rw [statusOf_foldl_of_not_mem hnot hv', statusOf_apply]
      obtain ⟨status, hstatus⟩ := Option.isSome_iff_exists.mp ht
      simp [hstatus]
    · have hs' : (statusIds ws).Nodup := by
        cases w with
        | status => exact (List.nodup_cons.mp hs).2
        | document | version | audit => exact hs
      refine ih hw hs' hv' ?_
      rw [statusOf_apply]
      cases w with
      | document | audit => exact ht
      | version row =>
        dsimp only
        split
        · rfl
        · exact ht
      | status =>
        dsimp only
        split
        · rw [Option.isSome_map]
          exact ht
        · exact ht

end ProjectAgent.Documents
