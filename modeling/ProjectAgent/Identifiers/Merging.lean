/-
The law of the merge. The automatic identifiers and the manual ones go through
two dictionaries: one of what the patterns find, and one of what the types with
manual identifiers leave of it and of the manual identifiers. The result is
what one dictionary of both would be.
-/
import ProjectAgent.Identifiers.Extracted

namespace ProjectAgent.Identifiers

variable {py : Python} {pageNo : Option Int} {section_ : Option String} {text : String}
  {manual : List ManualIdentifier}
  {overrides types : List IdentifierType} {entries items values : List ExtractedIdentifier}
    {key : IdentifierType × String}

/-- What is merged: the occurrences of the other types, and the manual identifiers. -/
def merged (types : List IdentifierType) (values items : List ExtractedIdentifier) :
    List ExtractedIdentifier :=
  values.filter (·.identifierType ∉ types) ++ items

/-- The law of the merge. -/
structure Merged (types : List IdentifierType)
    (values items entries : List ExtractedIdentifier) : Prop where
  distinct : (entries.map (·.key)).Nodup
  manual : ∀ key, key.1 ∈ types → ((∃ entry ∈ entries, entry.key = key) ↔
    ∃ item ∈ items, item.key = key)
  automatic : ∀ key, key.1 ∉ types →
    ((∃ entry ∈ entries, entry.key = key) ↔ ∃ item ∈ values, item.key = key)
  strongest : ∀ entry ∈ entries, entry ∈ merged types values items ∧
    ∀ other ∈ merged types values items, other.key = entry.key →
      sourceRank other.source ≤ sourceRank entry.source
  order : entries.map (·.key) = ((merged types values items).map (·.key)).eraseDups

/-! ## Two dictionaries -/

theorem map_key_filter : (values.filter (·.identifierType ∉ types)).map (·.key) =
    (values.map (·.key)).filter fun key => decide (key.1 ∉ types) := by
  rw [List.filter_map]
  rfl

/-- A dictionary of a part of a dictionary and of more is one of the part of all and of more. -/
theorem strongest_twice :
    Strongest (merged types values items)
      (deduplicate (merged types (deduplicate values) items)) := by
  have hinner := Strongest.deduplicate values
  have houter := Strongest.deduplicate (merged types (deduplicate values) items)
  have hsub : ∀ entry ∈ merged types (deduplicate values) items,
      entry ∈ merged types values items := by
    intro entry hentry
    rcases List.mem_append.mp hentry with hentry | hentry
    · obtain ⟨hmem, htype⟩ := List.mem_filter.mp hentry
      exact List.mem_append_left _ (List.mem_filter.mpr ⟨hinner.mem entry hmem, htype⟩)
    · exact List.mem_append_right _ hentry
  constructor
  · rw [houter.keys]
    unfold merged
    rw [List.map_append, List.map_append, map_key_filter, map_key_filter, hinner.keys,
      ← FirstSeen.eraseDups_filter,
      FirstSeen.eraseDups_append_left]
  · exact fun entry hentry => hsub entry (houter.mem entry hentry)
  · intro entry hentry other hother hsame
    rcases List.mem_append.mp hother with hother | hother
    · -- an occurrence that the first dictionary left out has a stronger one in it
      obtain ⟨hmem, htype⟩ := List.mem_filter.mp hother
      obtain ⟨kept, hkept, hkey⟩ := mem_keys_deduplicate.mpr ⟨other, hmem, rfl⟩
      have htype' : kept.identifierType = other.identifierType := congrArg Prod.fst hkey
      have hin : kept ∈ merged types (deduplicate values) items :=
        List.mem_append_left _ (List.mem_filter.mpr ⟨hkept, by rw [htype']; exact htype⟩)
      exact (hinner.strongest kept hkept other hmem hkey.symm).trans
        (houter.strongest entry hentry kept hin (hkey.trans hsame))
    · exact houter.strongest entry hentry other (List.mem_append_right _ hother) hsame

theorem Strongest.merged (h : Strongest (merged types values items) entries)
    (hitems : ∀ item ∈ items, item.identifierType ∈ types) :
    Merged types values items entries := by
  have hmem (key : IdentifierType × String) :
      (∃ entry ∈ entries, entry.key = key) ↔ ∃ entry ∈ Identifiers.merged types values items,
        entry.key = key := by
    rw [← List.mem_map, ← List.mem_map, h.keys, List.mem_eraseDups]
  refine ⟨h.nodup, fun key htype => ?_, fun key htype => ?_, fun entry hentry =>
    ⟨h.mem entry hentry, h.strongest entry hentry⟩,
    h.keys⟩
  · rw [hmem]
    constructor
    · rintro ⟨entry, hentry, rfl⟩
      rcases List.mem_append.mp hentry with hentry | hentry
      · exact absurd htype (of_decide_eq_true (List.mem_filter.mp hentry).2)
      · exact ⟨entry, hentry, rfl⟩
    · rintro ⟨item, hitem, hkey⟩
      exact ⟨item, List.mem_append_right _ hitem, hkey⟩
  · rw [hmem]
    constructor
    · rintro ⟨entry, hentry, rfl⟩
      rcases List.mem_append.mp hentry with hentry | hentry
      · exact ⟨entry, (List.mem_filter.mp hentry).1, rfl⟩
      · exact absurd (hitems entry hentry) htype
    · rintro ⟨item, hitem, rfl⟩
      exact ⟨item, List.mem_append_left _ (List.mem_filter.mpr ⟨hitem, decide_eq_true htype⟩), rfl⟩

/-! ## The merge -/

/-- The keys of the manual identifiers. -/
def ManualKey (py : Python) (manual : List ManualIdentifier)
    (key : IdentifierType × String) : Prop :=
  ∃ item ∈ manual, item.identifierType = key.1 ∧
    normalizeIdentifier py key.1 item.rawValue = .ok key.2

theorem extractManual_eq {item : ManualIdentifier} {entry : ExtractedIdentifier}
    (h : extractManual py pageNo section_ item = .ok entry) :
    entry.identifierType = item.identifierType ∧
      normalizeIdentifier py item.identifierType item.rawValue = .ok entry.normalizedValue ∧
        entry.source = .MANUAL := by
  obtain ⟨normalized, hnormalized, h⟩ := Fallible.bind_eq_ok.mp h
  unfold extracted at h
  split at h
  · cases h
    exact ⟨rfl, hnormalized, rfl⟩
  · cases h

theorem manual_keys (h : manual.mapM (extractManual py pageNo section_) = .ok items) :
    (∃ item ∈ items, item.key = key) ↔ ManualKey py manual key := by
  have hall := Fallible.mapM_eq_ok.mp h
  constructor
  · rintro ⟨entry, hentry, rfl⟩
    obtain ⟨item, hitem, heq⟩ := Related.mem_left hall.flip hentry
    obtain ⟨htype, hnormalized, -⟩ := extractManual_eq heq
    rw [← htype] at hnormalized
    exact ⟨item, hitem, htype.symm, hnormalized⟩
  · rintro ⟨item, hitem, htype, hnormalized⟩
    obtain ⟨entry, hentry, heq⟩ := Related.mem_left hall hitem
    obtain ⟨htype', hnormalized', -⟩ := extractManual_eq heq
    rw [htype] at hnormalized'
    exact ⟨entry, hentry, Prod.ext (htype'.trans htype)
      (Except.ok.inj (hnormalized'.symm.trans hnormalized))⟩

theorem manual_types (h : manual.mapM (extractManual py pageNo section_) = .ok items) :
    items.map (·.identifierType) = manual.map (·.identifierType) := by
  have htypes : List.Forall₂ (fun (item : ManualIdentifier) (entry : ExtractedIdentifier) =>
      entry.identifierType = item.identifierType) manual items :=
    (Fallible.mapM_eq_ok.mp h).imp fun _ _ h => (extractManual_eq h).1
  exact (Related.map_eq (fun _ _ h => h.symm) htypes).symm

theorem extract_eq_ok : extract py pageNo section_ text manual overrides = .ok entries ↔
    ∃ values items, occurrences py pageNo section_ text = .ok values ∧
      manual.mapM (extractManual py pageNo section_) = .ok items ∧
      entries = deduplicate (merged (manual.map (·.identifierType) ++ overrides)
        (deduplicate values) items) := by
  unfold extract
  rw [Fallible.bind_eq_ok, extractAutomatic_eq]
  constructor
  · rintro ⟨automatic, hautomatic, h⟩
    obtain ⟨items, hitems, h⟩ := Fallible.bind_eq_ok.mp h
    cases hvalues : occurrences py pageNo section_ text with
    | error e =>
      rw [hvalues] at hautomatic
      cases hautomatic
    | ok values =>
      rw [hvalues] at hautomatic
      cases hautomatic
      rw [manual_types hitems] at h
      exact ⟨values, items, rfl, hitems, (Except.ok.inj h).symm⟩
  · rintro ⟨values, items, hvalues, hitems, rfl⟩
    refine ⟨deduplicate values, by rw [hvalues]; rfl, Fallible.bind_eq_ok.mpr ⟨items, hitems, ?_⟩⟩
    rw [manual_types hitems]
    rfl

/-- **The law of the merge**: extraction of manual identifiers that normalize succeeds, and gives
each key once, those of the manual identifiers for the types that have some or are overridden and
what the patterns find for the others, each with the strongest source and in the order of what is
found. -/
theorem extract_merges (hmanual : ∀ item ∈ manual, item.pageNo.all (1 ≤ ·) = true ∧
      ∃ normalized, normalizeIdentifier py item.identifierType item.rawValue = .ok normalized) :
    (pageNo.all (1 ≤ ·) = true → ∃ entries, extract py pageNo section_ text manual overrides =
      .ok entries) ∧
    ∀ entries, extract py pageNo section_ text manual overrides = .ok entries →
      ∃ values items, occurrences py pageNo section_ text = .ok values ∧
        manual.mapM (extractManual py pageNo section_) = .ok items ∧
        (∀ key, (∃ item ∈ values, item.key = key) ↔ Extracts py text key) ∧
        (∀ key, (∃ item ∈ items, item.key = key) ↔ ManualKey py manual key) ∧
        Merged (manual.map (·.identifierType) ++ overrides) values items entries := by
  constructor
  · intro hpage
    obtain ⟨values, hvalues⟩ := occurrences_ok py section_ text hpage
    have hitems : ∃ items, manual.mapM (extractManual py pageNo section_) = .ok items := by
      refine Fallible.mapM_exists fun item hitem => ?_
      obtain ⟨hown, normalized, hnormalized⟩ := hmanual item hitem
      have heither : (item.pageNo.or pageNo).all (1 ≤ ·) = true := by
        cases hno : item.pageNo with
        | none => exact hpage
        | some page =>
          rw [hno] at hown
          exact hown
      obtain ⟨entry, hentry, -⟩ := extracted_ok heither
      exact ⟨entry, Fallible.bind_eq_ok.mpr ⟨normalized, hnormalized, hentry⟩⟩
    obtain ⟨items, hitems⟩ := hitems
    exact ⟨_, extract_eq_ok.mpr ⟨values, items, hvalues, hitems, rfl⟩⟩
  · intro entries h
    obtain ⟨values, items, hvalues, hitems, rfl⟩ := extract_eq_ok.mp h
    refine ⟨values, items, hvalues, hitems, (occurrences_lists hvalues).keys, fun key =>
      manual_keys hitems, ?_⟩
    refine strongest_twice.merged fun item hitem => List.mem_append_left _ ?_
    rw [← manual_types hitems]
    exact List.mem_map_of_mem hitem

namespace Sample

def ordersTable : ManualIdentifier := ⟨.DB_TABLE, "public.orders", none, none⟩

end Sample

theorem extract_merges_sample :
    ∃ entries, extract .ascii none none "REQ-1.1 t_order" [Sample.ordersTable] [.VERSION] =
      .ok entries := by
  refine (extract_merges fun item hitem => ?_).1 rfl
  obtain rfl := List.mem_singleton.mp hitem
  exact ⟨rfl, "orders", by decide +kernel⟩

end ProjectAgent.Identifiers
