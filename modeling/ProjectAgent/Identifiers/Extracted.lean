/-
What the extractor returns: a value for each normal form of what its patterns
find, and the same for a text and the text stripped.
-/
import ProjectAgent.Identifiers.Deduplicated
import ProjectAgent.Identifiers.Normal
import ProjectAgent.Identifiers.Stripped
import ProjectAgent.Lib.Fallible
import ProjectAgent.Lib.Related

namespace ProjectAgent.Identifiers

open Matching (Pattern)

variable {py : Python} {pageNo : Option Int} {section_ : Option String} {text normalized : String}
  {identifierType : IdentifierType} {values values' identifiers : List ExtractedIdentifier}
  {item : ExtractedIdentifier} {key : IdentifierType × String}
    {P Q : IdentifierType × String → Prop}

/-! ## Keys -/

/-- The keys of the values are these, and each value is a certain one. -/
structure Lists (values : List ExtractedIdentifier)
    (P : IdentifierType × String → Prop) : Prop where
  keys : ∀ key, (∃ item ∈ values, item.key = key) ↔ P key
  certain : ∀ item ∈ values, item.confidence = 1

theorem Lists.append (h : Lists values P) (h' : Lists values' Q) :
    Lists (values ++ values') fun key => P key ∨ Q key where
  keys key := by
    rw [← h.keys, ← h'.keys]
    simp only [List.mem_append, or_and_right, exists_or]
  certain item hitem := (List.mem_append.mp hitem).elim (h.certain item) (h'.certain item)

theorem Lists.deduplicate (h : Lists values P) : Lists (deduplicate values) P where
  keys key := mem_keys_deduplicate.trans (h.keys key)
  certain item hitem := h.certain item ((Strongest.deduplicate values).mem item hitem)

/-! ## What is extracted -/

/-- A pattern finds a raw value of that normal form. -/
def Emits (py : Python) (text : String) (entry : IdentifierType × Pattern Char)
    (key : IdentifierType × String) : Prop :=
  entry.1 = key.1 ∧ ∃ raw ∈ entry.2.finditer text.toList,
    normalizeIdentifier py key.1 (String.ofList raw) = .ok key.2

def Extracts (py : Python) (text : String) (key : IdentifierType × String) : Prop :=
  (∃ entry ∈ patterns py, Emits py text entry key) ∨ ∃ entry ∈ labeledPatterns py,
    Emits py text entry key

theorem extractWith_lists {source : IdentifierSource} {entry : IdentifierType × Pattern Char}
    (h : extractWith py pageNo section_ source text entry = .ok values) :
    Lists values (Emits py text entry) := by
  have hall := Fallible.mapM_eq_ok.mp h
  have hvalue {raw : List Char} {item : ExtractedIdentifier} (h : (do
      let normalized ← normalizeIdentifier py entry.1 (String.ofList raw)
      extracted entry.1 (String.ofList raw) normalized source pageNo section_) = .ok item) :
      normalizeIdentifier py entry.1 (String.ofList raw) = .ok item.normalizedValue ∧
        item.identifierType = entry.1 ∧
        item.confidence = 1 := by
    obtain ⟨normalized, hnormalized, h⟩ := Fallible.bind_eq_ok.mp h
    unfold extracted at h
    split at h
    · cases h
      exact ⟨hnormalized, rfl, rfl⟩
    · cases h
  constructor
  · rintro ⟨identifierType, normalized⟩
    constructor
    · rintro ⟨item, hitem, hkey⟩
      obtain ⟨raw, hraw, hemit⟩ := Related.mem_left hall.flip hitem
      obtain ⟨hnormalized, htype, -⟩ := hvalue hemit
      cases hkey
      exact ⟨htype.symm, raw, hraw, htype ▸ hnormalized⟩
    · rintro ⟨rfl, raw, hraw, hnormalized⟩
      obtain ⟨item, hitem, hemit⟩ := Related.mem_left hall hraw
      obtain ⟨hnormalized', htype, -⟩ := hvalue hemit
      refine ⟨item, hitem, Prod.ext htype ?_⟩
      exact Except.ok.inj (hnormalized'.symm.trans hnormalized)
  · intro item hitem
    obtain ⟨raw, -, hemit⟩ := Related.mem_left hall.flip hitem
    exact (hvalue hemit).2.2

theorem extracts_lists {source : IdentifierSource} {entries : List (IdentifierType × Pattern Char)}
    {found : List (List ExtractedIdentifier)}
    (h : entries.mapM (extractWith py pageNo section_ source text) = .ok found) :
    Lists found.flatten fun key => ∃ entry ∈ entries, Emits py text entry key := by
  have hall := Fallible.mapM_eq_ok.mp h
  clear h
  induction hall with
  | nil => exact ⟨fun key => by simp, fun _ h => nomatch h⟩
  | cons hentry _ ih =>
    have happend := (extractWith_lists hentry).append ih
    exact ⟨fun key => by rw [List.exists_mem_cons_iff]; exact happend.keys key, happend.certain⟩

/-- Without manual identifiers the automatic ones are all there is. -/
theorem extract_eq :
    extract py pageNo section_ text [] [] =
      (extractAutomatic py pageNo section_ text).map deduplicate := by
  unfold extract
  cases extractAutomatic py pageNo section_ text with
  | error e => rfl
  | ok automatic =>
    have hkept : automatic.filter (fun item =>
        decide (item.identifierType ∉ ([] : List IdentifierType))) ++ [] = automatic := by
      rw [List.append_nil]
      exact List.filter_eq_self.mpr fun item _ => decide_eq_true List.not_mem_nil
    exact congrArg (fun values => Except.ok (deduplicate values)) hkept

/-- What the patterns find, one after the other. -/
def occurrences (py : Python) (pageNo : Option Int) (section_ : Option String) (text : String) :
    Except IdentifierError (List ExtractedIdentifier) := do
  let values ← (patterns py).mapM (extractWith py pageNo section_ .REGEX text)
  let structures ← (labeledPatterns py).mapM (extractWith py pageNo section_ .STRUCTURE text)
  pure (values.flatten ++ structures.flatten)

theorem extractAutomatic_eq :
    extractAutomatic py pageNo section_ text =
      (occurrences py pageNo section_ text).map deduplicate := by
  unfold extractAutomatic occurrences
  cases (patterns py).mapM (extractWith py pageNo section_ .REGEX text) with
  | error e => rfl
  | ok found =>
    cases (labeledPatterns py).mapM (extractWith py pageNo section_ .STRUCTURE text) with
    | error e => rfl
    | ok structures => rfl

theorem occurrences_lists (h : occurrences py pageNo section_ text = .ok values) :
    Lists values (Extracts py text) := by
  obtain ⟨found, hfound, h⟩ := Fallible.bind_eq_ok.mp h
  obtain ⟨structures, hstructures, h⟩ := Fallible.bind_eq_ok.mp h
  cases h
  exact (extracts_lists hfound).append (extracts_lists hstructures)

theorem extract_lists (h : extract py pageNo section_ text [] [] = .ok identifiers) :
    Lists identifiers (Extracts py text) := by
  rw [extract_eq, extractAutomatic_eq] at h
  cases hoccurrences : occurrences py pageNo section_ text with
  | error e =>
    rw [hoccurrences] at h
    cases h
  | ok values =>
    rw [hoccurrences] at h
    cases h
    exact (occurrences_lists hoccurrences).deduplicate.deduplicate

/-! ## Emitted values -/

/-- What the pattern of API paths finds. -/
def apiPaths (text : String) : List (List Char) := (wholeMatch apiPathRe).finditer text.toList

theorem mem_apiPaths {raw : List Char} (h : raw ∈ apiPaths text) : PathLike raw :=
  word_path (Matching.mem_findAll h)

theorem path_entry {entry : IdentifierType × Pattern Char} (hentry : entry ∈ patterns py)
    (htype : entry.1 = .API_PATH) :
    entry = (.API_PATH, wholeMatch apiPathRe) := by
  simp only [patterns, List.mem_cons, List.not_mem_nil, or_false] at hentry
  rcases hentry with rfl | rfl | rfl | rfl | rfl | rfl | rfl | rfl
  all_goals first | rfl | cases htype

theorem label_entry {entry : IdentifierType × Pattern Char} (hentry : entry ∈ labeledPatterns py) :
    entry.1 ≠ .API_PATH := by
  simp only [labeledPatterns, List.mem_cons, List.not_mem_nil, or_false] at hentry
  rcases hentry with rfl | rfl | rfl | rfl
  all_goals intro h; cases h

/-- What a pattern finds settles, or is an API path. -/
theorem emits_settles {entry : IdentifierType × Pattern Char}
    (hentry : entry ∈ patterns py ∨ entry ∈ labeledPatterns py) {raw : List Char}
    (hraw : raw ∈ entry.2.finditer text.toList) :
    entry.1 ≠ .API_PATH ∧ Settles py entry.1 raw ∨ entry.1 = .API_PATH ∧ raw ∈ apiPaths text := by
  have hword := Matching.mem_findAll hraw
  rcases hentry with hentry | hentry
  · by_cases htype : entry.1 = .API_PATH
    · obtain rfl := path_entry hentry htype
      exact .inr ⟨rfl, hraw⟩
    · exact .inl ⟨htype, settles_patterns hentry htype hword⟩
  · exact .inl ⟨label_entry hentry, settles_labels hentry hword⟩

theorem extracted_ok {raw normalized : String} {source : IdentifierSource}
    (hpage : pageNo.all (1 ≤ ·) = true) :
    ∃ item, extracted identifierType raw normalized source pageNo section_ = .ok item ∧
      item.key = (identifierType, normalized) := by
  unfold extracted
  rw [if_pos hpage]
  exact ⟨_, rfl, rfl⟩

/-- Whatever is found has a normal form. -/
theorem occurrences_ok (py : Python) (section_ : Option String) (text : String)
    (hpage : pageNo.all (1 ≤ ·) = true) :
    ∃ values, occurrences py pageNo section_ text = .ok values := by
  have hentry {entry : IdentifierType × Pattern Char} (source : IdentifierSource)
      (hentry : entry ∈ patterns py ∨ entry ∈ labeledPatterns py) :
      ∃ values, extractWith py pageNo section_ source text entry = .ok values := by
    refine Fallible.mapM_exists fun raw hraw => ?_
    have hnormalized : ∃ normalized, normalizeIdentifier py entry.1 (String.ofList raw) =
        .ok normalized := by
      rcases emits_settles hentry hraw with ⟨-, normalized, h, -⟩ | ⟨htype, hpath⟩
      · exact ⟨normalized, h⟩
      · exact ⟨_, htype ▸ normalize_path (mem_apiPaths hpath)⟩
    obtain ⟨normalized, hnormalized⟩ := hnormalized
    obtain ⟨item, hitem, -⟩ := extracted_ok hpage
    exact ⟨item, Fallible.bind_eq_ok.mpr ⟨normalized, hnormalized, hitem⟩⟩
  obtain ⟨found, hfound⟩ := Fallible.mapM_exists fun entry h => @hentry entry .REGEX (.inl h)
  obtain ⟨structures, hstructures⟩ := Fallible.mapM_exists fun entry h =>
    @hentry entry .STRUCTURE (.inr h)
  exact ⟨_, Fallible.bind_eq_ok.mpr ⟨found, hfound,
    Fallible.bind_eq_ok.mpr ⟨structures, hstructures, rfl⟩⟩⟩

/-- The extraction of identifiers without a page does not fail. -/
theorem extract_ok (py : Python) (text : String) :
    ∃ identifiers, extract py none none text [] [] = .ok identifiers := by
  obtain ⟨values, hvalues⟩ := @occurrences_ok none py none text rfl
  rw [extract_eq, extractAutomatic_eq, hvalues]
  exact ⟨_, rfl⟩

theorem extracts_again (h : Extracts py text (identifierType, normalized))
    (htype : identifierType ≠ .API_PATH) :
    normalizeIdentifier py identifierType normalized = .ok normalized := by
  have hentry : ∃ entry, (entry ∈ patterns py ∨ entry ∈ labeledPatterns py) ∧
      Emits py text entry (identifierType, normalized) := by
    rcases h with ⟨entry, hentry, h⟩ | ⟨entry, hentry, h⟩
    · exact ⟨entry, .inl hentry, h⟩
    · exact ⟨entry, .inr hentry, h⟩
  obtain ⟨entry, hentry, rfl, raw, hraw, hnormalized⟩ := hentry
  rcases emits_settles hentry hraw with ⟨-, normalized', h, hagain⟩ | ⟨hpath, -⟩
  · obtain rfl := Except.ok.inj (h.symm.trans hnormalized)
    exact hagain
  · exact absurd hpath htype

theorem extracts_path :
    Extracts py text (.API_PATH, normalized) ↔
      ∃ raw ∈ apiPaths text, normalized = String.ofList (apiPath raw) := by
  constructor
  · rintro (⟨entry, hentry, htype, raw, hraw, hnormalized⟩ | ⟨entry, hentry, htype, -⟩)
    · obtain rfl := path_entry hentry htype
      refine ⟨raw, hraw, ?_⟩
      exact Except.ok.inj (hnormalized.symm.trans (normalize_path (mem_apiPaths hraw)))
    · exact absurd htype (label_entry hentry)
  · rintro ⟨raw, hraw, rfl⟩
    refine .inl ⟨(.API_PATH, wholeMatch apiPathRe), ?_, rfl, raw, hraw,
      normalize_path (mem_apiPaths hraw)⟩
    simp [patterns]

/-- What is extracted is its own normal form, but for API paths with punctuation at their end. -/
theorem extracts_again_iff (h : Extracts py text (identifierType, normalized)) :
    normalizeIdentifier py identifierType normalized = .ok normalized ↔
      (identifierType = .API_PATH → EndsPlain normalized.toList) := by
  by_cases htype : identifierType = .API_PATH
  · subst htype
    obtain ⟨raw, hraw, rfl⟩ := extracts_path.mp h
    have hpath := mem_apiPaths hraw
    rw [normalize_path hpath.apiPath, String.toList_ofList, Except.ok.injEq, String.ofList_inj]
    exact ⟨fun hagain _ => endsPlain_of_again hpath.apiPath hagain, fun hends =>
      apiPath_again hpath (hends rfl)⟩
  · exact iff_of_true (extracts_again h htype) fun hpath => absurd hpath htype

/-! ## Stripping the text -/

theorem strip_split (text : String) :
    ∃ left right : List Char, (∀ c ∈ left, isSpace c = true) ∧ (∀ c ∈ right, isSpace c = true) ∧
    text.toList = left.reverse ++ ((strip text).toList ++ right) := by
  have hstrip : (strip text).toList = (text.toList.dropWhile isSpace).rdropWhile isSpace := by
    unfold strip
    rw [String.toList_ofList]
    rfl
  refine ⟨(text.toList.takeWhile isSpace).reverse,
    (text.toList.dropWhile isSpace).rtakeWhile isSpace,
    fun c hc => List.mem_takeWhile_imp (List.mem_reverse.mp hc), fun c hc =>
      List.mem_rtakeWhile_imp hc, ?_⟩
  rw [hstrip, List.reverse_reverse, List.rdropWhile_append_rtakeWhile,
    List.takeWhile_append_dropWhile]

/-- What is extracted from a text is extracted from it stripped. -/
theorem Extracts.strip (h : Extracts py text key) : Extracts py (strip text) key := by
  obtain ⟨left, right, hleft, hright, htext⟩ := strip_split text
  have hsearched {entry : IdentifierType × Pattern Char} (hentry : Searched left right entry.2)
    (h : Emits py text entry key) :
      Emits py (ProjectAgent.strip text) entry key := by
    obtain ⟨htype, raw, hraw, hnormalized⟩ := h
    rw [htext, hentry.finditer hleft hright] at hraw
    exact ⟨htype, raw, hraw, hnormalized⟩
  rcases h with ⟨entry, hentry, h⟩ | ⟨entry, hentry, h⟩
  · exact .inl ⟨entry, hentry, hsearched (patterns_searched hleft hright entry hentry) h⟩
  · refine .inr ⟨entry, hentry, ?_⟩
    obtain ⟨htable, hcolumn, hsql⟩ := @labels_searched py left right hleft hright
    simp only [labeledPatterns, List.mem_cons, List.not_mem_nil, or_false] at hentry
    rcases hentry with rfl | rfl | rfl | rfl
    · exact hsearched htable h
    · exact hsearched hcolumn h
    · exact hsearched hsql h
    · obtain ⟨htype, raw, hraw, hnormalized⟩ := h
      rw [htext] at hraw
      exact ⟨htype, raw, mem_sqlColumn hleft hright hraw, hnormalized⟩

end ProjectAgent.Identifiers
