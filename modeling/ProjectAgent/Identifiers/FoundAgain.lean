/-
A text is indexed for a version, and then the same text is asked. What is
normalized once by the index is normalized twice by the lookup: what settles is
found again, and an API path that does not is found if its next normal form
is indexed too.
-/
import ProjectAgent.Identifiers.Extracted
import ProjectAgent.Identifiers.Narrowing

namespace ProjectAgent.Identifiers

variable {py : Python} {draws : Draws} {rows rows' : List DocumentIdentifier}
  {row : DocumentIdentifier}
  {companyId projectId versionId : UUID} {allowed : List UUID} {text normalized : String}
    {pageNo : Option Int}
  {section_ : Option String} {identifierType : IdentifierType}
    {identifiers : List ExtractedIdentifier}

/-! ## Statements -/

/-- The version is among the hits of every identifier of the text that is looked up. -/
def FoundAgain (py : Python) (rows : List DocumentIdentifier) (projectId versionId : UUID)
    (allowed : List UUID) (text : String) (identifiers : List ExtractedIdentifier) : Prop :=
  ∃ analysis result, analyze py text = .ok analysis ∧
    resolve py rows projectId analysis allowed = .ok result ∧
    ∀ item ∈ identifiers, item.identifierType ≠ .PROJECT_CODE →
      ∃ r ∈ result.resolutions, r.identifierType = item.identifierType ∧
        r.normalizedValue = item.normalizedValue ∧
        versionId ∈ r.authorizedDocumentVersionIds

/-- The rows of other versions that the lookups select can be decoded. -/
def Readable (py : Python) (rows : List DocumentIdentifier) (projectId versionId : UUID)
    (text : String) : Prop :=
  ∀ identifierType normalized value, identifierType ≠ .PROJECT_CODE →
    Extracts py (strip text) (identifierType, normalized) →
    normalizeIdentifier py identifierType normalized = .ok value →
    ∀ row ∈ rows, row.documentVersionId ≠ versionId → row.projectId = projectId →
      row.identifierType = identifierType.value →
      row.normalizedValue = value → ∃ entry, toEntry row = .ok entry

/-- Where punctuation is left at the end of an API path's normal form, the path without it is in the
text too. -/
def PathsAgain (text : String) : Prop :=
  ∀ raw ∈ apiPaths text, EndsPlain (apiPath raw) ∨ ∃ other ∈ apiPaths text,
    apiPath other = apiPath (apiPath raw)

/-! ## Rows -/

theorem toEntry_row {entry : ExtractedIdentifier × Nat} (h : entry.1.confidence = 1) :
    ∃ found, toEntry (identifierRow draws companyId projectId versionId entry) = .ok found := by
  unfold toEntry identifierRow
  dsimp only
  rw [IdentifierType.ofValue_value, IdentifierSource.ofValue_value]
  dsimp only
  rw [h]
  exact ⟨_, if_pos (by decide +kernel)⟩

theorem mem_replaced :
    row ∈ replaceForDocumentVersion draws rows companyId projectId versionId identifiers ↔
    row ∈ rows ∧ row.documentVersionId ≠ versionId ∨
      ∃ entry ∈ identifiers.zipIdx, row =
        identifierRow draws companyId projectId versionId entry := by
  unfold replaceForDocumentVersion
  rw [List.mem_append, List.mem_filter, decide_eq_true_iff, List.mem_map]
  exact or_congr_right (exists_congr fun entry => and_congr_right fun _ => eq_comm)

/-- The version is hit by a value exactly if the value is indexed. -/
theorem version_hit (h : Lists identifiers (Extracts py text)) (hallowed : versionId ∈ allowed)
    {identifier : QueryExactIdentifier} :
    Hit py (replaceForDocumentVersion draws rows companyId projectId versionId identifiers)
      projectId allowed identifier versionId ↔
      ∃ value, normalizeIdentifier py identifier.identifierType identifier.normalizedValue =
        .ok value ∧
        Extracts py text (identifier.identifierType, value) := by
  unfold Hit
  rw [and_iff_right hallowed]
  refine exists_congr fun value => and_congr_right fun _ => ?_
  rw [← h.keys]
  constructor
  · rintro ⟨row, hrow, -, htype, hvalue, hversion⟩
    rcases mem_replaced.mp hrow with ⟨-, hother⟩ | ⟨⟨item, n⟩, hentry, rfl⟩
    · exact absurd hversion hother
    · exact ⟨item, List.fst_mem_of_mem_zipIdx hentry,
        Prod.ext (IdentifierType.value_injective htype) hvalue⟩
  · rintro ⟨item, hitem, hkey⟩
    obtain ⟨n, hn⟩ := List.mem_iff_getElem?.mp hitem
    have hentry : (item, n) ∈ identifiers.zipIdx := List.mk_mem_zipIdx_iff_getElem?.mpr hn
    refine ⟨_, mem_replaced.mpr (.inr ⟨_, hentry, rfl⟩), rfl, ?_, ?_, rfl⟩
    · exact congrArg IdentifierType.value (congrArg Prod.fst hkey)
    · exact congrArg Prod.snd hkey

/-! ## Lookups -/

theorem analyze_eq {analysis : QueryAnalysis} (h : analyze py text = .ok analysis) :
    ∃ found, Lists found (Extracts py (strip text)) ∧
      analysis.exactIdentifiers = found.map queryIdentifier := by
  unfold analyze at h
  split at h
  · cases h
  · obtain ⟨found, hfound, h⟩ := Fallible.bind_eq_ok.mp h
    cases h
    exact ⟨found, extract_lists hfound, rfl⟩

theorem analyze_ok (htext : strip text ≠ "") : ∃ analysis, analyze py text = .ok analysis := by
  obtain ⟨found, hfound⟩ := extract_ok py (strip text)
  unfold analyze
  rw [if_neg htext]
  exact ⟨_, Fallible.bind_eq_ok.mpr ⟨found, hfound, rfl⟩⟩

theorem mem_lookedUp {found : List ExtractedIdentifier} (h : Lists found (Extracts py (strip text)))
    (htype : identifierType ≠ .PROJECT_CODE)
    (hextracts : Extracts py (strip text) (identifierType, normalized)) :
    ∃ identifier ∈ lookedUp (found.map queryIdentifier),
      identifier.identifierType = identifierType ∧
      identifier.normalizedValue = normalized := by
  obtain ⟨item, hitem, hkey⟩ := (h.keys _).mpr hextracts
  cases hkey
  exact ⟨queryIdentifier item, List.mem_filter.mpr ⟨List.mem_map_of_mem hitem,
    decide_eq_true htype⟩, rfl, rfl⟩

theorem of_mem_lookedUp {found : List ExtractedIdentifier}
    (h : Lists found (Extracts py (strip text))) {identifier : QueryExactIdentifier}
    (hidentifier : identifier ∈ lookedUp (found.map queryIdentifier)) :
    identifier.identifierType ≠ .PROJECT_CODE ∧
      Extracts py (strip text) (identifier.identifierType, identifier.normalizedValue) := by
  obtain ⟨hmem, htype⟩ := List.mem_filter.mp hidentifier
  obtain ⟨item, hitem, rfl⟩ := List.mem_map.mp hmem
  exact ⟨of_decide_eq_true htype, (h.keys _).mp ⟨item, hitem, rfl⟩⟩

/-- What is extracted has a normal form, and a lookup of it succeeds if the rows can be decoded. -/
theorem extracts_normalizes (h : Extracts py text (identifierType, normalized)) :
    ∃ value, normalizeIdentifier py identifierType normalized = .ok value := by
  by_cases htype : identifierType = .API_PATH
  · subst htype
    obtain ⟨raw, hraw, rfl⟩ := extracts_path.mp h
    exact ⟨_, normalize_path (mem_apiPaths hraw).apiPath⟩
  · exact ⟨normalized, extracts_again h htype⟩

theorem resolve_ok {analysis : QueryAnalysis}
    (h : ∀ identifier ∈ lookedUp analysis.exactIdentifiers, ∃ entries,
      findExact py rows projectId identifier.identifierType identifier.normalizedValue =
      .ok entries) :
    ∃ result, resolve py rows projectId analysis allowed = .ok result := by
  have hall : ∃ resolutions, (lookedUp analysis.exactIdentifiers).mapM (m := Except IdentifierError)
    (fun identifier => do
      let hits ← findExact py rows projectId identifier.identifierType identifier.normalizedValue
      pure (resolution identifier (hits.map (·.documentVersionId)) allowed)) = .ok resolutions := by
    refine Fallible.mapM_exists fun identifier hidentifier => ?_
    obtain ⟨entries, hentries⟩ := h identifier hidentifier
    exact ⟨_, Fallible.bind_eq_ok.mpr ⟨entries, hentries, rfl⟩⟩
  obtain ⟨resolutions, hresolutions⟩ := hall
  exact ⟨_, Fallible.bind_eq_ok.mpr ⟨resolutions, hresolutions, rfl⟩⟩

theorem resolve_found {analysis : QueryAnalysis} {result : ExactResolutionResult}
    (h : resolve py rows projectId analysis allowed = .ok result)
    {identifier : QueryExactIdentifier}
    (hidentifier : identifier ∈ lookedUp analysis.exactIdentifiers) :
    ∃ entries, findExact py rows projectId identifier.identifierType identifier.normalizedValue =
      .ok entries := by
  obtain ⟨resolutions, hresolutions, -⟩ := Fallible.bind_eq_ok.mp h
  obtain ⟨r, -, hr⟩ := Related.mem_left (Fallible.mapM_eq_ok.mp hresolutions) hidentifier
  obtain ⟨entries, hentries, -⟩ := Fallible.bind_eq_ok.mp hr
  exact ⟨entries, hentries⟩

/-! ## Found again -/

theorem found_readable {analysis : QueryAnalysis} {result : ExactResolutionResult}
    (hanalyze : analyze py text = .ok analysis)
    (hresolve : resolve py (replaceForDocumentVersion draws rows companyId projectId versionId
      identifiers) projectId analysis allowed = .ok result) :
    Readable py rows projectId versionId text := by
  intro identifierType normalized value htype hextracts hvalue row hrow hother hproject
    htype' hvalue'
  obtain ⟨found, hfound, hidentifiers⟩ := analyze_eq hanalyze
  obtain ⟨identifier, hidentifier, rfl, rfl⟩ := mem_lookedUp hfound htype hextracts
  obtain ⟨entries, hentries⟩ := resolve_found hresolve (hidentifiers ▸ hidentifier)
  obtain ⟨value', hnormalized, hrows⟩ := Fallible.bind_eq_ok.mp hentries
  obtain rfl := Except.ok.inj (hnormalized.symm.trans hvalue)
  have hmem : row ∈ exactRows
    (replaceForDocumentVersion draws rows companyId projectId versionId identifiers) projectId
      identifier.identifierType value' :=
    mem_exactRows.mpr ⟨mem_replaced.mpr (.inl ⟨hrow, hother⟩), hproject, htype', hvalue'⟩
  obtain ⟨entry, -, hentry⟩ := Related.mem_left (Fallible.mapM_eq_ok.mp hrows) hmem
  exact ⟨entry, hentry⟩

section Indexed

variable (hlists : Lists identifiers (Extracts py text)) (hallowed : versionId ∈ allowed)

include hlists

theorem lookup_ok (hreadable : Readable py rows projectId versionId text)
    {identifier : QueryExactIdentifier} (htype : identifier.identifierType ≠ .PROJECT_CODE)
    (hextracts : Extracts py (strip text) (identifier.identifierType, identifier.normalizedValue)) :
    ∃ entries, findExact py
      (replaceForDocumentVersion draws rows companyId projectId versionId identifiers) projectId
      identifier.identifierType identifier.normalizedValue = .ok entries := by
  obtain ⟨value, hvalue⟩ := extracts_normalizes hextracts
  have hrows : ∃ entries,
    (exactRows (replaceForDocumentVersion draws rows companyId projectId versionId identifiers)
    projectId
      identifier.identifierType value).mapM toEntry = .ok entries := by
    refine Fallible.mapM_exists fun row hrow => ?_
    obtain ⟨hmem, hproject, htype', hvalue'⟩ := mem_exactRows.mp hrow
    rcases mem_replaced.mp hmem with ⟨hrow, hother⟩ | ⟨entry, hentry, rfl⟩
    · exact hreadable _ _ value htype hextracts hvalue row hrow hother hproject htype' hvalue'
    · exact toEntry_row (hlists.certain _ (List.fst_mem_of_mem_zipIdx hentry))
  obtain ⟨entries, hentries⟩ := hrows
  exact ⟨entries, Fallible.bind_eq_ok.mpr ⟨value, hvalue, hentries⟩⟩

include hallowed

/-- The version is hit again by what it was indexed under, if the API paths are. -/
theorem hit_again (hpaths : PathsAgain text) {identifier : QueryExactIdentifier}
    (hextracts : Extracts py text (identifier.identifierType, identifier.normalizedValue)) :
    Hit py (replaceForDocumentVersion draws rows companyId projectId versionId identifiers)
      projectId allowed identifier
      versionId := by
  refine (version_hit hlists hallowed).mpr ?_
  by_cases htype : identifier.identifierType = .API_PATH
  · rw [htype] at hextracts ⊢
    obtain ⟨raw, hraw, hnormalized⟩ := extracts_path.mp hextracts
    rw [hnormalized]
    refine ⟨_, normalize_path (mem_apiPaths hraw).apiPath, ?_⟩
    rcases hpaths raw hraw with hends | ⟨other, hother, heq⟩
    · rw [apiPath_again (mem_apiPaths hraw) hends]
      exact extracts_path.mpr ⟨raw, hraw, rfl⟩
    · exact extracts_path.mpr ⟨other, hother, by rw [heq]⟩
  · exact ⟨_, extracts_again hextracts htype, hextracts⟩

/-- If an API path is hit again, its next normal form is one of the text's. -/
theorem path_hit {raw : List Char} (hraw : raw ∈ apiPaths text) {identifier : QueryExactIdentifier}
    (htype : identifier.identifierType = .API_PATH)
    (hvalue : identifier.normalizedValue = String.ofList (apiPath raw))
    (h : Hit py (replaceForDocumentVersion draws rows companyId projectId versionId identifiers)
      projectId allowed identifier versionId) :
    ∃ other ∈ apiPaths text, apiPath other = apiPath (apiPath raw) := by
  obtain ⟨value, hnormalized, hextracts⟩ := (version_hit hlists hallowed).mp h
  rw [htype] at hnormalized hextracts
  rw [hvalue, normalize_path (mem_apiPaths hraw).apiPath] at hnormalized
  obtain ⟨other, hother, heq⟩ := extracts_path.mp hextracts
  refine ⟨other, hother, ?_⟩
  have hlists := (Except.ok.inj hnormalized).trans heq
  exact (String.ofList_injective hlists).symm

theorem found_paths
    (hfound : FoundAgain py
      (replaceForDocumentVersion draws rows companyId projectId versionId identifiers) projectId
      versionId allowed text identifiers) :
    PathsAgain text := by
  obtain ⟨analysis, result, -, hresolve, hfound⟩ := hfound
  intro raw hraw
  right
  obtain ⟨item, hitem, hkey⟩ := (hlists.keys _).mpr (extracts_path.mpr ⟨raw, hraw, rfl⟩)
  have htype : item.identifierType = .API_PATH := congrArg Prod.fst hkey
  have hvalue : item.normalizedValue = String.ofList (apiPath raw) := congrArg Prod.snd hkey
  obtain ⟨r, hr, hrtype, hrvalue, hversion⟩ := hfound item hitem (by rw [htype]; exact nofun)
  obtain ⟨identifier, -, hresolves⟩ := Related.mem_left (resolve_eq hresolve).1.flip hr
  exact path_hit hlists hallowed hraw (hresolves.identifierType.symm.trans (hrtype.trans htype))
    (hresolves.normalizedValue.symm.trans (hrvalue.trans hvalue))
      ((hresolves.hits versionId).mp hversion)

theorem again_of_paths (htext : strip text ≠ "")
    (hreadable : Readable py rows projectId versionId text) (hpaths : PathsAgain text) :
    FoundAgain py (replaceForDocumentVersion draws rows companyId projectId versionId identifiers)
      projectId versionId allowed text identifiers := by
  obtain ⟨analysis, hanalyze⟩ := @analyze_ok py text htext
  obtain ⟨found, hfound, hidentifiers⟩ := analyze_eq hanalyze
  obtain ⟨result, hresolve⟩ :=
    @resolve_ok py (replaceForDocumentVersion draws rows companyId projectId versionId identifiers)
    projectId allowed analysis fun identifier hidentifier => by
      obtain ⟨htype, hextracts⟩ := of_mem_lookedUp hfound (hidentifiers ▸ hidentifier)
      exact lookup_ok hlists hreadable htype hextracts
  refine ⟨analysis, result, hanalyze, hresolve, fun item hitem htype => ?_⟩
  have hextracts : Extracts py text (item.identifierType, item.normalizedValue) :=
    (hlists.keys _).mp ⟨item, hitem, rfl⟩
  obtain ⟨identifier, hidentifier, heqType, heqValue⟩ := mem_lookedUp hfound htype hextracts.strip
  obtain ⟨r, hr, hresolves⟩ := Related.mem_left (resolve_eq hresolve).1 (hidentifiers ▸ hidentifier)
  refine ⟨r, hr, hresolves.identifierType.trans heqType,
    hresolves.normalizedValue.trans heqValue, ?_⟩
  exact (hresolves.hits versionId).mpr
    (hit_again hlists hallowed hpaths (by rw [heqType, heqValue]; exact hextracts))

end Indexed

/-- **What was indexed is found again** exactly if the rows of the others can be read and no API
path loses punctuation when it is normalized again, but to another path of the text. Only there is
the normal form of what is extracted not its own. -/
theorem found_again_iff (htext : strip text ≠ "") (hallowed : versionId ∈ allowed)
    (hextract : extract py pageNo section_ text [] [] = .ok identifiers)
    (hindex : indexText py draws rows companyId projectId versionId text [] [] pageNo section_ =
      .ok rows') :
    (FoundAgain py rows' projectId versionId allowed text identifiers ↔
      Readable py rows projectId versionId text ∧ PathsAgain text) ∧
    ∀ item ∈ identifiers, (normalizeIdentifier py item.identifierType item.normalizedValue =
      .ok item.normalizedValue ↔
      (item.identifierType = .API_PATH → EndsPlain item.normalizedValue.toList)) := by
  have hlists := extract_lists hextract
  obtain rfl : rows' = replaceForDocumentVersion draws rows companyId projectId versionId
      identifiers := by
    obtain ⟨identifiers', hextract', h⟩ := Fallible.bind_eq_ok.mp hindex
    obtain rfl := Except.ok.inj (hextract'.symm.trans hextract)
    exact (Except.ok.inj h).symm
  refine ⟨⟨fun hfound => ?_, fun h => again_of_paths hlists hallowed htext h.1 h.2⟩,
    fun item hitem => ?_⟩
  · obtain ⟨analysis, result, hanalyze, hresolve, -⟩ := id hfound
    exact ⟨found_readable hanalyze hresolve, found_paths hlists hallowed hfound⟩
  · exact extracts_again_iff ((hlists.keys _).mp ⟨item, hitem, rfl⟩)

namespace Sample

def drawn : Draws := ⟨.ofNat, 0⟩

/-- Its two paths are one when they are normalized. -/
def requirementText : String := "REQ-1.1: POST /api/orders/ and /api/orders."

def pathText : String := "/api/foo./"

end Sample

theorem found_again_iff_sample : ∃ identifiers rows rows',
    (∃ item ∈ identifiers, (item.identifierType, item.normalizedValue) =
      (.API_PATH, "/api/orders") ∧
      normalizeIdentifier .ascii item.identifierType item.normalizedValue =
        .ok item.normalizedValue) ∧
    rows ≠ [] ∧
    indexText .ascii Sample.drawn rows (.ofNat 1) (.ofNat 2) (.ofNat 11) Sample.requirementText []
      [] none none =
      .ok rows' ∧
    FoundAgain .ascii rows' (.ofNat 2) (.ofNat 11)
      [.ofNat 11] Sample.requirementText identifiers := by
  obtain ⟨identifiers, hextract⟩ := extract_ok .ascii Sample.requirementText
  have hlists := extract_lists hextract
  have hraw : "/api/orders/".toList ∈ apiPaths Sample.requirementText := by decide +kernel
  have hnormal : "/api/orders" = String.ofList (apiPath "/api/orders/".toList) := by decide +kernel
  have hplain : ∀ raw ∈ apiPaths Sample.requirementText, (apiPath raw).getLast? = some 's' := by
    decide +kernel
  have hs : 's' ∉ punctuation := by decide
  obtain ⟨item, hitem, hkey⟩ :=
    (hlists.keys (.API_PATH, "/api/orders")).mpr (extracts_path.mpr ⟨_, hraw, hnormal⟩)
  -- the same text is indexed for another version already
  have hindex : indexText .ascii Sample.drawn
      (replaceForDocumentVersion Sample.drawn [] (.ofNat 1) (.ofNat 2) (.ofNat 12) identifiers)
      (.ofNat 1) (.ofNat 2) (.ofNat 11) Sample.requirementText [] [] none none =
        .ok (replaceForDocumentVersion Sample.drawn
          (replaceForDocumentVersion Sample.drawn [] (.ofNat 1) (.ofNat 2) (.ofNat 12) identifiers)
          (.ofNat 1) (.ofNat 2) (.ofNat 11) identifiers) :=
    Fallible.bind_eq_ok.mpr ⟨identifiers, hextract, rfl⟩
  have hallowed : UUID.ofNat 11 ∈ [UUID.ofNat 11] := List.mem_cons_self
  have hagain := found_again_iff (by decide +kernel) hallowed hextract hindex
  refine ⟨identifiers, _, _, ⟨item, hitem, hkey, (hagain.2 item hitem).mpr fun _ c hc => ?_⟩,
    ?_, hindex,
    hagain.1.mpr ⟨?_, ?_⟩⟩
  · have hvalue : item.normalizedValue = "/api/orders" := congrArg Prod.snd hkey
    rw [hvalue] at hc
    obtain rfl : c = 's' := (Option.some.inj hc).symm
    exact hs
  · obtain ⟨n, hn⟩ := List.mem_iff_getElem?.mp hitem
    exact List.ne_nil_of_mem (mem_replaced.mpr
      (.inr ⟨_, List.mk_mem_zipIdx_iff_getElem?.mpr hn, rfl⟩))
  · intro _ _ _ _ _ _ row hrow _ _ _ _
    rcases mem_replaced.mp hrow with ⟨hnil, -⟩ | ⟨entry, hentry, rfl⟩
    · cases hnil
    · exact toEntry_row (hlists.certain _ (List.fst_mem_of_mem_zipIdx hentry))
  · intro raw hraw
    refine .inl fun c hc => ?_
    rw [hplain raw hraw] at hc
    obtain rfl : c = 's' := (Option.some.inj hc).symm
    exact hs

/-- The path is indexed with its dot and looked up without. -/
theorem path_not_found : ∃ identifiers rows',
    extract .ascii none none Sample.pathText [] [] = .ok identifiers ∧
      indexText .ascii Sample.drawn [] (.ofNat 1) (.ofNat 2) (.ofNat 11) Sample.pathText []
        [] none none = .ok rows' ∧
      ¬ FoundAgain .ascii rows' (.ofNat 2) (.ofNat 11) [.ofNat 11] Sample.pathText identifiers := by
  obtain ⟨identifiers, hextract⟩ := extract_ok .ascii Sample.pathText
  refine ⟨identifiers, _, hextract, Fallible.bind_eq_ok.mpr ⟨identifiers, hextract, rfl⟩,
    fun hfound => ?_⟩
  have hpaths := found_paths (extract_lists hextract) List.mem_cons_self hfound
  have hfound : apiPaths Sample.pathText = [Sample.pathText.toList] := by decide +kernel
  have hnormal : apiPath Sample.pathText.toList = "/api/foo.".toList := by decide +kernel
  have hagain : apiPath "/api/foo.".toList = "/api/foo".toList := by decide +kernel
  rcases hpaths Sample.pathText.toList (by rw [hfound]; exact List.mem_cons_self) with hends |
    ⟨other, hother, heq⟩
  · rw [hnormal] at hends
    exact absurd (hends '.' (by decide +kernel)) (by decide)
  · rw [hfound, List.mem_singleton] at hother
    rw [hother, hnormal, hagain] at heq
    exact absurd heq (by decide +kernel)

end ProjectAgent.Identifiers
