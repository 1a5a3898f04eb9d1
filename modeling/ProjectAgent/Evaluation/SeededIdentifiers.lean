/-
The identifier rows that `prepare_v0` writes for the corpus, and the reader of
the registry over them. A row is written from the manifest as it is: with a
source of its own, or "corpus-manifest", with any type, and with a value that was
not normalized.

A target's fields are of the types of their columns; an insert of others raises.
-/
import ProjectAgent.Evaluation.Prepare
import ProjectAgent.Identifiers.Narrowing
import ProjectAgent.Lib.Decimal

namespace ProjectAgent.Evaluation

open Identifiers

/-! ## The corpus -/

/-- An entry of `identifier_targets`; `none` where the field is missing. -/
structure IdentifierTarget where
  identifierType : String
  normalizedValue : String
  rawValue : Option String
  source : Option String
  pageNo : Option Int
  section_ : Option String
  confidence : Option ℚ

structure SeededDocument where
  docCode : String
  projectCode : String
  identifierTargets : List IdentifierTarget

/-! ## Seeding -/

def fixtureUuid (uuid5 : UUID → String → UUID) (version ns logicalKey : String) : UUID :=
  uuid5 (uuid5 namespaceUrl ("it-outsourcing-knowledge-agent/ws8/evaluation/" ++ ns))
    (version ++ "\x00" ++ logicalKey)

section Seeding

variable (uuid5 : UUID → String → UUID) (version ns : String)

def seededCompany : UUID := fixtureUuid uuid5 version ns "company"

def seededProject (projectCode : String) : UUID :=
  fixtureUuid uuid5 version ns ("project:" ++ projectCode)

def seededVersion (docCode : String) : UUID :=
  fixtureUuid uuid5 version ns ("document-version:" ++ docCode)

def IdentifierTarget.storedSource (target : IdentifierTarget) : String :=
  target.source.getD "corpus-manifest"

/-- `Numeric(4, 3)`. -/
def IdentifierTarget.storedConfidence (target : IdentifierTarget) : Option ℚ :=
  target.confidence.map (Decimal.round 3)

def seededRow (now : Nat) (entry : SeededDocument × IdentifierTarget) : DocumentIdentifier where
  id := fixtureUuid uuid5 version ns
    ("identifier:" ++ entry.1.docCode ++ ":" ++ entry.2.identifierType ++ ":" ++
      entry.2.normalizedValue)
  companyId := seededCompany uuid5 version ns
  projectId := seededProject uuid5 version ns entry.1.projectCode
  documentVersionId := seededVersion uuid5 version ns entry.1.docCode
  identifierType := entry.2.identifierType
  normalizedValue := entry.2.normalizedValue
  rawValue := entry.2.rawValue.getD entry.2.normalizedValue
  pageNo := entry.2.pageNo
  section_ := entry.2.section_
  source := entry.2.storedSource
  confidence := entry.2.storedConfidence
  createdAt := now

def hasNul (text : String) : Bool := '\x00' ∈ text.toList

/-- The columns take the values: `String(32)`, texts without NUL, `Integer`, `Numeric(4, 3)`. -/
def columnsTake (row : DocumentIdentifier) : Bool :=
  row.identifierType.length ≤ 32 && row.source.length ≤ 32 && !hasNul row.identifierType &&
    !hasNul row.normalizedValue &&
    !hasNul row.rawValue && !hasNul row.source && !row.section_.any hasNul &&
    row.pageNo.all (fun page => -2 ^ 31 ≤ page ∧ page < 2 ^ 31) &&
      row.confidence.all fun confidence => |confidence| < 10

inductive SeedError where
  | dataError
  | integrityError
deriving DecidableEq

/-- The targets of the documents of the two projects. -/
def seededTargets (documents : List SeededDocument) : List (SeededDocument × IdentifierTarget) :=
  (documents.filter fun doc => doc.projectCode ∈ projectCodes).flatMap fun doc =>
    doc.identifierTargets.map (doc, ·)

def uniqueKey (row : DocumentIdentifier) : UUID × String × String × UUID :=
  (row.projectId, row.identifierType, row.normalizedValue, row.documentVersionId)

/-- The rows that are merged into the table. -/
def seedIdentifiers (now : Nat) (documents : List SeededDocument) :
    Except SeedError (List DocumentIdentifier) :=
  let rows := (seededTargets documents).map (seededRow uuid5 version ns now)
  if ¬ rows.all columnsTake then .error .dataError
  else if ¬ ((rows.map (·.id)).Nodup ∧ (rows.map uniqueKey).Nodup) then .error .integrityError
  else .ok rows

end Seeding

/-- What stands in the table afterwards: a row of an id that is seeded is replaced. -/
def mergeRows (others rows : List DocumentIdentifier) : List DocumentIdentifier :=
  others.filter (fun row => row.id ∉ rows.map (·.id)) ++ rows

/-! ## Reading -/

variable {py : Identifiers.Python} {uuid5 : UUID → String → UUID} {version ns : String} {now : Nat}
  {documents : List SeededDocument}
  {rows table : List DocumentIdentifier} {entry : SeededDocument × IdentifierTarget}

def Decodes (row : DocumentIdentifier) : Prop := ∃ decoded, toEntry row = .ok decoded

/-- The target's type, source and confidence are what the reader knows. -/
structure Known (target : IdentifierTarget) : Prop where
  identifierType : (IdentifierType.ofValue target.identifierType).isSome
  source : (IdentifierSource.ofValue target.storedSource).isSome
  confidence : ∀ confidence, target.storedConfidence = some confidence → 0 ≤ confidence ∧
    confidence ≤ 1

theorem decodes_iff : Decodes (seededRow uuid5 version ns now entry) ↔ Known entry.2 := by
  unfold Decodes toEntry
  have hconfidence : (seededRow uuid5 version ns now entry).confidence = entry.2.storedConfidence :=
    rfl
  have htype : (seededRow uuid5 version ns now entry).identifierType = entry.2.identifierType := rfl
  have hsource : (seededRow uuid5 version ns now entry).source = entry.2.storedSource := rfl
  rw [hconfidence, htype, hsource]
  constructor
  · rintro ⟨decoded, h⟩
    split at h
    · cases h
    · cases h
    · next type source ht hs =>
      split at h
      · next hall =>
        refine ⟨by rw [ht]; rfl, by rw [hs]; rfl, fun confidence hc => ?_⟩
        rw [hc] at hall
        exact of_decide_eq_true hall
      · cases h
  · rintro ⟨ht, hs, hc⟩
    obtain ⟨type, ht⟩ := Option.isSome_iff_exists.mp ht
    obtain ⟨source, hs⟩ := Option.isSome_iff_exists.mp hs
    rw [ht, hs]
    dsimp only
    have hall : (entry.2.storedConfidence.all fun confidence =>
        decide (0 ≤ confidence ∧ confidence ≤ 1)) = true := by
      cases hstored : entry.2.storedConfidence with
      | none => rfl
      | some confidence => exact decide_eq_true (hc confidence hstored)
    rw [if_pos hall]
    exact ⟨_, rfl⟩

/-- Looked up under its type and value, the target is found with the version of its document. -/
def Found (py : Identifiers.Python) (uuid5 : UUID → String → UUID) (version ns : String)
    (table : List DocumentIdentifier) (entry : SeededDocument × IdentifierTarget) : Prop :=
  ∃ type entries, IdentifierType.ofValue entry.2.identifierType = some type ∧
    findExact py table (seededProject uuid5 version ns entry.1.projectCode) type
      entry.2.normalizedValue = .ok entries ∧
    ∃ decoded ∈ entries, decoded.documentVersionId = seededVersion uuid5 version ns entry.1.docCode

/-- A lookup in the project raises for its value only. -/
def NeverRaises (py : Identifiers.Python) (table : List DocumentIdentifier)
    (projectId : UUID) : Prop :=
  ∀ type value normalized, normalizeIdentifier py type value = .ok normalized →
    ∃ entries, findExact py table projectId type value = .ok entries

/-- What the value is normalized to stands in a row of the same type, project and version. -/
def Reached (py : Identifiers.Python) (uuid5 : UUID → String → UUID) (version ns : String)
    (rows : List DocumentIdentifier) (entry : SeededDocument × IdentifierTarget) : Prop :=
  ∃ type normalized, IdentifierType.ofValue entry.2.identifierType = some type ∧
    normalizeIdentifier py type entry.2.normalizedValue = .ok normalized ∧
    ∃ row ∈ rows, row.projectId = seededProject uuid5 version ns entry.1.projectCode ∧
      row.identifierType = type.value ∧
      row.normalizedValue = normalized ∧
        row.documentVersionId = seededVersion uuid5 version ns entry.1.docCode

theorem findExact_ok {projectId : UUID} {type : IdentifierType} {value normalized : String}
    (hall : ∀ row ∈ table, Decodes row)
    (hnormalized : normalizeIdentifier py type value = .ok normalized) :
    ∃ entries, findExact py table projectId type value = .ok entries := by
  have hexact : ∀ row ∈ exactRows table projectId type normalized, Decodes row :=
    fun row hrow => hall row (mem_exactRows.mp hrow).1
  obtain ⟨entries, hentries⟩ := Fallible.mapM_exists hexact
  exact ⟨entries, Fallible.bind_eq_ok.mpr ⟨normalized, hnormalized, hentries⟩⟩

theorem mem_versions {entries : List IdentifierRegistryEntry} {exact : List DocumentIdentifier}
    {versionId : UUID} (h : exact.mapM toEntry = .ok entries) :
    (∃ decoded ∈ entries, decoded.documentVersionId = versionId) ↔
      ∃ row ∈ exact, row.documentVersionId = versionId := by
  have hversions := versions_of_rows h
  rw [← List.mem_map, ← List.mem_map, hversions]

theorem found_iff (hall : ∀ row ∈ table, Decodes row) :
    Found py uuid5 version ns table entry ↔ Reached py uuid5 version ns table entry := by
  constructor
  · rintro ⟨type, entries, htype, hfind, hdecoded⟩
    obtain ⟨normalized, hnormalized, hrows⟩ := Fallible.bind_eq_ok.mp hfind
    obtain ⟨row, hrow, hversion⟩ := (mem_versions hrows).mp hdecoded
    obtain ⟨hmem, hproject, hrowType, hvalue⟩ := mem_exactRows.mp hrow
    exact ⟨type, normalized, htype, hnormalized, row, hmem, hproject, hrowType, hvalue, hversion⟩
  · rintro ⟨type, normalized, htype, hnormalized, row, hmem, hproject, hrowType, hvalue, hversion⟩
    have hfinds : ∃ entries, findExact py table
      (seededProject uuid5 version ns entry.1.projectCode) type
        entry.2.normalizedValue = .ok entries := findExact_ok hall hnormalized
    obtain ⟨entries, hfind⟩ := hfinds
    obtain ⟨normalized', hnormalized', hrows⟩ := Fallible.bind_eq_ok.mp hfind
    cases hnormalized.symm.trans hnormalized'
    refine ⟨type, entries, htype, hfind, (mem_versions hrows).mpr ⟨row, ?_, hversion⟩⟩
    exact mem_exactRows.mpr ⟨hmem, hproject, hrowType, hvalue⟩

theorem Reached.mono {rows' : List DocumentIdentifier} (h : Reached py uuid5 version ns rows entry)
    (hsub : ∀ row ∈ rows, row ∈ rows') : Reached py uuid5 version ns rows' entry := by
  obtain ⟨type, normalized, htype, hnormalized, row, hmem, hrow⟩ := h
  exact ⟨type, normalized, htype, hnormalized, row, hsub row hmem, hrow⟩

/-! ## Seeded rows -/

/-- In a table whose other rows decode: the seeded rows decode, the targets are found, and no lookup
raises. -/
def SeededWell (py : Identifiers.Python) (uuid5 : UUID → String → UUID) (version ns : String)
    (documents : List SeededDocument) (rows : List DocumentIdentifier) : Prop :=
  ∀ others, (∀ row ∈ others, Decodes row) →
    (∀ row ∈ rows, Decodes row) ∧
    (∀ entry ∈ seededTargets documents, Found py uuid5 version ns (mergeRows others rows) entry) ∧
    ∀ code ∈ projectCodes, NeverRaises py (mergeRows others rows)
      (seededProject uuid5 version ns code)

theorem seedIdentifiers_eq (h : seedIdentifiers uuid5 version ns now documents = .ok rows) :
    rows = (seededTargets documents).map (seededRow uuid5 version ns now) := by
  unfold seedIdentifiers at h
  dsimp only at h
  split_ifs at h
  cases h
  rfl

/-- **What is seeded is readable and findable exactly if the reader knows each target's type, source
and confidence, and the value it normalizes to was seeded for the same document.** -/
theorem seeded_well_iff (h : seedIdentifiers uuid5 version ns now documents = .ok rows) :
    SeededWell py uuid5 version ns documents rows ↔
      ∀ entry ∈ seededTargets documents, Known entry.2 ∧
        Reached py uuid5 version ns rows entry := by
  obtain rfl := seedIdentifiers_eq h
  constructor
  · intro hwell entry hentry
    obtain ⟨hdecodes, hfound, -⟩ := hwell [] fun row hrow => absurd hrow List.not_mem_nil
    have hknown := decodes_iff.mp (hdecodes _ (List.mem_map_of_mem hentry))
    refine ⟨hknown, ?_⟩
    have hreached := hfound entry hentry
    unfold mergeRows at hreached
    rw [List.filter_nil, List.nil_append] at hreached
    exact (found_iff hdecodes).mp hreached
  · intro hall others hothers
    have hdecodes : ∀ row ∈ (seededTargets documents).map (seededRow uuid5 version ns now),
        Decodes row := by
      intro row hrow
      obtain ⟨entry, hentry, rfl⟩ := List.mem_map.mp hrow
      exact decodes_iff.mpr (hall entry hentry).1
    have htable :
        ∀ row ∈ mergeRows others ((seededTargets documents).map (seededRow uuid5 version ns now)),
        Decodes row := by
      intro row hrow
      rcases List.mem_append.mp hrow with hrow | hrow
      · exact hothers row (List.mem_filter.mp hrow).1
      · exact hdecodes row hrow
    refine ⟨hdecodes, fun entry hentry => ?_, fun code _ type value normalized hnormalized =>
      findExact_ok htable hnormalized⟩
    exact (found_iff htable).mpr ((hall entry hentry).2.mono fun row hrow =>
      List.mem_append_right _ hrow)

namespace Sample

def seedTexts : List (String × Nat) := [
  ("it-outsourcing-knowledge-agent/ws8/evaluation/ws8-cli-unit",
    217356928381663973905410310859677451035),
  ("v0\x00company", 170180454864570582076821653480081705774),
  ("v0\x00project:PRJ-RETAIL-ALPHA", 323620443850625803199784442549000787400),
  ("v0\x00project:PRJ-LOGISTICS-BETA", 316798708976579443909858798381045094540),
  ("v0\x00document-version:A-REQ-001", 69835396190841150105004294367950895445),
  ("v0\x00identifier:A-REQ-001:requirement_id:REQ-3.2.1", 94587346546831174438664064184232698099)]

/-- `uuid5`, of the texts of this namespace. -/
def seedUuid5 (_ : UUID) (text : String) : UUID := UUID.ofNat ((seedTexts.lookup text).getD 0)

def requirementTarget (source : Option String) : IdentifierTarget :=
  ⟨"requirement_id", "REQ-3.2.1", none, source, none, none, none⟩

def requirementDocument (source : Option String) : SeededDocument :=
  ⟨"A-REQ-001", "PRJ-RETAIL-ALPHA", [requirementTarget source]⟩

def requirementRow (source : Option String) : DocumentIdentifier :=
  seededRow seedUuid5 "v0" "ws8-cli-unit" 0 (requirementDocument source, requirementTarget source)

theorem requirement_seeded {source : Option String} (h : source = none ∨ source = some "manual") :
    seedIdentifiers seedUuid5 "v0" "ws8-cli-unit" 0 [requirementDocument source] =
      .ok [requirementRow source] := by
  rcases h with rfl | rfl
  · rfl
  · rfl

end Sample

open Sample in
theorem seeded_well_iff_sample :
    SeededWell .ascii seedUuid5 "v0" "ws8-cli-unit" [requirementDocument (some "manual")]
      [requirementRow (some "manual")] := by
  refine (seeded_well_iff (requirement_seeded (.inr rfl))).mpr fun entry hentry => ?_
  obtain rfl := List.mem_singleton.mp hentry
  have hnormal : normalizeIdentifier .ascii .REQUIREMENT_ID "REQ-3.2.1" = .ok "REQ-3.2.1" := by
    decide +kernel
  exact ⟨⟨rfl, rfl, nofun⟩, .REQUIREMENT_ID, "REQ-3.2.1", rfl, hnormal, _, List.mem_cons_self, rfl,
    rfl, rfl, rfl⟩

open Sample in
/-- The target as the frozen manifest has it, without a source. -/
theorem manifest_row_unreadable :
    seedIdentifiers seedUuid5 "v0" "ws8-cli-unit" 0 [requirementDocument none] =
      .ok [requirementRow none] ∧
      ¬ SeededWell .ascii seedUuid5 "v0" "ws8-cli-unit" [requirementDocument none]
        [requirementRow none] := by
  refine ⟨requirement_seeded (.inl rfl), fun hwell => ?_⟩
  have hdecodes := (hwell [] fun row hrow => absurd hrow List.not_mem_nil).1 _ List.mem_cons_self
  have hknown := decodes_iff.mp hdecodes
  exact Bool.false_ne_true hknown.source

end ProjectAgent.Evaluation
