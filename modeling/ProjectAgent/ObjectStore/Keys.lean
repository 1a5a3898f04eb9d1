/-
The keys of `LocalFileObjectStoreAdapter`: the text of a stored object's key and
how a key is read. A key is read as a path, in which an empty component and a
component `.` are nothing, and the letters of its UUID are read in either case;
so an object has many keys that are read as its own.

A text is compared in lower case with that of a UUID only, which no character
outside ASCII becomes a part of.
-/
import ProjectAgent.Basic
import ProjectAgent.Lib.Fallible

namespace ProjectAgent.ObjectStore

inductive ObjectStoreError where
  | security (text : String)
  | conflict (text : String)
  | corruption (text : String)
  | valueError (text : String)
  | fileNotFound
  | notADirectory
  | osError
  | unicodeDecodeError
deriving DecidableEq

/-! ## Project ids -/

/-- `[A-Za-z0-9]`. -/
def isAlnum (c : Char) : Bool := 'A' ≤ c && c ≤ 'Z' || 'a' ≤ c && c ≤ 'z' || '0' ≤ c && c ≤ '9'

/-- `_PROJECT_ID_RE.fullmatch(project_id)`. -/
def matchesProjectId (projectId : String) : Bool :=
  match projectId.toList with
  | [] => false
  | c :: cs =>
    isAlnum c && cs.length ≤ 127 && cs.all fun c => isAlnum c || c == '.' || c == '_' || c == '-'

def validateProjectId (projectId : String) : Except ObjectStoreError String :=
  if matchesProjectId projectId then .ok projectId
    else .error (.security "project_id contains unsafe path characters")

/-! ## Keys -/

def storageKey (projectId : String) (objectId : UUID) : String :=
  "projects/" ++ projectId ++ "/objects/" ++ objectId.str

/-- The components of a path, as they stand between the separators. -/
def components (key : String) : List (List Char) := key.toList.splitOn '/'

/-- `PurePosixPath(key).parts`, of a relative path. -/
def parts (key : String) : List (List Char) :=
  (components key).filter fun part => part ≠ [] ∧ part ≠ ['.']

def isAbsolute (key : String) : Bool := key.toList.head? == some '/'

def lower (text : List Char) : List Char := text.map Char.toLower

def parseStorageKey (key : String) : Except ObjectStoreError (String × UUID) :=
  if key.isEmpty || key.toList.contains '\\' || key.toList.contains '\x00' then
    .error (.security "invalid storage object key")
  else
    match isAbsolute key, parts key with
    | false, [projects, projectId, objects, text] =>
      if projects ≠ "projects".toList ∨ objects ≠ "objects".toList then
        .error (.security "invalid storage object key")
      else do
        let projectId ← validateProjectId (String.ofList projectId)
        match UUID.parse (String.ofList text) with
        | none => .error (.security "storage object key must contain a UUID")
        | some objectId =>
          if objectId.str.toList ≠ lower text then
            .error (.security "storage object UUID must use canonical form")
          else pure (projectId, objectId)
    | _, _ => .error (.security "invalid storage object key")

/-! ## Characters -/

variable {text cs : List Char} {key projectId : String} {objectId : UUID} {c : Char}

/-! ## The text of a UUID -/

theorem hexValue_lower (digits : List Char) :
    Json.hexValue (lower digits) = Json.hexValue digits := by
  unfold Json.hexValue lower
  rw [List.foldlM_map]
  simp only [toLower_idem]

theorem filter_lower : (lower text).filter (· != '-') = lower (text.filter (· != '-')) := by
  unfold lower
  rw [List.filter_map]
  congr 1
  refine List.filter_congr fun c _ => ?_
  show (c.toLower != '-') = (c != '-')
  rcases toLower_eq c with h | ⟨-, h⟩
  · have hne (d : Char) (hd : 65 ≤ d.toNat) : (d != '-') = true :=
      bne_iff_ne.mpr fun heq => absurd (heq ▸ hd) (by decide)
    rw [hne c h.1, hne c.toLower (by omega)]
  · rw [h]

/-- **The text of a UUID in either case is read as it**. -/
theorem parse_of_lower (h : lower text = objectId.str.toList) :
    UUID.parse (String.ofList text) = some objectId := by
  have hchar (c : Char) (hc : c ∈ text) : c = '-' ∨ IsHex c := by
    have hlower : c.toLower ∈ objectId.str.toList := h ▸ List.mem_map_of_mem hc
    rcases UUID.mem_str hlower with hdash | hhex
    · refine .inl ?_
      rcases toLower_eq c with hupper | ⟨-, hsame⟩
      · rw [hdash] at hupper
        have hcode : '-'.toNat = 45 := rfl
        omega
      · rw [← hsame, hdash]
    · exact .inr hhex
  have hdigits : lower (text.filter (· != '-')) = Json.hexDigits 32 objectId.int := by
    rw [← filter_lower, h, UUID.str_digits]
  have hlength : (text.filter (· != '-')).length = 32 := by
    have hsize := congrArg List.length hdigits
    rwa [lower, List.length_map, Json.hexDigits_length] at hsize
  rw [UUID.parse_plain hchar hlength, ← hexValue_lower, hdigits, UUID.hexValue_digits]

/-! ## What is read as a key -/

/-- A path whose parts are those of a key of the object, with this text as its UUID. -/
structure Spells (key projectId : String) (objectId : UUID) (text : List Char) : Prop where
  plain : '\\' ∉ key.toList ∧ '\x00' ∉ key.toList
  relative : isAbsolute key = false
  parts : parts key = ["projects".toList, projectId.toList, "objects".toList, text]
  project : matchesProjectId projectId = true
  object : lower text = objectId.str.toList

theorem validateProjectId_ok {text : String} (h : validateProjectId text = .ok projectId) :
    text = projectId ∧ matchesProjectId projectId = true := by
  unfold validateProjectId at h
  split at h
  · next hmatches =>
    cases h
    exact ⟨rfl, hmatches⟩
  · cases h

theorem parseStorageKey_eq_ok :
    parseStorageKey key = .ok (projectId, objectId) ↔
      ∃ text, Spells key projectId objectId text := by
  constructor
  · intro h
    unfold parseStorageKey at h
    split at h
    · cases h
    · next hplain =>
      split at h
      · next projects project objects text habsolute hparts =>
        split at h
        · cases h
        · next hnames =>
          simp only [not_or, not_not] at hnames
          obtain ⟨rfl, rfl⟩ := hnames
          obtain ⟨projectId', hvalid, h₁⟩ := Fallible.bind_eq_ok.mp h
          obtain ⟨hproject, hmatches⟩ := validateProjectId_ok hvalid
          split at h₁
          · cases h₁
          · next objectId' hobject =>
            split at h₁
            · cases h₁
            · next hcanonical =>
              cases h₁
              rw [Bool.or_eq_true, Bool.or_eq_true, List.contains_iff_mem,
                List.contains_iff_mem] at hplain
              refine ⟨text, ⟨fun hmem => hplain (.inl (.inr hmem)), fun hmem => hplain (.inr hmem)⟩,
                habsolute, ?_, hmatches,
                (not_not.mp hcanonical).symm⟩
              have hlist : projectId.toList = project := by
                rw [← hproject]
                exact String.toList_ofList
              rw [hparts, hlist]
      · cases h
  · rintro ⟨text, hspells⟩
    have hempty : key.isEmpty = false := by
      rw [← Bool.not_eq_true, String.isEmpty_iff]
      rintro rfl
      have hnone : parts "" = [] := by decide
      cases hnone.symm.trans hspells.parts
    have hbackslash : key.toList.contains '\\' = false := by
      rw [← Bool.not_eq_true, List.contains_iff_mem]
      exact hspells.plain.1
    have hnull : key.toList.contains '\x00' = false := by
      rw [← Bool.not_eq_true, List.contains_iff_mem]
      exact hspells.plain.2
    have hproject : validateProjectId (String.ofList projectId.toList) = .ok projectId := by
      unfold validateProjectId
      rw [String.ofList_toList, if_pos hspells.project]
    unfold parseStorageKey
    rw [hempty, hbackslash, hnull, hspells.relative, hspells.parts]
    dsimp only
    rw [if_neg (by decide), if_neg (by simp), hproject]
    show (match UUID.parse (String.ofList text) with | none => _ | some objectId => _) = _
    rw [parse_of_lower hspells.object]
    dsimp only
    rw [if_neg fun hne => hne hspells.object.symm]
    rfl

/-! ## Other spellings -/

/-- A path that is read as a key of an object, with an empty component or a component `.`, or a
capital letter in the UUID. -/
def Respelled (key : String) : Prop :=
  ∃ projectId objectId text, Spells key projectId objectId text ∧
    ([] ∈ components key ∨ ['.'] ∈ components key ∨ ∃ c ∈ text, c.isUpper = true)

/-- The key is read as the object it is the key of, and not at all if it is of none. -/
def Exact (key : String) : Prop :=
  ∀ projectId objectId, parseStorageKey key = .ok (projectId, objectId) ↔
    matchesProjectId projectId = true ∧ key = storageKey projectId objectId

theorem not_mem_projectId (h : matchesProjectId projectId = true) (hc : c ∈ projectId.toList) :
    isAlnum c = true ∨ c = '.' ∨ c = '_' ∨ c = '-' := by
  unfold matchesProjectId at h
  split at h
  · cases h
  · next first rest hlist =>
    rw [hlist] at hc
    rw [Bool.and_eq_true, Bool.and_eq_true] at h
    rcases List.mem_cons.mp hc with rfl | hc
    · exact .inl h.1.1
    · have hmem := List.all_eq_true.mp h.2 c hc
      simp only [Bool.or_eq_true, beq_iff_eq, or_assoc] at hmem
      exact hmem

theorem slash_not_mem (h : matchesProjectId projectId = true) : '/' ∉ projectId.toList := by
  intro hmem
  rcases not_mem_projectId h hmem with hc | hc | hc | hc <;> exact absurd hc (by decide)

theorem slash_not_mem_str : '/' ∉ objectId.str.toList := by
  intro hmem
  rcases UUID.mem_str hmem with hc | ⟨a, hc⟩
  · exact absurd hc (by decide)
  · exact (by decide : ∀ a : Fin 16, '/' ≠ Nat.digitChar a) a hc

theorem storageKey_toList : (storageKey projectId objectId).toList =
    ['/'].intercalate ["projects".toList, projectId.toList, "objects".toList,
      objectId.str.toList] := by
  have hprojects : "projects/".toList = "projects".toList ++ ['/'] := by decide
  have hobjects : "/objects/".toList = ['/'] ++ ("objects".toList ++ ['/']) := by decide
  unfold storageKey
  rw [String.toList_append, String.toList_append, String.toList_append, hprojects, hobjects]
  simp only [List.intercalate_cons_cons, List.intercalate_singleton, List.append_assoc]

theorem components_storageKey (h : matchesProjectId projectId = true) :
    components (storageKey projectId objectId) =
    ["projects".toList, projectId.toList, "objects".toList, objectId.str.toList] := by
  unfold components
  rw [storageKey_toList]
  refine List.splitOn_intercalate '/' ?_ (List.cons_ne_nil _ _)
  refine List.forall_mem_cons.mpr ⟨by decide, List.forall_mem_cons.mpr ⟨slash_not_mem h, ?_⟩⟩
  exact List.forall_mem_cons.mpr
    ⟨by decide, List.forall_mem_cons.mpr ⟨slash_not_mem_str, fun _ hpart => (nomatch hpart)⟩⟩

theorem projectId_ne_nil (h : matchesProjectId projectId = true) :
    projectId.toList ≠ [] ∧ projectId.toList ≠ ['.'] := by
  unfold matchesProjectId at h
  split at h
  · cases h
  · next first rest hlist =>
    rw [Bool.and_eq_true, Bool.and_eq_true] at h
    rw [hlist]
    refine ⟨List.cons_ne_nil _ _, fun hdot => ?_⟩
    rw [(List.cons.inj hdot).1] at h
    exact absurd h.1.1 (by decide)

theorem str_ne (objectId : UUID) : objectId.str.toList ≠ [] ∧ objectId.str.toList ≠ ['.'] := by
  refine ⟨fun hnil => ?_, fun hdot => ?_⟩
  · have hread : UUID.parse "" = some objectId := parse_of_lower hnil.symm
    cases hread
  · rcases UUID.mem_str (hdot ▸ List.mem_singleton_self '.') with hc | ⟨a, hc⟩
    · exact absurd hc (by decide)
    · exact (by decide : ∀ a : Fin 16, '.' ≠ Nat.digitChar a) a hc

/-- The components of a key are its parts. -/
theorem parts_storageKey (h : matchesProjectId projectId = true) :
    parts (storageKey projectId objectId) = components (storageKey projectId objectId) := by
  unfold parts
  rw [components_storageKey h]
  refine List.filter_eq_self.mpr fun part hpart => decide_eq_true ?_
  revert part
  refine List.forall_mem_cons.mpr ⟨by decide, List.forall_mem_cons.mpr ⟨projectId_ne_nil h, ?_⟩⟩
  exact List.forall_mem_cons.mpr
    ⟨by decide, List.forall_mem_cons.mpr ⟨str_ne objectId, fun _ hpart => (nomatch hpart)⟩⟩

theorem lower_str (objectId : UUID) : lower objectId.str.toList = objectId.str.toList := by
  refine (List.map_congr_left fun c hc => ?_).trans (List.map_id _)
  refine toLower_eq_self.mpr ?_
  rcases UUID.mem_str hc with rfl | ⟨a, rfl⟩
  · decide
  · exact (by decide : ∀ a : Fin 16, (Nat.digitChar a).isUpper = false) a

/-- The key of an object is a path whose parts are those of it. -/
theorem spells_storageKey (h : matchesProjectId projectId = true) :
    Spells (storageKey projectId objectId) projectId objectId objectId.str.toList where
  plain := by
    have hplain (c : Char)
        (hplain : c ∉ projectId.toList ∧ c ∉ objectId.str.toList ∧ c ∉ "projects/".toList ∧
          c ∉ "/objects/".toList) :
        c ∉ (storageKey projectId objectId).toList := by
      unfold storageKey
      simp only [String.toList_append, List.mem_append, not_or]
      exact ⟨⟨⟨hplain.2.2.1, hplain.1⟩, hplain.2.2.2⟩, hplain.2.1⟩
    have hproject (c : Char) (hc : isAlnum c = false ∧ c ≠ '.' ∧ c ≠ '_' ∧ c ≠ '-') : c ∉
        projectId.toList := by
      intro hmem
      rcases not_mem_projectId h hmem with h' | h' | h' | h'
      · rw [hc.1] at h'
        cases h'
      · exact hc.2.1 h'
      · exact hc.2.2.1 h'
      · exact hc.2.2.2 h'
    have hobject (c : Char) (hc : c ≠ '-' ∧ ∀ a : Fin 16, c ≠ Nat.digitChar a) : c ∉
        objectId.str.toList := by
      intro hmem
      rcases UUID.mem_str hmem with h' | ⟨a, h'⟩
      · exact hc.1 h'
      · exact hc.2 a h'
    exact ⟨hplain _ ⟨hproject _ (by decide), hobject _ (by decide), by decide, by decide⟩,
      hplain _ ⟨hproject _ (by decide), hobject _ (by decide), by decide, by decide⟩⟩
  relative := by
    unfold isAbsolute
    rw [storageKey_toList]
    rfl
  parts := by rw [parts_storageKey h, components_storageKey h]
  project := h
  object := lower_str objectId

/-- A path that is read as a key is the key itself if it has no empty component, no component `.`
and no capital letter in the UUID. -/
theorem Spells.eq_storageKey (h : Spells key projectId objectId text) (hempty : [] ∉ components key)
    (hdot : ['.'] ∉ components key) (hupper : ∀ c ∈ text, c.isUpper = false) :
    key = storageKey projectId objectId := by
  have hparts : ObjectStore.parts key = components key := by
    refine List.filter_eq_self.mpr fun part hpart => decide_eq_true ⟨?_, ?_⟩
    · exact fun heq => hempty (heq ▸ hpart)
    · exact fun heq => hdot (heq ▸ hpart)
  have htext : text = objectId.str.toList := by
    rw [← h.object]
    exact ((List.map_congr_left fun c hc => toLower_eq_self.mpr (hupper c hc)).trans
      (List.map_id _)).symm
  refine String.toList_inj.mp ?_
  calc key.toList = ['/'].intercalate (components key) := (List.intercalate_splitOn '/').symm
    _ = ['/'].intercalate ["projects".toList, projectId.toList, "objects".toList,
      objectId.str.toList] := by
        rw [← hparts, h.parts, htext]
    _ = (storageKey projectId objectId).toList := storageKey_toList.symm

/-- The parts of a key are read in one way. -/
theorem Spells.unique {projectId' : String} {objectId' : UUID} {text' : List Char}
    (h : Spells key projectId objectId text) (h' : Spells key projectId' objectId' text') :
    projectId = projectId' ∧ objectId = objectId' ∧ text = text' := by
  have hparts := h.parts.symm.trans h'.parts
  simp only [List.cons.injEq, true_and, and_true] at hparts
  obtain ⟨hproject, rfl⟩ := hparts
  exact ⟨String.toList_inj.mp hproject,
    UUID.str_inj (String.toList_inj.mp (h.object.symm.trans h'.object)), rfl⟩

theorem storageKey_not_respelled (h : matchesProjectId projectId = true) :
    ¬ Respelled (storageKey projectId objectId) := by
  rintro ⟨projectId', objectId', text, hspells, hother⟩
  obtain ⟨rfl, rfl, rfl⟩ := (spells_storageKey h).unique hspells
  have hkept : ∀ part ∈ components (storageKey projectId objectId), part ≠ [] ∧ part ≠ ['.'] := by
    rw [← parts_storageKey h]
    exact fun part hpart => of_decide_eq_true (List.mem_filter.mp hpart).2
  rcases hother with hempty | hdot | ⟨c, hc, hupper⟩
  · exact (hkept _ hempty).1 rfl
  · exact (hkept _ hdot).2 rfl
  · have hlower := toLower_eq_self.mp
      (List.map_inj_left.mp ((lower_str objectId).trans (List.map_id _).symm) c hc)
    rw [hupper] at hlower
    cases hlower

/-- **A key is read as what it is the key of, exactly if it is not another spelling**. -/
theorem exact_iff (key : String) : Exact key ↔ ¬ Respelled key := by
  constructor
  · rintro hexact ⟨projectId, objectId, text, hspells, hother⟩
    obtain ⟨hmatches, rfl⟩ :=
      (hexact projectId objectId).mp (parseStorageKey_eq_ok.mpr ⟨text, hspells⟩)
    exact storageKey_not_respelled hmatches ⟨projectId, objectId, text, hspells, hother⟩
  · intro hnot projectId objectId
    rw [parseStorageKey_eq_ok]
    constructor
    · rintro ⟨text, hspells⟩
      refine ⟨hspells.project, hspells.eq_storageKey ?_ ?_ ?_⟩
      · exact fun hempty => hnot ⟨projectId, objectId, text, hspells, .inl hempty⟩
      · exact fun hdot => hnot ⟨projectId, objectId, text, hspells, .inr (.inl hdot)⟩
      · intro c hc
        rw [← Bool.not_eq_true]
        exact fun hupper => hnot ⟨projectId, objectId, text, hspells, .inr (.inr ⟨c, hc, hupper⟩)⟩
    · rintro ⟨hmatches, rfl⟩
      exact ⟨_, spells_storageKey hmatches⟩

end ProjectAgent.ObjectStore
