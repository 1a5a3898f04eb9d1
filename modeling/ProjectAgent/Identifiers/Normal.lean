/-
The normal forms of what the extractor emits. Each is its own normal form, but
for that of an API path: where a slash was cut off its end, punctuation is
left, which is stripped the next time.
-/
import ProjectAgent.Identifiers.Shapes
import Mathlib.Data.List.Chain
import Mathlib.Data.List.DropRight

namespace ProjectAgent.Identifiers

open Matching (Pattern Regex Word)

variable {py : Python} {cs rest raw : List Char} {c : Char} {drop : Char → Bool}

/-! ## Stripping -/

theorem rdropWhile_append_ne {l m : List Char} (h : m.rdropWhile drop ≠ []) :
    (l ++ m).rdropWhile drop = l ++ m.rdropWhile drop := by
  unfold List.rdropWhile at *
  rw [List.reverse_append, List.dropWhile_append]
  split
  · next hempty => exact absurd (by rw [List.isEmpty_iff.mp hempty]; rfl) h
  · rw [List.reverse_append, List.reverse_reverse]

theorem rdropWhile_cons (hc : drop c = false) :
    (c :: rest).rdropWhile drop = c :: rest.rdropWhile drop := by
  by_cases h : rest.rdropWhile drop = []
  · rw [h]
    have hall := List.rdropWhile_eq_nil_iff.mp h
    unfold List.rdropWhile
    rw [List.reverse_cons, List.dropWhile_append_of_pos fun d hd => hall d (List.mem_reverse.mp hd)]
    simp [hc]
  · exact rdropWhile_append_ne (l := [c]) h

theorem mem_rdropWhile (h : c ∈ cs.rdropWhile drop) : c ∈ cs :=
  (List.rdropWhile_prefix drop cs).subset h

theorem stripChars_cons (hc : drop c = false) :
    stripChars drop (c :: rest) = c :: rest.rdropWhile drop := by
  unfold stripChars
  rw [List.dropWhile_cons_of_neg (by rw [hc]; exact Bool.false_ne_true)]
  exact rdropWhile_cons hc

/-- The last that is left is not to be stripped. -/
theorem stripChars_last {d : Char} (h : stripChars drop cs = rest ++ [d]) : drop d = false := by
  have hlast := @List.rdropWhile_last_not _ drop (cs.dropWhile drop)
  have heq : (cs.dropWhile drop).rdropWhile drop = rest ++ [d] := h
  simp only [heq, List.getLast_append_of_ne_nil _ (List.cons_ne_nil d []),
    List.getLast_singleton] at hlast
  exact Bool.not_eq_true _ ▸ hlast (List.append_ne_nil_of_right_ne_nil _ (List.cons_ne_nil d []))

/-- It begins and ends in characters that are kept. -/
structure Clean (cs : List Char) : Prop where
  begins : ∃ c rest, cs = c :: rest ∧ keptChar c = true
  ends : ∃ rest c, cs = rest ++ [c] ∧ keptChar c = true

theorem Clean.stripped (h : Clean cs) (hdrop : ∀ c, keptChar c = true → drop c = false) :
    stripChars drop cs = cs := by
  obtain ⟨c, rest, rfl, hc⟩ := h.begins
  obtain ⟨init, d, hends, hd⟩ := h.ends
  rw [stripChars_cons (hdrop c hc), ← rdropWhile_cons (hdrop c hc), hends]
  exact List.rdropWhile_concat_neg drop init d (by rw [hdrop d hd]; exact Bool.false_ne_true)

theorem Clean.of_all (hne : cs ≠ []) (hall : ∀ c ∈ cs, keptChar c = true) : Clean cs where
  begins := by
    obtain ⟨c, rest, rfl⟩ := List.exists_cons_of_ne_nil hne
    exact ⟨c, rest, rfl, hall c List.mem_cons_self⟩
  ends := by
    obtain ⟨rest, c, rfl⟩ := (List.eq_nil_or_concat' cs).resolve_left hne
    exact ⟨rest, c, rfl, hall c (List.mem_append_right _ List.mem_cons_self)⟩

theorem not_punctuation_of_kept (h : keptChar c = true) : decide (c ∈ punctuation) = false := by
  unfold keptChar at h
  rw [Bool.and_eq_true, decide_eq_true_iff] at h
  exact decide_eq_false h.2

/-- A raw value without what is stripped. -/
def bareValue (cs : List Char) : List Char := stripChars (· ∈ punctuation) (stripChars isSpace cs)

theorem strip_ofList (cs : List Char) :
    (strip (String.ofList cs)).toList = stripChars isSpace cs := by
  unfold strip
  rw [String.toList_ofList, String.toList_ofList]
  rfl

theorem Clean.bareValue (h : Clean cs) : bareValue cs = cs := by
  unfold Identifiers.bareValue
  rw [h.stripped fun _ => not_space_of_kept, h.stripped fun _ => not_punctuation_of_kept]

/-! ## Words -/

/-- What is emitted has a normal form, and that is its own. -/
def Settles (py : Python) (identifierType : IdentifierType) (raw : List Char) : Prop :=
  ∃ normalized, normalizeIdentifier py identifierType (String.ofList raw) = .ok normalized ∧
    normalizeIdentifier py identifierType normalized = .ok normalized

def upperTypes : List IdentifierType := [.PROJECT_CODE, .REQUIREMENT_ID, .ISSUE_KEY, .ERROR_CODE]

theorem normalize_upper {identifierType : IdentifierType} (htype : identifierType ∈ upperTypes)
    (h : Clean cs) :
    normalizeIdentifier py identifierType (String.ofList cs) =
      .ok (py.upper (String.ofList cs)) := by
  obtain ⟨c, rest, hcs, -⟩ := h.begins
  have hvalue : stripChars (· ∈ punctuation) (strip (String.ofList cs)).toList = cs := by
    rw [strip_ofList]
    exact h.bareValue
  unfold normalizeIdentifier
  simp only [hvalue]
  rw [if_neg (by rw [hcs]; exact List.cons_ne_nil _ _)]
  simp only [upperTypes, List.mem_cons, List.not_mem_nil, or_false] at htype
  rcases htype with rfl | rfl | rfl | rfl <;> rfl

/-- What `upper` maps is upper afterwards, and no more to be stripped than before. -/
theorem upperChar_plain (h : plainChar c = true) :
    upperChar (upperChar c) = upperChar c ∧ plainChar (upperChar c) = true ∧
      (keptChar c = true → keptChar (upperChar c) = true) :=
  plain_cases (P := fun c => upperChar (upperChar c) = upperChar c ∧
    plainChar (upperChar c) = true ∧
    (keptChar c = true → keptChar (upperChar c) = true)) (by decide +kernel) h

theorem settles_upper {identifierType : IdentifierType} (htype : identifierType ∈ upperTypes)
    (h : Clean raw) (hchars : ∀ c ∈ raw, plainChar c = true ∨ py.isDigit c = true) :
    Settles py identifierType raw := by
  have hkept {c : Char} (hc : plainChar c = true ∨ py.isDigit c = true)
    (hkept : keptChar c = true) :
      keptChar (upperChar c) = true := by
    rcases hc with hc | hc
    · exact (upperChar_plain hc).2.2 hkept
    · rwa [(py.isDigit_kept c hc).2.2.2]
  have hmapped : Clean (raw.map upperChar) := by
    obtain ⟨c, rest, hraw, hc⟩ := h.begins
    obtain ⟨init, d, hraw', hd⟩ := h.ends
    constructor
    · refine ⟨upperChar c, rest.map upperChar, by rw [hraw]; rfl, hkept (hchars c ?_) hc⟩
      rw [hraw]
      exact List.mem_cons_self
    · refine ⟨init.map upperChar,
        upperChar d, by rw [hraw', List.map_append]; rfl, hkept (hchars d ?_) hd⟩
      rw [hraw']
      exact List.mem_append_right _ List.mem_cons_self
  have hagain : ∀ c ∈ raw.map upperChar, (plainChar c = true ∨ py.isDigit c = true) ∧
      upperChar c = c := by
    intro c hc
    obtain ⟨d, hd, rfl⟩ := List.mem_map.mp hc
    rcases hchars d hd with hd | hd
    · exact ⟨.inl (upperChar_plain hd).2.1, (upperChar_plain hd).1⟩
    · have heq := (py.isDigit_kept d hd).2.2.2
      rw [heq]
      exact ⟨.inr hd, heq⟩
  refine ⟨String.ofList (raw.map upperChar), ?_, ?_⟩
  · rw [normalize_upper htype h, py.upper_plain raw hchars]
  · rw [normalize_upper htype hmapped, py.upper_plain _ fun c hc => (hagain c hc).1,
      List.map_congr_left fun c hc => (hagain c hc).2, List.map_id']

/-! ## Names -/

/-- What `lower` maps a character of a name to. -/
def LoweredChar (c : Char) : Prop :=
  keptChar c = true ∧ c ≠ '.' ∧ c ≠ '\x60' ∧ c ≠ '\x22' ∧ lowerChar c = [c] ∧
    (plainChar c = true ∨ c = '\u0307')

instance : DecidablePred LoweredChar := fun _ => inferInstanceAs (Decidable (_ ∧ _))

theorem lowerChar_name (h : isNameChar c = true) :
    lowerChar c ≠ [] ∧ ∀ d ∈ lowerChar c, LoweredChar d :=
  plain_cases (P := fun c => isNameChar c = true → lowerChar c ≠ [] ∧
    ∀ d ∈ lowerChar c, LoweredChar d) (by decide +kernel)
    (nameChar_plain h) h

theorem normalize_name {identifierType : IdentifierType}
    (htype : identifierType = .DB_TABLE ∨ identifierType = .DB_COLUMN) (hne : bareValue cs ≠ [])
    (hmarks : ∀ c ∈ bareValue cs, isSpace c = false ∧ c ≠ '\x60' ∧ c ≠ '\x22') :
    normalizeIdentifier py identifierType (String.ofList cs) =
      .ok (py.lower (String.ofList (afterLastDot (bareValue cs)))) := by
  have hvalue : stripChars (· ∈ punctuation) (strip (String.ofList cs)).toList = bareValue cs := by
    rw [strip_ofList]
    rfl
  have hfilter : (bareValue cs).filter (fun c => c != '\x60' && c != '\x22') = bareValue cs := by
    refine List.filter_eq_self.mpr fun c hc => ?_
    rw [Bool.and_eq_true, bne_iff_ne, bne_iff_ne]
    exact (hmarks c hc).2
  unfold normalizeIdentifier
  simp only [hvalue]
  rw [if_neg hne]
  have hcleaned : stripChars isSpace ((bareValue cs).filter fun c => c != '\x60' && c != '\x22') =
      bareValue cs := by
    rw [hfilter]
    exact stripChars_none fun c hc => (hmarks c hc).1
  rcases htype with rfl | rfl
  · simp only [hcleaned]
  · simp only [hcleaned]

theorem mem_afterLastDot (h : c ∈ afterLastDot cs) : c ∈ cs ∧ c ≠ '.' := by
  unfold afterLastDot at h
  rw [List.mem_reverse] at h
  have hdot := List.mem_takeWhile_imp h
  exact ⟨List.mem_reverse.mp ((List.takeWhile_sublist _).subset h), bne_iff_ne.mp hdot⟩

/-- A name that was lowered is its own normal form. -/
theorem normalize_lowered {identifierType : IdentifierType}
    (htype : identifierType = .DB_TABLE ∨ identifierType = .DB_COLUMN) (hne : cs ≠ [])
    (hcs : ∀ c ∈ cs, LoweredChar c) :
    normalizeIdentifier py identifierType (String.ofList cs) = .ok (String.ofList cs) := by
  have hbare : bareValue cs = cs := (Clean.of_all hne fun c hc => (hcs c hc).1).bareValue
  have hname := @normalize_name py cs identifierType htype
  rw [hbare] at hname
  have hdots : afterLastDot cs = cs := by
    unfold afterLastDot
    rw [List.takeWhile_eq_self_iff.mpr fun c hc =>
      bne_iff_ne.mpr (hcs c (List.mem_reverse.mp hc)).2.1, List.reverse_reverse]
  have hlower : cs.flatMap lowerChar = cs := by
    rw [List.flatMap_congr fun c hc => (hcs c hc).2.2.2.2.1]
    exact List.flatMap_singleton' cs
  rw [hname hne fun c hc => ⟨not_space_of_kept (hcs c hc).1, (hcs c hc).2.2.1, (hcs c hc).2.2.2.1⟩,
    hdots,
    py.lower_plain cs fun c hc => (hcs c hc).2.2.2.2.2, hlower]

theorem settles_name {identifierType : IdentifierType}
    (htype : identifierType = .DB_TABLE ∨ identifierType = .DB_COLUMN)
    (hbegins : ∃ c rest, raw = c :: rest ∧ keptChar c = true)
    (hchars : ∀ c ∈ raw, isNameChar c = true ∨ c = '.') :
    Settles py identifierType raw := by
  obtain ⟨c, rest, hraw, hc⟩ := hbegins
  have hspace : ∀ c ∈ raw, isSpace c = false := fun c hc =>
    (hchars c hc).elim (fun h => not_space_of_kept (nameChar_kept h)) fun h => h ▸ by decide
  have hbare : bareValue raw = stripChars (· ∈ punctuation) raw := by
    unfold bareValue
    rw [stripChars_none hspace]
  have hcons : bareValue raw = c :: rest.rdropWhile (· ∈ punctuation) := by
    rw [hbare, hraw]
    exact stripChars_cons (not_punctuation_of_kept hc)
  have hmem : ∀ d ∈ bareValue raw, d ∈ raw := by
    intro d hd
    rw [hcons, ← rdropWhile_cons (not_punctuation_of_kept hc), ← hraw] at hd
    exact mem_rdropWhile hd
  have hne : bareValue raw ≠ [] := hcons ▸ List.cons_ne_nil _ _
  have hmarks : ∀ d ∈ bareValue raw, isSpace d = false ∧ d ≠ '\x60' ∧ d ≠ '\x22' := by
    intro d hd
    refine ⟨hspace d (hmem d hd), ?_⟩
    have hnot : isNameChar '\x60' = false ∧ isNameChar '\x22' = false := by decide
    rcases hchars d (hmem d hd) with hname | rfl
    · constructor
      · rintro rfl
        exact Bool.false_ne_true (hnot.1.symm.trans hname)
      · rintro rfl
        exact Bool.false_ne_true (hnot.2.symm.trans hname)
    · decide
  have hname : ∀ d ∈ afterLastDot (bareValue raw), isNameChar d = true := fun d hd =>
    (hchars d (hmem d (mem_afterLastDot hd).1)).resolve_right (mem_afterLastDot hd).2
  -- the last character is none that is stripped, so that the name after the last dot is not empty
  have hlast : afterLastDot (bareValue raw) ≠ [] := by
    obtain ⟨init, d, hends⟩ := (List.eq_nil_or_concat' (bareValue raw)).resolve_left hne
    have hd : d ≠ '.' := by
      have hkept := stripChars_last (hbare ▸ hends)
      rintro rfl
      exact absurd hkept (by decide)
    unfold afterLastDot
    rw [hends, List.reverse_append, List.reverse_singleton, List.singleton_append,
      List.takeWhile_cons_of_pos (p := (· != '.')) (bne_iff_ne.mpr hd)]
    exact List.reverse_ne_nil_iff.mpr (List.cons_ne_nil _ _)
  have hlowered : ∀ d ∈ (afterLastDot (bareValue raw)).flatMap lowerChar, LoweredChar d := by
    intro d hd
    obtain ⟨e, he, hd⟩ := List.mem_flatMap.mp hd
    exact (lowerChar_name (hname e he)).2 d hd
  have hlowerNe : (afterLastDot (bareValue raw)).flatMap lowerChar ≠ [] := by
    obtain ⟨e, name, heq⟩ := List.exists_cons_of_ne_nil hlast
    rw [heq, List.flatMap_cons]
    exact List.append_ne_nil_of_left_ne_nil
      (lowerChar_name (hname e (heq ▸ List.mem_cons_self))).1 _
  refine ⟨String.ofList ((afterLastDot (bareValue raw)).flatMap lowerChar), ?_, ?_⟩
  · rw [normalize_name htype hne hmarks, py.lower_plain _ fun d hd =>
      .inl (nameChar_plain (hname d hd))]
  · exact normalize_lowered htype hlowerNe hlowered

/-! ## Versions -/

def Digits (py : Python) (part : List Char) : Prop := part ≠ [] ∧ ∀ c ∈ part, py.isDigit c = true

/-- From two to four numbers with dots between them. -/
structure Numbered (py : Python) (number : List Char) : Prop where
  parts : ∃ part parts, number = ['.'].intercalate (part :: parts) ∧ 1 ≤ parts.length ∧
    parts.length ≤ 3 ∧
    ∀ p ∈ part :: parts, Digits py p

variable {number : List Char}

theorem Numbered.isVersionNumber (h : Numbered py number) : isVersionNumber py number = true := by
  obtain ⟨part, parts, rfl, hlow, hhigh, hparts⟩ := h.parts
  have hsplit : (['.'].intercalate (part :: parts)).splitOn '.' = part :: parts :=
    List.splitOn_intercalate '.' (fun p hp hdot =>
      (py.isDigit_kept '.' ((hparts p hp).2 '.' hdot)).2.1 rfl) (List.cons_ne_nil _ _)
  unfold Identifiers.isVersionNumber
  simp only [hsplit, List.length_cons, Bool.and_eq_true, decide_eq_true_iff, List.all_eq_true]
  exact ⟨⟨by omega, by omega⟩, hparts⟩

theorem Numbered.head (h : Numbered py number) :
    ∃ c rest, number = c :: rest ∧ py.isDigit c = true := by
  obtain ⟨part, parts, rfl, hlow, -, hparts⟩ := h.parts
  obtain ⟨hne, hdigits⟩ := hparts part List.mem_cons_self
  obtain ⟨c, part, rfl⟩ := List.exists_cons_of_ne_nil hne
  cases parts with
  | nil => exact absurd hlow (by decide)
  | cons q parts =>
    exact ⟨c, _, by rw [List.intercalate_cons_cons]; rfl, hdigits c List.mem_cons_self⟩

theorem Numbered.versionNumber (h : Numbered py number) (hv : c = 'v' ∨ c = 'V') :
    versionNumber py (c :: number) = some number := by
  have hdrop : number.dropWhile isSpace = number := by
    obtain ⟨d, rest, rfl, hd⟩ := h.head
    refine List.dropWhile_cons_of_neg ?_
    rw [not_space_of_kept (py.isDigit_kept d hd).1]
    exact Bool.false_ne_true
  rcases hv with rfl | rfl
  · simp only [Identifiers.versionNumber, hdrop, h.isVersionNumber, if_true]
  · simp only [Identifiers.versionNumber, hdrop, h.isVersionNumber, if_true]

theorem normalize_version (h : Numbered py number) (hv : c = 'v' ∨ c = 'V')
    (hclean : Clean (c :: number)) :
    normalizeIdentifier py .VERSION (String.ofList (c :: number)) =
      .ok (String.ofList ('v' :: number)) := by
  have hvalue : stripChars (· ∈ punctuation) (strip (String.ofList (c :: number))).toList =
      c :: number := by
    rw [strip_ofList]
    exact hclean.bareValue
  unfold normalizeIdentifier
  simp only [hvalue]
  rw [if_neg (List.cons_ne_nil _ _), h.versionNumber hv]

theorem settles_version (h : Numbered py number) (hv : c = 'v' ∨ c = 'V')
    (hclean : Clean (c :: number)) :
    Settles py .VERSION (c :: number) := by
  refine ⟨_, normalize_version h hv hclean,
    normalize_version h (.inl rfl) ⟨⟨'v', number, rfl, by decide⟩, ?_⟩⟩
  obtain ⟨init, d, hends, hd⟩ := hclean.ends
  cases init with
  | nil =>
    obtain ⟨e, rest, hnumber, -⟩ := h.head
    rw [hnumber] at hends
    cases hends
  | cons e init =>
    obtain ⟨-, hnumber⟩ := List.cons.inj hends
    exact ⟨'v' :: init, d, by rw [hnumber]; rfl, hd⟩

theorem intercalate_dots {part : List Char} {parts : List (List Char)} :
    ['.'].intercalate (part :: parts) = part ++ (parts.map ('.' :: ·)).flatten := by
  induction parts generalizing part with
  | nil => simp
  | cons q parts ih => rw [List.intercalate_cons_cons, ih]; simp

theorem word_digits {w : List Char} (h : Word (digits py) w) : Digits py w := by
  have hconsists := h.consists (P := fun c => py.isDigit c = true) (by simp [Regex.Only])
  have hbegins : (digits py).Begins (fun _ => True) false := by simp
  rcases h.begins hbegins with ⟨-, hno⟩ | ⟨c, rest, rfl, -⟩
  · cases hno
  · exact ⟨List.cons_ne_nil _ _, hconsists⟩

theorem words_dotDigits {words : List (List Char)} (h : ∀ w ∈ words, Word (dotDigits py) w) :
    ∃ parts : List (List Char), words = parts.map ('.' :: ·) ∧ ∀ p ∈ parts, Digits py p := by
  induction words with
  | nil => exact ⟨[], rfl, fun _ h => nomatch h⟩
  | cons w words ih =>
    obtain ⟨parts, rfl, hparts⟩ := ih fun v hv => h v (List.mem_cons_of_mem _ hv)
    obtain ⟨dot, hdot, part, hpart, rfl⟩ := Matching.word_seq.mp (h w List.mem_cons_self)
    obtain ⟨d, rfl, hd⟩ := Matching.word_char.mp hdot
    obtain rfl := beq_iff_eq.mp hd
    exact ⟨part :: parts, rfl, List.forall_mem_cons.mpr ⟨word_digits hpart, hparts⟩⟩

theorem word_version (h : Word (versionRe py) raw) :
    ∃ c number, raw = c :: number ∧ (c = 'v' ∨ c = 'V') ∧ Numbered py number := by
  obtain ⟨b, hb, w₁, h₁, rfl⟩ := Matching.word_seq.mp h
  obtain ⟨m, hm, w₂, h₂, rfl⟩ := Matching.word_seq.mp h₁
  obtain ⟨part, hpart, w₃, h₃, rfl⟩ := Matching.word_seq.mp h₂
  obtain ⟨u, hu, b', hb', rfl⟩ := Matching.word_seq.mp h₃
  obtain rfl := Matching.word_look.mp hb
  obtain rfl := Matching.word_look.mp hb'
  obtain ⟨c, rfl, hc⟩ := Matching.word_char.mp hm
  obtain ⟨first, more, hlen, hall, rfl⟩ := Matching.word_upTo hu
  obtain ⟨parts, hparts, hdigits⟩ := words_dotDigits hall
  refine ⟨c, part ++ (first :: more).flatten, by simp, ?_, part, parts, ?_, ?_, ?_, ?_⟩
  · simpa using of_decide_eq_true hc
  · rw [intercalate_dots, hparts]
  · have hlen := congrArg List.length hparts
    rw [List.length_cons, List.length_map] at hlen
    omega
  · have hlen := congrArg List.length hparts
    rw [List.length_cons, List.length_map] at hlen
    omega
  · exact List.forall_mem_cons.mpr ⟨word_digits hpart, hdigits⟩

/-! ## API paths -/

/-- Characters of a path, the first two of which are those of `/api/`. -/
def PathLike (cs : List Char) : Prop :=
  ∃ rest, cs = '/' :: 'a' :: rest ∧ ∀ c ∈ rest, isPathChar c = true

/-- What an API path is normalized to. -/
def apiPath (cs : List Char) : List Char := rstrip '/' (squeeze (stripChars (· ∈ punctuation) cs))

theorem mem_squeeze (h : c ∈ squeeze cs) : c ∈ cs := by
  induction cs using squeeze.induct with
  | case1 rest ih =>
    rw [squeeze] at h
    exact List.mem_cons_of_mem _ (ih h)
  | case2 d rest hnot ih =>
    rw [squeeze] at h
    · exact (List.mem_cons.mp h).elim (fun h => h ▸ List.mem_cons_self) fun h =>
        List.mem_cons_of_mem _ (ih h)
    · exact hnot
  | case3 => cases h

theorem stripped_path :
    stripChars (· ∈ punctuation) ('/' :: 'a' :: rest) =
      '/' :: 'a' :: rest.rdropWhile (· ∈ punctuation) := by
  have hkept : decide ('/' ∈ punctuation) = false ∧ decide ('a' ∈ punctuation) = false := by decide
  rw [stripChars_cons hkept.1, rdropWhile_cons hkept.2]

theorem rstrip_path : rstrip '/' ('/' :: 'a' :: rest) = '/' :: 'a' :: rstrip '/' rest := by
  have ha : ('a' == '/') = false := by decide
  have htail : ('a' :: rest).rdropWhile (· == '/') = 'a' :: rest.rdropWhile (· == '/') :=
    rdropWhile_cons ha
  have happend := @rdropWhile_append_ne (· == '/') ['/'] ('a' :: rest)
    (htail ▸ List.cons_ne_nil _ _)
  rw [htail] at happend
  exact happend

theorem apiPath_cons : apiPath ('/' :: 'a' :: rest) =
    '/' :: 'a' :: rstrip '/' (squeeze (rest.rdropWhile (· ∈ punctuation))) := by
  unfold apiPath
  rw [stripped_path, squeeze, squeeze, rstrip_path]
  · rintro _ ⟨⟩
  · rintro _ - ⟨⟩

theorem PathLike.apiPath (h : PathLike cs) : PathLike (apiPath cs) := by
  obtain ⟨rest, rfl, hrest⟩ := h
  refine ⟨_, apiPath_cons, fun c hc => hrest c ?_⟩
  exact mem_rdropWhile (mem_squeeze (mem_rdropWhile hc))

theorem PathLike.all (h : PathLike cs) : ∀ c ∈ cs, isPathChar c = true := by
  obtain ⟨rest, rfl, hrest⟩ := h
  exact List.forall_mem_cons.mpr ⟨by decide, List.forall_mem_cons.mpr ⟨by decide, hrest⟩⟩

/-- `urlsplit` gives such a path back. -/
theorem PathLike.urlPath (h : PathLike cs) : urlPath py cs = .ok cs := by
  have hchars : ∀ c ∈ cs, c ≠ '\t' ∧ c ≠ '\r' ∧ c ≠ '\n' ∧ c ≠ '#' ∧ c ≠ '?' := fun c hc =>
    plain_cases (P := fun c => isPathChar c = true → c ≠ '\t' ∧ c ≠ '\r' ∧ c ≠ '\n' ∧ c ≠ '#' ∧
      c ≠ '?') (by decide +kernel)
      (pathChar_plain (h.all c hc)) (h.all c hc)
  have hfilter : cs.filter (fun c => c != '\t' && c != '\r' && c != '\n') = cs := by
    refine List.filter_eq_self.mpr fun c hc => ?_
    obtain ⟨h1, h2, h3, -⟩ := hchars c hc
    rw [Bool.and_eq_true, Bool.and_eq_true, bne_iff_ne, bne_iff_ne, bne_iff_ne]
    exact ⟨⟨h1, h2⟩, h3⟩
  have huntil {d : Char} (hd : ∀ c ∈ cs, c ≠ d) : until_ d cs = cs :=
    List.takeWhile_eq_self_iff.mpr fun c hc => bne_iff_ne.mpr (hd c hc)
  obtain ⟨rest, rfl, -⟩ := h
  have hscheme : withoutScheme ('/' :: 'a' :: rest) = '/' :: 'a' :: rest := by
    have hhead : (until_ ':' ('/' :: 'a' :: rest)).head?.any isAsciiLetter = false := rfl
    unfold withoutScheme
    simp only [hhead, Bool.and_false, Bool.false_and, Bool.false_eq_true, if_false]
  have hfront : ('/' :: 'a' :: rest).dropWhile (fun c => c.toNat ≤ 32) = '/' :: 'a' :: rest := rfl
  unfold Identifiers.urlPath
  simp only [hfront, hfilter, hscheme]
  rw [if_neg (by simp), huntil fun c hc => (hchars c hc).2.2.2.1, huntil fun c hc =>
    (hchars c hc).2.2.2.2]

theorem PathLike.normalizeApiPath {value : List Char} (h : PathLike value)
    (hpath : PathLike (rstrip '/' (squeeze value))) :
    normalizeApiPath py value = .ok (rstrip '/' (squeeze value)) := by
  have hurl := @PathLike.urlPath py value h
  obtain ⟨rest, rfl, -⟩ := h
  have hlen : 1 < (squeeze ('/' :: 'a' :: rest)).length := by
    rw [squeeze, squeeze]
    · exact Nat.succ_lt_succ (Nat.succ_pos _)
    · rintro _ ⟨⟩
    · rintro _ - ⟨⟩
  have hhead : (rstrip '/' (squeeze ('/' :: 'a' :: rest))).head? = some '/' := by
    obtain ⟨tail, heq, -⟩ := hpath
    rw [heq]
    rfl
  unfold Identifiers.normalizeApiPath
  have hdrive : (('/' :: 'a' :: rest).head?.any isAsciiLetter && ('/' :: 'a' :: rest)[1]? ==
      some ':') = false := rfl
  rw [hdrive, if_neg Bool.false_ne_true, hurl]
  show Except.ok _ = _
  rw [if_neg (List.cons_ne_nil _ _), if_pos hlen, if_pos hhead]

theorem normalize_path (h : PathLike cs) :
    normalizeIdentifier py .API_PATH (String.ofList cs) = .ok (String.ofList (apiPath cs)) := by
  have hspace : stripChars isSpace cs = cs :=
    stripChars_none fun c hc => pathChar_not_space (h.all c hc)
  have hvalue : stripChars (· ∈ punctuation) (strip (String.ofList cs)).toList =
      stripChars (· ∈ punctuation) cs := by
    rw [strip_ofList, hspace]
  have hlike : PathLike (stripChars (· ∈ punctuation) cs) := by
    obtain ⟨rest, rfl, hrest⟩ := h
    exact ⟨_, stripped_path, fun c hc => hrest c (mem_rdropWhile hc)⟩
  have hne : stripChars (· ∈ punctuation) cs ≠ [] := by
    obtain ⟨rest, heq, -⟩ := hlike
    rw [heq]
    exact List.cons_ne_nil _ _
  unfold normalizeIdentifier
  simp only [hvalue]
  rw [if_neg hne, hlike.normalizeApiPath h.apiPath]
  rfl

/-! ### Paths that are normalized again -/

/-- No two slashes, one after the other. -/
def Single (cs : List Char) : Prop := cs.IsChain fun c d => ¬ (c = '/' ∧ d = '/')

theorem squeeze_head : (squeeze cs).head? = cs.head? := by
  induction cs using squeeze.induct with
  | case1 rest ih => rw [squeeze, ih]; rfl
  | case2 d rest hnot _ =>
    rw [squeeze]
    · rfl
    · exact hnot
  | case3 => rw [squeeze]

theorem squeeze_single : Single (squeeze cs) := by
  induction cs using squeeze.induct with
  | case1 rest ih => rwa [squeeze]
  | case2 d rest hnot ih =>
    rw [squeeze]
    · refine List.isChain_cons.mpr ⟨?_, ih⟩
      rintro e he ⟨rfl, rfl⟩
      rw [squeeze_head] at he
      obtain ⟨tail, rfl⟩ := List.head?_eq_some_iff.mp he
      exact hnot tail rfl rfl
    · exact hnot
  | case3 =>
    rw [squeeze]
    exact .nil

theorem Single.squeeze (h : Single cs) : squeeze cs = cs := by
  induction cs using squeeze.induct with
  | case1 rest ih => exact absurd ⟨rfl, rfl⟩ ((List.isChain_cons.mp h).1 '/' rfl)
  | case2 d rest hnot ih =>
    rw [Identifiers.squeeze, ih (List.isChain_cons.mp h).2]
    exact hnot
  | case3 => rw [Identifiers.squeeze]

/-- It does not end in what is stripped. -/
def EndsPlain (cs : List Char) : Prop := ∀ c ∈ cs.getLast?, c ∉ punctuation

theorem apiPath_again (h : PathLike cs) (hends : EndsPlain (apiPath cs)) :
    apiPath (apiPath cs) = apiPath cs := by
  have hstripped : stripChars (· ∈ punctuation) (apiPath cs) = apiPath cs := by
    obtain ⟨rest, heq, -⟩ := h.apiPath
    have hslash : decide ('/' ∈ punctuation) = false := by decide
    have hcons := @stripChars_cons ('a' :: rest) '/' (· ∈ punctuation) hslash
    rw [heq] at hends ⊢
    rw [hcons, ← rdropWhile_cons hslash]
    refine List.rdropWhile_eq_self_iff.mpr fun hne => ?_
    rw [decide_eq_true_iff]
    exact hends _ (List.getLast?_eq_some_getLast hne)
  have hsingle : Single (apiPath cs) := squeeze_single.prefix (List.rdropWhile_prefix _ _)
  have hslashes : rstrip '/' (apiPath cs) = apiPath cs := List.rdropWhile_idempotent _ _
  calc
    apiPath (apiPath cs) = rstrip '/' (squeeze (stripChars (· ∈ punctuation) (apiPath cs))) := rfl
    _ = apiPath cs := by rw [hstripped, hsingle.squeeze, hslashes]

theorem squeeze_length : (squeeze cs).length ≤ cs.length := by
  induction cs using squeeze.induct with
  | case1 rest ih =>
    rw [squeeze]
    exact Nat.le_succ_of_le ih
  | case2 d rest hnot ih =>
    rw [squeeze]
    · exact Nat.succ_le_succ ih
    · exact hnot
  | case3 =>
    rw [squeeze]

/-- Only such a path is its own normal form. -/
theorem endsPlain_of_again (h : PathLike cs) (hagain : apiPath cs = cs) : EndsPlain cs := by
  obtain ⟨rest, rfl, -⟩ := h
  rintro c hc hpunctuation
  obtain ⟨init, hinit⟩ := List.getLast?_eq_some_iff.mp hc
  have hslash : decide ('/' ∈ punctuation) = false := by decide
  have hshorter : (stripChars (· ∈ punctuation) ('/' :: 'a' :: rest)).length ≤ init.length := by
    have hdrop := List.rdropWhile_concat_pos (· ∈ punctuation) init c (decide_eq_true hpunctuation)
    rw [stripChars_cons hslash, ← rdropWhile_cons hslash, hinit, hdrop]
    exact (List.rdropWhile_prefix _ _).length_le
  have hlength : (apiPath ('/' :: 'a' :: rest)).length ≤ init.length :=
    ((List.rdropWhile_prefix _ _).length_le.trans squeeze_length).trans hshorter
  rw [hagain, hinit, List.length_append, List.length_singleton] at hlength
  exact absurd hlength (Nat.not_succ_le_self _)

/-! ## What is emitted -/

theorem word_clean {r : Regex Char} (h : Word r raw) (hbegins : r.Begins (keptChar · = true) false)
    (hends : r.Ends (keptChar · = true) false) : Clean raw where
  begins := (h.begins hbegins).resolve_left fun hno => Bool.false_ne_true hno.2
  ends := (h.ends hends).resolve_left fun hno => Bool.false_ne_true hno.2

theorem letter_name {c : Char} (h : isAsciiLetter c = true) : isNameChar c = true :=
  plain_cases (P := fun c => isAsciiLetter c = true → isNameChar c = true) (by decide +kernel)
    (letter_plain h) h

theorem fold_name {l : Char} (hl : isNameChar l = true) : ∀ c, fold c = l → isNameChar c = true :=
  fun _ hfold =>
  fold_cases (P := fun c => isNameChar c = true) (by decide) letter_name fun hself =>
    (hself.symm.trans hfold) ▸ hl

/-- A name, with dots perhaps. -/
theorem settles_word {identifierType : IdentifierType} {r : Regex Char} (h : Word r raw)
    (htype : identifierType = .DB_TABLE ∨ identifierType = .DB_COLUMN)
    (hbegins : r.Begins (keptChar · = true) false)
    (hconsists : r.Consists fun c => isNameChar c = true ∨ c = '.') :
    Settles py identifierType raw :=
  settles_name htype ((h.begins hbegins).resolve_left fun hno => Bool.false_ne_true hno.2)
    (h.consists hconsists)

theorem settles_patterns {entry : IdentifierType × Pattern Char} (hentry : entry ∈ patterns py)
    (htype : entry.1 ≠ .API_PATH) (h : Word entry.2.group raw) : Settles py entry.1 raw := by
  have hplain {l : Char} (hl : plainChar l = true) :
      Regex.Only (fun c => fold c == l) fun c => plainChar c = true ∨ py.isDigit c = true :=
        fun c hc =>
    .inl (fold_plain (beq_iff_eq.mp hc ▸ hl))
  have hletter : Regex.Only isLetter fun c => plainChar c = true ∨ py.isDigit c = true :=
    fun c hc =>
    .inl (nameChar_plain (alnum_nameChar (letter_alnum hc)))
  have halnum : Regex.Only isAlnum fun c => plainChar c = true ∨ py.isDigit c = true := fun c hc =>
    .inl (nameChar_plain (alnum_nameChar hc))
  have hdigit : Regex.Only py.isDigit fun c => plainChar c = true ∨ py.isDigit c = true :=
    fun c hc => .inr hc
  have hmarks : plainChar '-' = true ∧ plainChar '.' = true := by decide
  have hname {l : Char} (hl : isNameChar l = true) :
      Regex.Only (fun c => fold c == l) fun c => isNameChar c = true ∨ c = '.' := fun c hc =>
    .inl (fold_name hl c (beq_iff_eq.mp hc))
  have hnameLetter : Regex.Only isLetter fun c => isNameChar c = true ∨ c = '.' := fun c hc =>
    .inl (alnum_nameChar (letter_alnum hc))
  have hnameChar : Regex.Only isNameChar fun c => isNameChar c = true ∨ c = '.' :=
    fun c hc => .inl hc
  have hunder : isNameChar '_' = true := by decide
  simp only [patterns, List.mem_cons, List.not_mem_nil, or_false] at hentry
  rcases hentry with rfl | rfl | rfl | rfl | rfl | rfl | rfl | rfl
  · have hupper : .PROJECT_CODE ∈ upperTypes := by decide
    refine settles_upper hupper (word_clean h ?_ ?_) (h.consists ?_) <;>
      simp (disch := decide) [projectCodeRe, hplain, halnum, hmarks]
  · have hupper : .REQUIREMENT_ID ∈ upperTypes := by decide
    refine settles_upper hupper (word_clean h ?_ ?_) (h.consists ?_) <;>
      simp (disch := decide) [requirementIdRe, hplain, hdigit, hmarks]
  · have hupper : .ERROR_CODE ∈ upperTypes := by decide
    refine settles_upper hupper (word_clean h ?_ ?_) (h.consists ?_) <;>
      simp (disch := decide) [errorCodeRe, hplain, halnum, hdigit, hmarks]
  · have hupper : .ISSUE_KEY ∈ upperTypes := by decide
    refine settles_upper hupper (word_clean h ?_ ?_) (h.consists ?_) <;>
      simp [issueKeyRe, hletter, halnum, hdigit, hmarks]
  · exact absurd rfl htype
  · refine settles_word h (.inl rfl) ?_ ?_ <;>
      simp (disch := decide) [dbTableRe, hname, hnameLetter, hnameChar, hunder]
  · refine settles_word h (.inr rfl) ?_ ?_ <;>
      simp (disch := decide) [dbColumnRe, hname, hnameLetter, hnameChar]
  · obtain ⟨c, number, rfl, hv, hnumber⟩ := word_version h
    refine settles_version hnumber hv (word_clean h ?_ ?_)
    · have hvs : keptChar 'v' = true ∧ keptChar 'V' = true := by decide
      simp [versionRe, hvs]
    · simp [versionRe]

theorem settles_labels {entry : IdentifierType × Pattern Char} (hentry : entry ∈ labeledPatterns py)
    (h : Word entry.2.group raw) : Settles py entry.1 raw := by
  have hletter : Regex.Only isLetter fun c => isNameChar c = true ∨ c = '.' :=
    fun c hc => .inl (alnum_nameChar (letter_alnum hc))
  have hname : Regex.Only isNameChar fun c => isNameChar c = true ∨ c = '.' := fun c hc => .inl hc
  have hunder : isNameChar '_' = true ∧ keptChar '_' = true := by decide
  have hdotted {identifierType : IdentifierType} (htype : identifierType = .DB_TABLE ∨
    identifierType = .DB_COLUMN)
      (h : Word dottedName raw) : Settles py identifierType raw := by
    refine settles_word h htype ?_ ?_
    · simp [hunder]
    · simp [hletter, hname, hunder]
  simp only [labeledPatterns, List.mem_cons, List.not_mem_nil, or_false] at hentry
  rcases hentry with rfl | rfl | rfl | rfl
  · exact hdotted (.inl rfl) h
  · exact hdotted (.inr rfl) h
  · exact hdotted (.inl rfl) h
  · refine settles_word h (.inr rfl) ?_ ?_
    · simp [sqlColumn, sqlColumnLine, hunder]
    · simp [sqlColumn, sqlColumnLine, hletter, hname, hunder]

theorem word_ones {cs w : List Char} (h : Word (Regex.all (cs.map one)) w) : w = cs := by
  induction cs generalizing w with
  | nil => exact Matching.word_empty.mp h
  | cons c cs ih =>
    have hone {w : List Char} (h : Word (one c) w) : w = [c] := by
      obtain ⟨d, rfl, hd⟩ := Matching.word_char.mp h
      rw [beq_iff_eq.mp hd]
    cases cs with
    | nil => exact hone h
    | cons d cs =>
      obtain ⟨u, hu, v, hv, rfl⟩ := Matching.word_seq.mp h
      rw [hone hu, ih hv]
      rfl

theorem word_path (h : Word apiPathRe raw) : PathLike raw := by
  obtain ⟨b, hb, w, h₁, rfl⟩ := Matching.word_seq.mp h
  obtain ⟨u, hu, v, hv, rfl⟩ := Matching.word_seq.mp h₁
  obtain rfl := Matching.word_look.mp hb
  have hchars : ∀ c ∈ v, isPathChar c = true := hv.consists (by simp [Regex.Only])
  have hfront : ∀ c ∈ ['p', 'i', '/'], isPathChar c = true := by decide
  rw [word_ones hu]
  refine ⟨['p', 'i', '/'] ++ v, rfl, fun c hc => ?_⟩
  exact (List.mem_append.mp hc).elim (hfront c) (hchars c)

end ProjectAgent.Identifiers
