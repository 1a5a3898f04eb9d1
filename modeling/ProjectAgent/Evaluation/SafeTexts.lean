/-
What is let into a file of itself: a text without spaces and slashes, a number, an
id, a time, a digest; and a document of such values.
-/
import ProjectAgent.Evaluation.NoSecrets
import ProjectAgent.Evaluation.Runner

namespace ProjectAgent.Evaluation

open Identifiers (one space word)
open Matching (Regex Word)
open Matching.Regex (all atLeast notAhead notBehind plus textStart)

variable {lang : Language}

/-! ## Texts without patterns -/

/-- Neither space nor slash, and one point at most: what each pattern needs is not there. -/
def Plain (text : List Char) : Prop :=
  (∀ c ∈ text, isSpace c = false ∧ c ≠ '/') ∧ text.count '.' ≤ 1

instance (text : List Char) : Decidable (Plain text) := inferInstanceAs (Decidable (_ ∧ _))

theorem Plain.part {text part : List Char} (h : Plain text) (hpart : part <:+: text) : Plain part :=
  ⟨fun c hc => h.1 c (hpart.subset hc), (hpart.sublist.count_le '.').trans h.2⟩

theorem bearer_has_space {w : List Char} (h : Word (bearerRe lang) w) :
    ∃ c ∈ w, isSpace c = true := by
  obtain ⟨u₁, -, v₁, h₁, rfl⟩ := Matching.word_seq.mp h
  obtain ⟨u₂, -, v₂, h₂, rfl⟩ := Matching.word_seq.mp h₁
  obtain ⟨u₃, hspaces, v₃, -, rfl⟩ := Matching.word_seq.mp h₂
  obtain ⟨u₄, hspace, v₄, -, rfl⟩ := Matching.word_seq.mp hspaces
  obtain ⟨c, rfl, hc⟩ := Matching.word_char.mp hspace
  exact ⟨c, by simp, hc⟩

theorem jwt_has_points {w : List Char} (h : Word jwtRe w) : 2 ≤ w.count '.' := by
  obtain ⟨u₁, -, v₁, h₁, rfl⟩ := Matching.word_seq.mp h
  obtain ⟨u₂, -, v₂, h₂, rfl⟩ := Matching.word_seq.mp h₁
  obtain ⟨u₃, hfirst, v₃, h₃, rfl⟩ := Matching.word_seq.mp h₂
  obtain ⟨u₄, -, v₄, h₄, rfl⟩ := Matching.word_seq.mp h₃
  obtain ⟨u₅, hsecond, v₅, -, rfl⟩ := Matching.word_seq.mp h₄
  obtain ⟨c, rfl, hc⟩ := Matching.word_char.mp hfirst
  obtain ⟨d, rfl, hd⟩ := Matching.word_char.mp hsecond
  obtain rfl := eq_of_beq hc
  obtain rfl := eq_of_beq hd
  simp only [List.count_append, List.count_singleton_self]
  omega

theorem credentialUrl_has_slash {w : List Char} (h : Word credentialUrl w) : '/' ∈ w := by
  obtain ⟨u₁, -, v₁, h₁, rfl⟩ := Matching.word_seq.mp h
  obtain ⟨u₂, -, v₂, h₂, rfl⟩ := Matching.word_seq.mp h₁
  obtain ⟨u₃, -, v₃, h₃, rfl⟩ := Matching.word_seq.mp h₂
  obtain ⟨u₄, hslash, v₄, -, rfl⟩ := Matching.word_seq.mp h₃
  obtain ⟨c, rfl, hc⟩ := Matching.word_char.mp hslash
  obtain rfl := eq_of_beq hc
  simp

/-- The scan finds nothing in the text. -/
def Scanned (lang : Language) (text : String) : Prop :=
  ∀ path, textSecretSafe lang path text = .ok ()

theorem scanned_iff {path text : String} :
    textSecretSafe lang path text = .ok () ↔ Scanned lang text :=
  ⟨fun h _ => text_safe_iff.mpr (text_safe_iff.mp h), fun h => h path⟩

theorem Plain.scanned {text : String} (h : Plain text.toList) : Scanned lang text := by
  refine fun path => text_safe_iff.mpr ⟨?_, ?_, ?_⟩
  · refine Bool.eq_false_iff.mpr fun hfound => ?_
    obtain ⟨w, hw, hinfix⟩ := Matching.exists_word_of_search hfound
    obtain ⟨c, hc, hspace⟩ := bearer_has_space hw
    exact Bool.false_ne_true (((h.part hinfix).1 c hc).1.symm.trans hspace)
  · refine Bool.eq_false_iff.mpr fun hfound => ?_
    obtain ⟨w, hw, hinfix⟩ := Matching.exists_word_of_search hfound
    exact absurd ((jwt_has_points hw).trans (h.part hinfix).2) (by decide)
  · refine Bool.eq_false_iff.mpr fun hfound => ?_
    have hsearch : credentialUrl.search text.toList = true := by
      rw [Regex.search_eq, hfound, Bool.true_or]
    obtain ⟨w, hw, hinfix⟩ := Matching.exists_word_of_search hsearch
    exact ((h.part hinfix).1 '/' (credentialUrl_has_slash hw)).2 rfl

/-- A digit, a sign or a mark of a time: no space, no slash and no point. -/
def isMark (c : Char) : Bool := (c.isAlphanum || c ∈ ['-', ':', '+', '_']) && c.toNat < 128

theorem isMark_plain {c : Char} (h : isMark c = true) : isSpace c = false ∧ c ≠ '/' ∧ c ≠ '.' := by
  have hascii : ∀ n : Fin 128, isMark (Char.ofNat n) = true →
      isSpace (Char.ofNat n) = false ∧ Char.ofNat n ≠ '/' ∧ Char.ofNat n ≠ '.' := by
    decide +kernel
  have hlt : c.toNat < 128 := of_decide_eq_true (Bool.and_eq_true _ _ ▸ h).2
  have heq : Char.ofNat c.toNat = c := Char.ofNat_toNat c
  have hc := hascii ⟨c.toNat, hlt⟩
  dsimp only at hc
  rw [heq] at hc
  exact hc h

theorem plain_of_marks {text : List Char} (h : ∀ c ∈ text, isMark c = true) : Plain text := by
  refine ⟨fun c hc => ⟨(isMark_plain (h c hc)).1, (isMark_plain (h c hc)).2.1⟩, ?_⟩
  rw [List.count_eq_zero.mpr fun hpoint => (isMark_plain (h _ hpoint)).2.2 rfl]
  exact Nat.zero_le 1

theorem hexDigits_marks {width n : Nat} : ∀ c ∈ Json.hexDigits width n, isMark c = true := by
  intro c hc
  obtain ⟨a, rfl⟩ := Json.mem_hexDigits hc
  exact (by decide : ∀ a : Fin 16, isMark (Nat.digitChar a) = true) a

theorem digits_marks {width n : Nat} : ∀ c ∈ Decimal.digits width n, isMark c = true := by
  induction width generalizing n with
  | zero => exact fun c hc => absurd hc List.not_mem_nil
  | succ width ih =>
    intro c hc
    rcases List.mem_append.mp hc with hc | hc
    · exact ih c hc
    · obtain rfl := List.mem_singleton.mp hc
      exact (by decide : ∀ a : Fin 10, isMark (Nat.digitChar a) = true)
        ⟨n % 10, Nat.mod_lt _ (by decide)⟩

theorem uuid_plain (id : UUID) : Plain id.str.toList := by
  refine plain_of_marks fun c hc => ?_
  rw [UUID.str, String.toList_ofList] at hc
  rcases mem_intercalate hc with hc | hc
  · obtain rfl := List.mem_singleton.mp hc
    rfl
  · rw [UUID.groups_flatten] at hc
    exact hexDigits_marks c hc

theorem Plain.between {text before after : List Char} (h : Plain text)
    (hbefore : ∀ c ∈ before, isMark c = true) (hafter : ∀ c ∈ after, isMark c = true) :
    Plain (before ++ text ++ after) := by
  have hcount (cs : List Char) (h : ∀ c ∈ cs, isMark c = true) : cs.count '.' = 0 :=
    List.count_eq_zero.mpr fun hpoint => (isMark_plain (h _ hpoint)).2.2 rfl
  constructor
  · intro c hc
    rcases List.mem_append.mp hc with hc | hc
    · rcases List.mem_append.mp hc with hc | hc
      · exact (plain_of_marks hbefore).1 c hc
      · exact h.1 c hc
    · exact (plain_of_marks hafter).1 c hc
  · rw [List.count_append, List.count_append, hcount before hbefore, hcount after hafter,
      Nat.zero_add, Nat.add_zero]
    exact h.2

/-- The one point is that of the second's fraction. -/
theorem isoformat_plain (now : ClockTime) : Plain now.isoformat.toList := by
  unfold ClockTime.isoformat
  rw [String.toList_ofList]
  refine Plain.between ?_ ?_ (by decide)
  · split
    · exact plain_of_marks fun c hc => absurd hc List.not_mem_nil
    · refine ⟨List.forall_mem_cons.mpr ⟨by decide, (plain_of_marks digits_marks).1⟩, ?_⟩
      rw [List.count_cons_self]
      exact Nat.succ_le_succ (Nat.le_of_eq (List.count_eq_zero.mpr fun hpoint =>
        (isMark_plain (digits_marks _ hpoint)).2.2 rfl))
  · simp only [List.forall_mem_append, List.forall_mem_cons]
    have hmark (c : Char) (h : isMark c = true := by rfl) : isMark c = true := h
    exact ⟨⟨⟨⟨⟨digits_marks, hmark '-', digits_marks⟩, hmark '-', digits_marks⟩, hmark 'T',
      digits_marks⟩,
      hmark ':', digits_marks⟩, hmark ':', digits_marks⟩

/-! ## Documents of texts -/

def keyChars : List Char := "abcdefghijklmnopqrstuvwxyz0123456789_".toList

/-- What the runner relies on: lower case stays, and a digest is of hexadecimal digits. -/
structure Language.Lawful (lang : Language) : Prop where
  casefold_lower : ∀ text : String, (∀ c ∈ text.toList, c ∈ keyChars) → lang.casefold text = text
  sha256_hex : ∀ data, ∀ c ∈ (lang.sha256 data).toList, c ∈ "0123456789abcdef".toList

theorem sha256_plain (law : lang.Lawful) (data : Bytes) : Plain (lang.sha256 data).toList :=
  plain_of_marks fun c hc => (by decide : ∀ c ∈ "0123456789abcdef".toList, isMark c = true) c
    (law.sha256_hex data c hc)

/-- The members of an object whose keys are texts. -/
def members (fields : List (String × Raw)) : List (Key × Raw) :=
  fields.map fun field => (.str field.1, field.2)

theorem entriesSafe_iff {path : String} {entries : List (Key × Raw)} :
    entriesSecretSafe lang path entries = .ok () ↔
    ∀ entry ∈ entries, isSecretKey lang entry.1.text = false ∧
      assertSecretSafe lang (path ++ "." ++ entry.1.text) entry.2 = .ok () := by
  induction entries with
  | nil =>
    unfold entriesSecretSafe
    simp
  | cons entry entries ih =>
    obtain ⟨key, item⟩ := entry
    unfold entriesSecretSafe
    rw [List.forall_mem_cons, ← ih]
    cases hkey : isSecretKey lang key.text with
    | true =>
      rw [if_pos rfl]
      exact ⟨fun h => (nomatch h), fun h => (nomatch h.1.1)⟩
    | false =>
      rw [if_neg Bool.false_ne_true, Fallible.bind_eq_ok]
      exact ⟨fun ⟨_, hitem, hrest⟩ => ⟨⟨rfl, hitem⟩, hrest⟩, fun ⟨⟨_, hitem⟩, hrest⟩ =>
        ⟨(), hitem, hrest⟩⟩

theorem sortEntries_texts {α : Type} (fields : List (String × α)) :
    sortEntries (fields.map fun field => (Key.str field.1, field.2)) =
      .ok (fields.insertionSort fun a b => a.1 ≤ b.1) := by
  have htexts {text? : Key × α → Option (String × α)}
    (h : ∀ text a, text? (.str text, a) = some (text, a)) :
      (fields.map fun field => (Key.str field.1, field.2)).mapM text? = some fields := by
    induction fields with
    | nil => rfl
    | cons field fields ih =>
      rw [List.map_cons, List.mapM_cons, ih, h]
      rfl
  unfold sortEntries
  split
  · next htexts' =>
    obtain rfl := Option.some.inj (htexts'.symm.trans (htexts fun _ _ => rfl))
    rfl
  · next hnone _ =>
      exact absurd (hnone.symm.trans (htexts fun _ _ => rfl)) (Option.some_ne_none _).symm
  · next hnone _ =>
      exact absurd (hnone.symm.trans (htexts fun _ _ => rfl)) (Option.some_ne_none _).symm

theorem encodeEntries_members (fields : List (String × Raw)) :
    encodeEntries lang (members fields) =
      (fields.map fun field => (field.1, encode lang field.2)).map
      fun field => (Key.str field.1, field.2) := by
  induction fields with
  | nil => rfl
  | cons field fields ih =>
    unfold members at ih ⊢
    rw [List.map_cons, List.map_cons, List.map_cons, ← ih]
    rfl

/-- An object of texts as keys is encoded if its values are. -/
theorem encode_members {fields : List (String × Raw)}
    (h : ∀ field ∈ fields, ∃ text, encode lang field.2 = .ok text) :
    ∃ text, encode lang (.dict (members fields)) = .ok text := by
  unfold encode
  rw [encodeEntries_members, sortEntries_texts]
  obtain ⟨texts, htexts⟩ := Fallible.mapM_exists (ε := WriteError)
    (f := fun entry : String × Except WriteError (List Char) =>
      do return Json.encodeString entry.1 ++ ':' :: (← entry.2))
    (l := (fields.map fun field => (field.1, encode lang field.2)).insertionSort fun a b =>
      a.1 ≤ b.1) (by
      intro entry hentry
      obtain ⟨field, hfield, rfl⟩ := List.mem_map.mp ((List.mem_insertionSort _).mp hentry)
      obtain ⟨text, htext⟩ := h field hfield
      exact ⟨_, by rw [htext]; rfl⟩)
  exact ⟨_, by
    rw [Fallible.bind_eq_ok]
    exact ⟨_, rfl, Fallible.bind_eq_ok.mpr ⟨texts, htexts, rfl⟩⟩⟩

theorem entriesHaveLone_members {fields : List (String × Raw)} :
    entriesHaveLone (members fields) = fields.any fun field => hasLone field.2 := by
  induction fields with
  | nil => rfl
  | cons field fields ih =>
    unfold members at ih ⊢
    rw [List.map_cons, List.any_cons, ← ih]
    rfl

theorem written_ok_iff {payload : Payload} {document : Raw} : written lang payload = .ok document ↔
    toJsonable payload = .ok document ∧ Passes lang document := by
  unfold written
  rw [Fallible.bind_eq_ok]
  constructor
  · rintro ⟨data, hdata, hdocument⟩
    obtain ⟨other, hother, hsafe, hencoded⟩ := prepared_ok_iff.mp hdata
    obtain rfl := Except.ok.inj (hother.symm.trans hdocument)
    exact ⟨hdocument, hsafe, data, hencoded⟩
  · rintro ⟨hdocument, hsafe, data, hencoded⟩
    exact ⟨data, prepared_ok_iff.mpr ⟨document, hdocument, hsafe, hencoded⟩, hdocument⟩

/-- A value that is let into a file wherever it stands. -/
structure Fine (lang : Language) (value : Raw) : Prop where
  safe : ∀ path, assertSecretSafe lang path value = .ok ()
  encoded : ∃ text, encode lang value = .ok text
  utf8 : hasLone value = false

namespace Fine

theorem str {text : String} (h : Scanned lang text) : Fine lang (.str text) where
  safe path := by
    unfold assertSecretSafe
    exact h path
  encoded := ⟨_, rfl⟩
  utf8 := rfl

theorem plain {text : String} (h : Plain text.toList) : Fine lang (.str text) := .str h.scanned

theorem null : Fine lang .null := ⟨fun _ => rfl, ⟨_, rfl⟩, rfl⟩

theorem bool (value : Bool) : Fine lang (.bool value) := ⟨fun _ => rfl, ⟨_, rfl⟩, rfl⟩

theorem int (value : ℤ) : Fine lang (.int value) := ⟨fun _ => rfl, ⟨_, rfl⟩, rfl⟩

theorem list {items : List Raw} (h : ∀ item ∈ items, Fine lang item) : Fine lang (.list items) := by
  have hitems : (∀ path index, itemsSecretSafe lang path index items = .ok ()) ∧
      (∃ texts, encodeItems lang items = .ok texts) ∧ itemsHaveLone items = false := by
    induction items with
    | nil => exact ⟨fun _ _ => rfl, ⟨_, rfl⟩, rfl⟩
    | cons item items ih =>
      have hitem := h item List.mem_cons_self
      obtain ⟨hsafe, ⟨texts, htexts⟩, hutf8⟩ :=
        ih fun other hother => h other (List.mem_cons_of_mem _ hother)
      obtain ⟨text, htext⟩ := hitem.encoded
      refine ⟨fun path index => ?_, ⟨text :: texts, ?_⟩, ?_⟩
      · unfold itemsSecretSafe
        rw [hitem.safe, hsafe]
        rfl
      · unfold encodeItems
        rw [htext, htexts]
        rfl
      · unfold itemsHaveLone
        rw [hitem.utf8, hutf8]
        rfl
  obtain ⟨hsafe, ⟨texts, htexts⟩, hutf8⟩ := hitems
  refine ⟨fun path => ?_, ?_, ?_⟩
  · unfold assertSecretSafe
    exact hsafe path 0
  · unfold encode
    rw [htexts]
    exact ⟨_, rfl⟩
  · unfold hasLone
    exact hutf8

theorem nil : Fine lang (.list []) := .list fun _ h => absurd h List.not_mem_nil

theorem dict {fields : List (String × Raw)}
    (hkeys : ∀ field ∈ fields, isSecretKey lang field.1 = false)
    (h : ∀ field ∈ fields, Fine lang field.2) : Fine lang (.dict (members fields)) where
  safe path := by
    unfold assertSecretSafe
    refine entriesSafe_iff.mpr fun entry hentry => ?_
    obtain ⟨field, hfield, rfl⟩ := List.mem_map.mp hentry
    exact ⟨hkeys field hfield, (h field hfield).safe _⟩
  encoded := encode_members fun field hfield => (h field hfield).encoded
  utf8 := by
    unfold hasLone
    rw [entriesHaveLone_members]
    exact List.any_eq_false.mpr fun field hfield => Bool.eq_false_iff.mp (h field hfield).utf8

theorem passes {value : Raw} (h : Fine lang value) : Passes lang value := by
  obtain ⟨text, htext⟩ := h.encoded
  exact ⟨h.safe "$", encoded_ok htext h.utf8⟩

end Fine

/-- An object that passes has values that are safe, and UTF-8. -/
theorem Passes.field {fields : List (String × Raw)} (h : Passes lang (.dict (members fields)))
    {field : String × Raw} (hfield : field ∈ fields) :
    assertSecretSafe lang ("$." ++ field.1) field.2 = .ok () ∧ hasLone field.2 = false := by
  obtain ⟨hsafe, data, hdata⟩ := h
  constructor
  · unfold assertSecretSafe at hsafe
    exact (entriesSafe_iff.mp hsafe (.str field.1, field.2)
      (List.mem_map.mpr ⟨field, hfield, rfl⟩)).2
  · unfold encoded at hdata
    obtain ⟨text, -, hdata⟩ := Fallible.bind_eq_ok.mp hdata
    by_cases hlone : hasLone (.dict (members fields)) = true
    · rw [if_pos hlone] at hdata
      cases hdata
    · unfold hasLone at hlone
      rw [entriesHaveLone_members, Bool.not_eq_true] at hlone
      exact Bool.eq_false_iff.mpr (List.any_eq_false.mp hlone field hfield)

theorem Passes.text {fields : List (String × Raw)} (h : Passes lang (.dict (members fields)))
    {name text : String} (hfield : (name, Raw.str text) ∈ fields) : Scanned lang text := by
  have hsafe := (h.field hfield).1
  unfold assertSecretSafe at hsafe
  exact scanned_iff.mp hsafe

/-- A key in lower case is as secret as it is in ASCII. -/
theorem not_secret (law : lang.Lawful) {name : String} (hlower : ∀ c ∈ name.toList, c ∈ keyChars)
    (hascii : asciiLanguage.casefold name = name) (h : isSecretKey asciiLanguage name = false) :
    isSecretKey lang name = false := by
  unfold isSecretKey normaliseKey at h ⊢
  rw [law.casefold_lower name hlower]
  rwa [hascii] at h

end ProjectAgent.Evaluation
