/-
What `write_json` lets into a file, and what it leaves behind when it refuses.

The scan leaves out the patterns in a mapping's keys, the credential URLs further
on in a text, and all that a tuple holds: a document that passes is free of secrets
exactly if those places are. A refusal leaves the directory as it was, unless a
call for the temporary file fails and then its removal too.
-/
import ProjectAgent.Evaluation.SecretScan

namespace ProjectAgent.Evaluation

open Matching (Regex)

variable {lang : Language}

/-! ## Documents without secrets -/

section Documents

variable (lang : Language)

/-- The text contains what one of the patterns describes. -/
def Recognised (text : String) : Prop :=
  (bearerRe lang).search text.toList = true ∨ jwtRe.search text.toList = true ∨
    credentialUrl.search text.toList = true

mutual

/-- No text and no key at any depth is recognised, and no key has a marker. -/
def Clean : Raw → Prop
  | .str text | .loneStr text => ¬ Recognised lang text
  | .list items | .tuple items => CleanItems items
  | .dict entries => CleanEntries entries
  | .null | .bool _ | .int _ | .float _ | .other _ => True

def CleanEntries : List (Key × Raw) → Prop
  | [] => True
  | (key, value) :: entries =>
    (¬ Recognised lang key.text ∧ isSecretKey lang key.text = false) ∧ Clean value ∧
      CleanEntries entries

def CleanItems : List Raw → Prop
  | [] => True
  | item :: items => Clean item ∧ CleanItems items

end

mutual

/-- What the scan leaves out is clean: the patterns of keys, credential URLs further on, tuples. -/
def Omitted : Raw → Prop
  | .str text | .loneStr text => credentialUrl.searchLater text.toList = false
  | .tuple items => CleanItems lang items
  | .list items => OmittedItems items
  | .dict entries => OmittedEntries entries
  | .null | .bool _ | .int _ | .float _ | .other _ => True

def OmittedEntries : List (Key × Raw) → Prop
  | [] => True
  | (key, value) :: entries => ¬ Recognised lang key.text ∧ Omitted value ∧ OmittedEntries entries

def OmittedItems : List Raw → Prop
  | [] => True
  | item :: items => Omitted item ∧ OmittedItems items

end

end Documents

/-- Of a text the scan looks at all but the credential URLs further on. -/
theorem text_safe_iff {path text : String} : textSecretSafe lang path text = .ok () ↔
    (bearerRe lang).search text.toList = false ∧ jwtRe.search text.toList = false ∧
      credentialUrl.matchesAtStart text.toList = false := by
  unfold textSecretSafe credentialUrlRe
  rw [Regex.search_textStart]
  cases (bearerRe lang).search text.toList <;> cases jwtRe.search text.toList <;>
    cases credentialUrl.matchesAtStart text.toList <;> simp

theorem not_recognised_iff {text : String} : ¬ Recognised lang text ↔
    ((bearerRe lang).search text.toList = false ∧ jwtRe.search text.toList = false ∧
      credentialUrl.matchesAtStart text.toList = false) ∧
        credentialUrl.searchLater text.toList = false := by
  unfold Recognised
  rw [Regex.search_eq credentialUrl, Bool.or_eq_true, not_or, not_or, not_or, Bool.not_eq_true,
    Bool.not_eq_true,
    Bool.not_eq_true, Bool.not_eq_true, and_assoc, and_assoc]

theorem clean_text {path text : String} (h : textSecretSafe lang path text = .ok ()) :
    ¬ Recognised lang text ↔ credentialUrl.searchLater text.toList = false := by
  rw [not_recognised_iff, and_iff_right (text_safe_iff.mp h)]

mutual

/-- **A document that passes the scan is clean exactly if what the scan leaves out is.** -/
theorem clean_iff :
    ∀ (document : Raw) {path : String}, assertSecretSafe lang path document = .ok () →
    (Clean lang document ↔ Omitted lang document)
  | .str text | .loneStr text => by
    intro h
    unfold assertSecretSafe at h
    unfold Clean Omitted
    exact clean_text h
  | .list items => by
    intro h
    unfold assertSecretSafe at h
    unfold Clean Omitted
    exact cleanItems_iff items h
  | .dict entries => by
    intro h
    unfold assertSecretSafe at h
    unfold Clean Omitted
    exact cleanEntries_iff entries h
  | .tuple items => by
    intro _
    unfold Clean Omitted
    exact Iff.rfl
  | .null | .bool _ | .int _ | .float _ | .other _ => by
    intro _
    unfold Clean Omitted
    exact Iff.rfl

theorem cleanEntries_iff :
    ∀ (entries : List (Key × Raw)) {path : String}, entriesSecretSafe lang path entries = .ok () →
    (CleanEntries lang entries ↔ OmittedEntries lang entries)
  | [] => by
    intro _
    unfold CleanEntries OmittedEntries
    exact Iff.rfl
  | (key, value) :: entries => by
    intro h
    unfold entriesSecretSafe at h
    split at h
    · cases h
    · next hkey =>
      obtain ⟨⟨⟩, hvalue, hrest⟩ := Fallible.bind_eq_ok.mp h
      unfold CleanEntries OmittedEntries
      rw [clean_iff value hvalue, cleanEntries_iff entries hrest,
        and_iff_left (Bool.eq_false_iff.mpr hkey)]

theorem cleanItems_iff :
    ∀ (items : List Raw) {path : String} {index : Nat},
      itemsSecretSafe lang path index items = .ok () →
    (CleanItems lang items ↔ OmittedItems lang items)
  | [] => by
    intro _
    unfold CleanItems OmittedItems
    exact Iff.rfl
  | item :: items => by
    intro h
    unfold itemsSecretSafe at h
    obtain ⟨⟨⟩, hitem, hrest⟩ := Fallible.bind_eq_ok.mp h
    unfold CleanItems OmittedItems
    rw [clean_iff item hitem, cleanItems_iff items hrest]

end

/-! ## What a call does to the directory -/

section Writing

variable {sys : System} {files files' : Directory} {name temp : String} {data : Bytes}
  {payload : Payload}

/-- A temporary name is free, and not the target's. -/
theorem createTemp_spec (h : createTemp sys files name = some temp) :
    files temp = none ∧ temp ≠ name := by
  unfold createTemp at h
  split at h
  · cases h
  · refine ⟨by simpa using List.find?_some h, ?_⟩
    obtain ⟨random, -, rfl⟩ := List.mem_map.mp (List.mem_of_find?_eq_some h)
    intro heq
    have hlength := congrArg String.length heq
    simp only [String.length_append] at hlength
    have hdot : ".".length = 1 := rfl
    omega

theorem update_none (h : files temp = none) (content : Bytes) :
    Function.update (Function.update files temp (some content)) temp none = files := by
  rw [Function.update_idem, ← h, Function.update_eq_self]

/-- A call after the creation fails, and then the removal. -/
def Stuck (sys : System) (files : Directory) (name : String) : Prop :=
  sys.mkdirFails = false ∧ (createTemp sys files name).isSome ∧ (firstFailure sys).isSome ∧
    sys.unlinkFails = true

/-- The write succeeds, or leaves the directory as it was, or is stuck with a temporary file. -/
theorem writeFile_cases {result : Except WriteError Unit}
    (h : writeFile sys files name data = (result, files')) :
    (¬ Stuck sys files name ∧ result = .ok () ∧ files' = Function.update files name (some data)) ∨
      (¬ Stuck sys files name ∧ (∃ e, result = .error e) ∧ files' = files) ∨
      (Stuck sys files name ∧ (∃ e, result = .error e) ∧ ∃ temp, files temp = none ∧
        files' temp ≠ none) := by
  unfold writeFile at h
  by_cases hmkdir : sys.mkdirFails = true
  · rw [if_pos hmkdir] at h
    cases h
    exact .inr (.inl ⟨fun hstuck => Bool.false_ne_true (hstuck.1.symm.trans hmkdir), ⟨_, rfl⟩, rfl⟩)
  rw [if_neg hmkdir] at h
  cases htemp : createTemp sys files name with
  | none =>
    rw [htemp] at h
    cases h
    refine .inr (.inl ⟨fun hstuck => ?_, ⟨_, rfl⟩, rfl⟩)
    have hsome := hstuck.2.1
    rw [htemp] at hsome
    cases hsome
  | some temp =>
    obtain ⟨hfree, hne⟩ := createTemp_spec htemp
    rw [htemp] at h
    dsimp only at h
    generalize (if sys.writeFails || sys.flushFails then sys.leftOver else data) = content at h
    cases hcall : firstFailure sys with
    | none =>
      rw [hcall] at h
      cases h
      refine .inl ⟨fun hstuck => ?_, rfl, ?_⟩
      · have hsome := hstuck.2.2.1
        rw [hcall] at hsome
        cases hsome
      · rw [update_none hfree]
    | some call =>
      rw [hcall] at h
      dsimp only at h
      by_cases hunlink : sys.unlinkFails = true
      · rw [if_pos hunlink] at h
        cases h
        refine .inr (.inr ⟨⟨Bool.eq_false_iff.mpr hmkdir, ?_, ?_, hunlink⟩, ⟨_, rfl⟩, temp,
          hfree, ?_⟩)
        · rw [htemp]
          rfl
        · rw [hcall]
          rfl
        · rw [Function.update_self]
          exact Option.some_ne_none _
      · rw [if_neg hunlink] at h
        cases h
        exact .inr (.inl ⟨fun hstuck => hunlink hstuck.2.2.2, ⟨_, rfl⟩, update_none hfree _⟩)

/-- With no failures and a free name the write succeeds. -/
def quietSystem : System := ⟨["a"], false, false, false, [], false, false, false, false, false⟩

theorem writeFile_quiet (name : String) (data : Bytes) :
    writeFile quietSystem (fun _ => none) name data =
      (.ok (), Function.update (fun _ => none) name (some data)) := by
  have htemp : createTemp quietSystem (fun _ => none) name =
      some ("." ++ name ++ "." ++ "a" ++ ".tmp") := rfl
  unfold writeFile
  rw [htemp]
  refine Prod.ext rfl ?_
  have hupdate (temp : String) : Function.update
    (Function.update (fun _ => none) temp (some data)) temp none =
      (fun _ => none : Directory) := update_none rfl data
  exact congrArg (fun files => Function.update files name (some data)) (hupdate _)

end Writing

/-! ## `write_json` -/

/-- The scan and the encoder let the document through. -/
def Passes (lang : Language) (document : Raw) : Prop :=
  assertSecretSafe lang "$" document = .ok () ∧ ∃ data, encoded lang document = .ok data

theorem prepared_ok_iff {payload : Payload} {data : Bytes} : prepared lang payload = .ok data ↔
    ∃ document, toJsonable payload = .ok document ∧ assertSecretSafe lang "$" document = .ok () ∧
      encoded lang document = .ok data := by
  unfold prepared
  rw [Fallible.bind_eq_ok]
  refine exists_congr fun document => and_congr_right fun _ => ?_
  rw [Fallible.bind_eq_ok]
  exact ⟨fun ⟨_, hsafe, hdata⟩ => ⟨hsafe, hdata⟩, fun ⟨hsafe, hdata⟩ => ⟨(), hsafe, hdata⟩⟩

theorem encoded_ok {document : Raw} {text : List Char} (h : encode lang document = .ok text)
    (hlone : hasLone document = false) :
    ∃ data, encoded lang document = .ok data := by
  unfold encoded
  rw [h]
  exact ⟨_, if_neg (Bool.eq_false_iff.mp hlone)⟩

/-- Whenever the payload is written, the document that stands in the file is clean. -/
def CleanWrites (lang : Language) (payload : Payload) : Prop :=
  ∀ sys files name digest files', writeJson lang sys files name payload = (.ok digest, files') →
    ∃ document data, toJsonable payload = .ok document ∧ encoded lang document = .ok data ∧
      files' name = some data ∧
      Clean lang document

/-- Where the payload is refused the target is as it was, and no file is there that was not. -/
def LeavesNothing (lang : Language) (sys : System) (files : Directory) (name : String)
    (payload : Payload) : Prop :=
  ∀ error files', writeJson lang sys files name payload = (.error error, files') →
    files' name = files name ∧ ∀ other, files other = none → files' other = none

theorem cleanWrites_iff {payload : Payload} : CleanWrites lang payload ↔
    ∀ document, toJsonable payload = .ok document → Passes lang document →
      Omitted lang document := by
  constructor
  · rintro h document hdocument ⟨hsafe, data, hdata⟩
    have hwritten : writeJson lang quietSystem (fun _ => none) "a.json" payload =
        (.ok (lang.sha256 data), Function.update (fun _ => none) "a.json" (some data)) := by
      unfold writeJson
      rw [prepared_ok_iff.mpr ⟨document, hdocument, hsafe, hdata⟩]
      dsimp only
      rw [writeFile_quiet]
    obtain ⟨other, -, hother, -, -, hclean⟩ := h _ _ _ _ _ hwritten
    cases hdocument.symm.trans hother
    exact (clean_iff document hsafe).mp hclean
  · intro h sys files name digest files' hwritten
    unfold writeJson at hwritten
    split at hwritten
    · cases hwritten
    · next data hprepared =>
      obtain ⟨document, hdocument, hsafe, hdata⟩ := prepared_ok_iff.mp hprepared
      split at hwritten
      · cases hwritten
      · next hfile =>
        cases hwritten
        refine ⟨document, data, hdocument, hdata, ?_,
          (clean_iff document hsafe).mpr (h document hdocument ⟨hsafe, data, hdata⟩)⟩
        obtain ⟨-, -, rfl⟩ | ⟨-, ⟨_, herror⟩, -⟩ | ⟨-, ⟨_, herror⟩, -⟩ := writeFile_cases hfile
        · exact Function.update_self ..
        · cases herror
        · cases herror

theorem leavesNothing_iff {sys : System} {files : Directory} {name : String} {payload : Payload} :
    LeavesNothing lang sys files name payload ↔
      ¬ ((∃ data, prepared lang payload = .ok data) ∧ Stuck sys files name) := by
  unfold LeavesNothing writeJson
  cases hprepared : prepared lang payload with
  | error e =>
    refine ⟨fun _ ⟨⟨_, hdata⟩, _⟩ => (nomatch hdata), fun _ error files' h => ?_⟩
    cases h
    exact ⟨rfl, fun _ h => h⟩
  | ok data =>
    dsimp only
    cases hfile : writeFile sys files name data with
    | mk result files' =>
      obtain ⟨hfree, rfl, -⟩ | ⟨hfree, ⟨e, rfl⟩, rfl⟩ | ⟨hstuck, ⟨e, rfl⟩, temp, hnone, hsome⟩ :=
        writeFile_cases hfile
      · exact ⟨fun _ h => hfree h.2, fun _ error files'' h => nomatch h⟩
      · refine ⟨fun _ h => hfree h.2, fun _ error files'' h => ?_⟩
        cases h
        exact ⟨rfl, fun _ h => h⟩
      · exact ⟨fun h => absurd ((h e files' rfl).2 temp hnone) hsome, fun h =>
          absurd ⟨⟨data, rfl⟩, hstuck⟩ h⟩

/-- **What is written is free of secrets exactly if what the scan leaves out is, and a refusal
leaves nothing behind exactly if the removal of a temporary file does not fail.** -/
theorem write_json_guarantees (lang : Language) (payload : Payload) :
    (CleanWrites lang payload ↔
      ∀ document, toJsonable payload = .ok document → Passes lang document →
        Omitted lang document) ∧
    ∀ sys files name, LeavesNothing lang sys files name payload ↔
      ¬ ((∃ data, prepared lang payload = .ok data) ∧ Stuck sys files name) :=
  ⟨cleanWrites_iff, fun _ _ _ => leavesNothing_iff⟩

/-- The language on ASCII texts. -/
def asciiLanguage : Language where
  isWord c := c.isAlphanum || c == '_'
  casefold text := String.ofList (text.toList.map Char.toLower)
  floatRepr _ := "0.0"
  sha256 _ := ""

def plainPayload : Payload := .mapping [(.str "message", .str "see the report")]

theorem write_json_guarantees_sample : CleanWrites asciiLanguage plainPayload ∧
    LeavesNothing asciiLanguage { quietSystem with
      fsyncFails := true } (fun _ => none) "report.json" plainPayload := by
  refine ⟨(write_json_guarantees asciiLanguage plainPayload).1.mpr fun document h _ => ?_,
    ((write_json_guarantees asciiLanguage plainPayload).2 _ _ _).mpr fun h =>
      absurd h.2.2.2.2 (by decide)⟩
  cases h
  have hkey : ¬ Recognised asciiLanguage "message" := by
    unfold Recognised
    decide +kernel
  have htext : credentialUrl.searchLater "see the report".toList = false := by decide +kernel
  exact ⟨hkey, htext, trivial⟩

/-- A bearer token as a key: written as it is. -/
def tokenPayload : Payload := .mapping [(.str "Bearer abcdefghijkl", .int 1)]

theorem token_key_written : ¬ CleanWrites asciiLanguage tokenPayload := by
  intro h
  have hsafe : isSecretKey asciiLanguage "Bearer abcdefghijkl" = false := by decide +kernel
  have hscan : assertSecretSafe asciiLanguage "$" (.dict [(.str "Bearer abcdefghijkl", .int 1)]) =
      .ok () := by
    unfold assertSecretSafe entriesSecretSafe
    rw [Key.text, hsafe]
    rfl
  have homitted := cleanWrites_iff.mp h (.dict [(.str "Bearer abcdefghijkl", .int 1)]) rfl ⟨hscan,
    encoded_ok rfl rfl⟩
  exact homitted.1 (.inl (by decide +kernel))

end ProjectAgent.Evaluation
