/-
The redaction of structured log events: what stands under a sensitive key, at
any depth of mappings and sequences, is hidden. Two events that differ only there
are logged as one, and what was redacted is not changed by redacting it again.

`lower` is the language's `str.lower`. A key that is not a text is known by its
identity, and has a text.
-/
import ProjectAgent.Basic
import ProjectAgent.Lib.Assigned

namespace ProjectAgent.Observability

open Assigned

inductive Key where
  | text (text : String)
  | other (id : Nat) (text : String)
deriving DecidableEq

/-- `str(key)`. -/
def Key.str : Key → String
  | .text name | .other _ name => name

/-- What stands in an event; a mapping may be another than `dict`, and a sequence another than
`list`. -/
inductive Value (α : Type) where
  | mapping (isDict : Bool) (entries : List (Key × Value α))
  | sequence (isList : Bool) (items : List (Value α))
  | str (text : String)
  | other (value : α)

def REDACTED : String := "[REDACTED]"

def SENSITIVE_KEYS : List String := [
  "authorization", "cookie", "jwt", "token", "api_key", "password", "secret", "credentials",
    "query", "query_text", "evidence",
  "evidence_text", "answer", "answer_text", "system_prompt", "user_prompt", "prompt",
    "request_body", "response_body",
  "provider_body", "provider_error_body"]

def SENSITIVE_SUFFIXES : List String :=
  ["_api_key", "_password", "_secret", "_credentials", "_jwt", "_token"]

variable {α : Type} (lower : String → String)

/-- `str(key).strip().lower().replace("-", "_")`. -/
def normalizeKey (key : Key) : String :=
  String.ofList ((lower (strip key.str)).toList.map fun c => if c = '-' then '_' else c)

def isSensitiveKey (key : Key) : Bool :=
  let normalized := normalizeKey lower key
  SENSITIVE_KEYS.contains normalized || SENSITIVE_SUFFIXES.any fun suffix =>
    suffix.toList.isSuffixOf normalized.toList

mutual

def sanitizeValue : Value α → Value α
  | .mapping _ entries => .mapping true (collect (sanitizeEntries entries))
  | .sequence _ items => .sequence true (sanitizeItems items)
  | .str text => .str text
  | .other value => .other value

/-- What is assigned to the keys of the mapping, in order. -/
def sanitizeEntries : List (Key × Value α) → List (Key × Value α)
  | [] => []
  | (key, nested) :: entries =>
    (key, if isSensitiveKey lower key then .str REDACTED else sanitizeValue nested) ::
      sanitizeEntries entries

def sanitizeItems : List (Value α) → List (Value α)
  | [] => []
  | item :: items => sanitizeValue item :: sanitizeItems items

end

/-- The event is a mapping; its keys are texts afterwards. -/
def sanitizeEventDict (event : List (Key × Value α)) : List (String × Value α) :=
  collect ((collect (sanitizeEntries lower event)).map fun entry => (entry.1.str, entry.2))

/-- What was logged, as an event again. -/
def asEvent (logged : List (String × Value α)) : List (Key × Value α) :=
  logged.map fun entry => (.text entry.1, entry.2)

/-! ## Two events that differ only in what is hidden -/

mutual

/-- The same but for what stands under sensitive keys. -/
inductive Agree : Value α → Value α → Prop where
  | mapping {isDict entries entries'} : AgreeEntries entries entries' →
      Agree (.mapping isDict entries) (.mapping isDict entries')
  | sequence {isList items items'} : AgreeItems items items' →
      Agree (.sequence isList items) (.sequence isList items')
  | str {text} : Agree (.str text) (.str text)
  | other {value} : Agree (.other value) (.other value)

inductive AgreeEntries : List (Key × Value α) → List (Key × Value α) → Prop where
  | nil : AgreeEntries [] []
  | hidden {key nested nested' entries entries'} : isSensitiveKey lower key = true →
      AgreeEntries entries entries' →
      AgreeEntries ((key, nested) :: entries) ((key, nested') :: entries')
  | shown {key nested nested' entries entries'} : Agree nested nested' →
      AgreeEntries entries entries' →
      AgreeEntries ((key, nested) :: entries) ((key, nested') :: entries')

inductive AgreeItems : List (Value α) → List (Value α) → Prop where
  | nil : AgreeItems [] []
  | cons {item item' items items'} : Agree item item' → AgreeItems items items' →
      AgreeItems (item :: items) (item' :: items')

end

variable {lower}

mutual

theorem Agree.sanitized :
    ∀ {value value' : Value α}, Agree lower value value' →
      sanitizeValue lower value = sanitizeValue lower value'
  | _, _, .mapping h => by
    unfold sanitizeValue
    rw [h.sanitized]
  | _, _, .sequence h => by
    unfold sanitizeValue
    rw [h.sanitized]
  | _, _, .str | _, _, .other => rfl

theorem AgreeEntries.sanitized :
    ∀ {event event' : List (Key × Value α)}, AgreeEntries lower event event' →
    sanitizeEntries lower event = sanitizeEntries lower event'
  | _, _, .nil => rfl
  | _, _, .hidden hkey h => by
    unfold sanitizeEntries
    rw [if_pos hkey, if_pos hkey, h.sanitized]
  | _, _, .shown hnested h => by
    unfold sanitizeEntries
    rw [hnested.sanitized, h.sanitized]

theorem AgreeItems.sanitized :
    ∀ {items items' : List (Value α)}, AgreeItems lower items items' →
      sanitizeItems lower items = sanitizeItems lower items'
  | _, _, .nil => rfl
  | _, _, .cons hitem h => by
    unfold sanitizeItems
    rw [hitem.sanitized, h.sanitized]

end

/-! ## What is redacted already -/

variable {entries event event' : List (Key × Value α)} {key : Key} {value : Value α}

/-- What is made of one item. -/
def sanitizeEntry (lower : String → String) (entry : Key × Value α) : Key × Value α :=
  (entry.1, if isSensitiveKey lower entry.1 then .str REDACTED else sanitizeValue lower entry.2)

theorem sanitizeEntries_eq_map (entries : List (Key × Value α)) :
    sanitizeEntries lower entries = entries.map (sanitizeEntry lower) := by
  induction entries with
  | nil => rfl
  | cons entry entries ih =>
    obtain ⟨key, nested⟩ := entry
    unfold sanitizeEntries
    rw [ih, List.map_cons]
    rfl

/-- Items none of which is changed, with different keys, are not changed. -/
theorem collect_sanitizeEntries (hfixed : ∀ entry ∈ entries, sanitizeEntry lower entry = entry)
    (hkeys : (entries.map Prod.fst).Nodup) :
    collect (sanitizeEntries lower entries) = entries := by
  have hsame : entries.map (sanitizeEntry lower) = entries :=
    (List.map_congr_left hfixed).trans (List.map_id _)
  rw [sanitizeEntries_eq_map, hsame, collect_eq hkeys]

theorem sanitizeEntry_fixed {nested : Value α}
    (h : isSensitiveKey lower key = false → sanitizeValue lower value = value)
    (hvalue : value = if isSensitiveKey lower key then .str REDACTED else nested) :
    sanitizeEntry lower (key, value) = (key, value) := by
  unfold sanitizeEntry
  dsimp only
  split
  · next hkey => rw [hvalue, if_pos hkey]
  · next hkey => rw [h (Bool.eq_false_iff.mpr hkey)]

mutual

theorem sanitizeValue_twice :
    ∀ value : Value α, sanitizeValue lower (sanitizeValue lower value) = sanitizeValue lower value
  | .mapping _ entries => by
    simp only [sanitizeValue]
    refine congrArg _ (collect_sanitizeEntries (fun entry hentry => ?_) nodup_collect)
    exact sanitizeEntries_twice entries entry (mem_collect hentry)
  | .sequence _ items => by
    simp only [sanitizeValue]
    rw [sanitizeItems_twice items]
  | .str _ | .other _ => rfl

theorem sanitizeEntries_twice :
    ∀ (entries : List (Key × Value α)), ∀ entry ∈ sanitizeEntries lower entries,
    sanitizeEntry lower entry = entry
  | [] => fun _ h => (nomatch h)
  | (key, nested) :: entries => fun entry h => by
    unfold sanitizeEntries at h
    rcases List.mem_cons.mp h with rfl | h
    · refine sanitizeEntry_fixed (fun hkey => ?_) rfl
      rw [hkey, if_neg Bool.false_ne_true]
      exact sanitizeValue_twice nested
    · exact sanitizeEntries_twice entries entry h

theorem sanitizeItems_twice :
    ∀ items : List (Value α), sanitizeItems lower (sanitizeItems lower items) =
      sanitizeItems lower items
  | [] => rfl
  | item :: items => by
    simp only [sanitizeItems]
    rw [sanitizeValue_twice item, sanitizeItems_twice items]

end

/-- An item is redacted by the text of its key only. -/
theorem sanitizeEntry_text (h : sanitizeEntry lower (key, value) = (key, value)) :
    sanitizeEntry lower (.text key.str, value) = (.text key.str, value) :=
  congrArg (Prod.mk _) (congrArg Prod.snd h)

/-- **What is hidden does not show, and what was redacted stays as it is**. -/
theorem redaction_noninterfering (lower : String → String) :
    (∀ event event' : List (Key × Value α), AgreeEntries lower event event' →
        sanitizeEventDict lower event = sanitizeEventDict lower event') ∧
      ∀ event : List (Key × Value α),
        sanitizeEventDict lower (asEvent (sanitizeEventDict lower event)) =
          sanitizeEventDict lower event := by
  refine ⟨fun event event' h => ?_, fun event => ?_⟩
  · unfold sanitizeEventDict
    rw [h.sanitized]
  · have hkeys : ((asEvent (sanitizeEventDict lower event)).map Prod.fst).Nodup := by
      have hnodup : ((sanitizeEventDict lower event).map Prod.fst).Nodup := nodup_collect
      unfold asEvent
      rw [List.map_map]
      have hmap := hnodup.map fun _ _ heq => Key.text.inj heq
      rwa [List.map_map] at hmap
    have hfixed : ∀ entry ∈ asEvent (sanitizeEventDict lower event),
        sanitizeEntry lower entry = entry := by
      intro entry hentry
      obtain ⟨logged, hlogged, rfl⟩ := List.mem_map.mp hentry
      obtain ⟨item, hitem, rfl⟩ := List.mem_map.mp (mem_collect hlogged)
      exact sanitizeEntry_text (sanitizeEntries_twice event item (mem_collect hitem))
    have hcollect := collect_sanitizeEntries hfixed hkeys
    have htexts : (asEvent (sanitizeEventDict lower event)).map (fun entry =>
        (entry.1.str, entry.2)) = sanitizeEventDict lower event := by
      unfold asEvent
      rw [List.map_map]
      exact List.map_id _
    have hlogged : collect (sanitizeEventDict lower event) = sanitizeEventDict lower event :=
      collect_eq nodup_collect
    unfold sanitizeEventDict at hcollect htexts hlogged ⊢
    rw [hcollect, htexts, hlogged]

/-- Two keys of one user are not told apart. -/
theorem redaction_noninterfering_sample :
    sanitizeEventDict (α := Unit) id
      [(.text "user", .sequence true [.mapping true [(.text "api-key ", .str "a")]])] =
      sanitizeEventDict id [(.text "user",
        .sequence true [.mapping true [(.text "api-key ", .str "b")]])] :=
  (redaction_noninterfering id).1 _ _
    (.shown (.sequence (.cons (.mapping (.hidden (by decide +kernel) .nil)) .nil)) .nil)

end ProjectAgent.Observability
