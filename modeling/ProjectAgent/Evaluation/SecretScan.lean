/-
`ArtifactStore.write_json`: a payload is converted, looked through for secrets,
encoded and put in the place of a file.

The scan goes into mappings and lists and looks at the texts in them; a mapping's
keys it only looks through for the markers, and a tuple it does not go into. The
conversion leaves no tuple but what an enumeration member's value holds.
-/
import Mathlib.Data.List.Sort
import Mathlib.Data.String.Basic
import Mathlib.Logic.Function.Basic
import ProjectAgent.Identifiers.Extractor
import ProjectAgent.Lib.Double
import ProjectAgent.Lib.Fallible

namespace ProjectAgent.Evaluation

open Identifiers (isAlnum isAsciiLetter isAsciiDigit one space word)
open Matching (Regex)
open Matching.Regex (all atLeast notAhead notBehind plus textStart)

abbrev Bytes := List UInt8

/-- What is taken from the language as it is. -/
structure Language where
  /-- `\w`. -/
  isWord : Char → Bool
  casefold : String → String
  /-- `float.__repr__`. -/
  floatRepr : ℚ → String
  sha256 : Bytes → String

variable (lang : Language)

/-! ## Patterns -/

def wordEdge : Regex Char :=
  .look fun z => z.before.head?.any lang.isWord != z.after.head?.any lang.isWord

def bearerRe : Regex Char :=
  all [wordEdge lang, word "bearer", plus space,
    atLeast (.char fun c => isAlnum c || c ∈ "._~+/=-".toList) 8]

def isTokenChar (c : Char) : Bool := isAsciiLetter c || isAsciiDigit c || c == '_' || c == '-'

def jwtRe : Regex Char :=
  let part := atLeast (.char isTokenChar) 8
  all [notBehind isTokenChar, part, one '.', part, one '.', part, notAhead (.char isTokenChar)]

/-- The pattern of `_CREDENTIAL_URL_RE` without its anchor. -/
def credentialUrl : Regex Char :=
  all [.char isAsciiLetter, .star (.char fun c => isAsciiLetter c || isAsciiDigit c || c ∈
    ['+', '.', '-']),
    one ':', one '/', one '/', plus (.char fun c => !(c ∈ ['/', '@', ':']) && !isSpace c), one ':',
    plus (.char fun c => !(c ∈ ['/', '@']) && !isSpace c), one '@']

def credentialUrlRe : Regex Char := .seq textStart credentialUrl

def secretKeyMarkers : List String :=
  ["authorization", "api_key", "apikey", "password", "database_url", "jwt"]

/-- `re.sub(r"[^a-z0-9]+", "_", ...)`; the flag says that the character before was replaced. -/
def replaceOthers : Bool → List Char → List Char
  | _, [] => []
  | replaced, c :: rest =>
    if 'a' ≤ c ∧ c ≤ 'z' ∨ isAsciiDigit c then c :: replaceOthers false rest
    else if replaced then replaceOthers true rest
    else '_' :: replaceOthers true rest

def normaliseKey (key : String) : String :=
  let replaced := (replaceOthers false (lang.casefold key).toList).dropWhile (· == '_')
  String.ofList (replaced.reverse.dropWhile (· == '_')).reverse

/-- `marker in text`. -/
def occursIn (text marker : String) : Bool :=
  text.toList.tails.any fun rest => marker.toList.isPrefixOf rest

def isSecretKey (key : String) : Bool := secretKeyMarkers.any (occursIn (normaliseKey lang key))

/-! ## Payloads -/

/-- A text with lone surrogates is no UTF-8; it has U+FFFD here in their places. -/
inductive Key where
  | str (text : String)
  | loneStr (text : String)
  | int (value : Int)
  /-- Of a type that `json.dumps` refuses. -/
  | other (text : String)

/-- `str(key)`, and the text `json.dumps` writes. -/
def Key.text : Key → String
  | .str text | .loneStr text | .other text => text
  | .int value => toString value

/-- What the conversion gives; a member's value may be anything. -/
inductive Raw where
  | null
  | bool (value : Bool)
  | int (value : Int)
  | float (value : Double.Number)
  | str (text : String)
  | loneStr (text : String)
  | list (items : List Raw)
  | tuple (items : List Raw)
  | dict (entries : List (Key × Raw))
  /-- Of a type that `json.dumps` refuses. -/
  | other (typeName : String)

inductive Payload where
  | null
  | bool (value : Bool)
  | int (value : Int)
  | float (value : Double.Number)
  | str (text : String)
  | loneStr (text : String)
  | enum (value : Raw)
  /-- A path or a UUID, by its text. -/
  | printed (text : String)
  | dataclass (fields : List (String × Payload))
  | mapping (entries : List (Key × Payload))
  /-- A tuple or a list. -/
  | sequence (items : List Payload)
  /-- An object with `model_dump`. -/
  | model (dumped : Payload)
  | other (typeName : String)

inductive WriteError where
  | typeError (text : String)
  | valueError (text : String)
  | secretArtifactError (text : String)
  | osError (call : String)
deriving DecidableEq

/-! ## Conversion -/

mutual

def toJsonable : Payload → Except WriteError Raw
  | .null => .ok .null
  | .bool value => .ok (.bool value)
  | .int value => .ok (.int value)
  | .float value => .ok (.float value)
  | .str text | .printed text => .ok (.str text)
  | .loneStr text => .ok (.loneStr text)
  | .enum value => .ok value
  | .dataclass fields => do return .dict (← fieldsToJsonable fields)
  | .mapping entries => do return .dict (← entriesToJsonable entries)
  | .sequence items => do return .list (← itemsToJsonable items)
  | .model dumped => toJsonable dumped
  | .other typeName => .error (.typeError ("unsupported evaluation artifact value: " ++ typeName))

def fieldsToJsonable : List (String × Payload) → Except WriteError (List (Key × Raw))
  | [] => .ok []
  | (name, value) :: fields =>
    do return (.str name, ← toJsonable value) :: (← fieldsToJsonable fields)

def entriesToJsonable : List (Key × Payload) → Except WriteError (List (Key × Raw))
  | [] => .ok []
  | (.str key, value) :: entries =>
    do return (.str key, ← toJsonable value) :: (← entriesToJsonable entries)
  | (.loneStr key, value) :: entries =>
    do return (.loneStr key, ← toJsonable value) :: (← entriesToJsonable entries)
  | (_, _) :: _ => .error (.typeError "evaluation artifact mappings require string keys")

def itemsToJsonable : List Payload → Except WriteError (List Raw)
  | [] => .ok []
  | item :: items => do return (← toJsonable item) :: (← itemsToJsonable items)

end

/-! ## The scan -/

def textSecretSafe (path text : String) : Except WriteError Unit :=
  if (bearerRe lang).search text.toList then
    .error (.secretArtifactError ("Bearer token is forbidden at " ++ path))
  else if jwtRe.search text.toList then
    .error (.secretArtifactError ("JWT-like value is forbidden at " ++ path))
  else if credentialUrlRe.search text.toList then
    .error (.secretArtifactError ("credential-bearing URL is forbidden at " ++ path))
  else .ok ()

mutual

def assertSecretSafe : String → Raw → Except WriteError Unit
  | path, .dict entries => entriesSecretSafe path entries
  | path, .list items => itemsSecretSafe path 0 items
  | path, .str text | path, .loneStr text => textSecretSafe lang path text
  | _, .null | _, .bool _ | _, .int _ | _, .float _ | _, .tuple _ | _, .other _ => .ok ()

def entriesSecretSafe : String → List (Key × Raw) → Except WriteError Unit
  | _, [] => .ok ()
  | path, (key, item) :: entries =>
    if isSecretKey lang key.text then
      .error (.secretArtifactError ("secret-like field is forbidden at " ++ path ++
        "." ++ key.text))
    else do
      assertSecretSafe (path ++ "." ++ key.text) item
      entriesSecretSafe path entries

def itemsSecretSafe : String → Nat → List Raw → Except WriteError Unit
  | _, _, [] => .ok ()
  | path, index, item :: items => do
    assertSecretSafe (path ++ "[" ++ toString index ++ "]") item
    itemsSecretSafe path (index + 1) items

end

/-! ## Encoding -/

/-- The entries in the order of their keys; texts and numbers have none among each other. -/
def sortEntries {α : Type} (entries : List (Key × α)) : Except WriteError (List (String × α)) :=
  match entries.mapM (fun entry =>
    match entry.1 with | .str text | .loneStr text => some (text, entry.2) | _ => none),
      entries.mapM (fun entry =>
        match entry.1 with | .int value => some (value, entry.2) | _ => none) with
  | some texts, _ => .ok (texts.insertionSort fun a b => a.1 ≤ b.1)
  | none, some numbers =>
    .ok ((numbers.insertionSort fun a b => a.1 ≤ b.1).map fun entry => (toString entry.1, entry.2))
  | none, none => .error (.typeError "the keys of an object are compared, or are no text")

def commaSeparated : List (List Char) → List Char
  | [] => []
  | [part] => part
  | part :: parts => part ++ ',' :: commaSeparated parts

mutual

/-- The text of a value; the members of an object are put in order, and then encoded. An
integer may have more than the 4300 digits that are turned into text, and a value may be
nested deeper than the recursion goes. -/
def encode : Raw → Except WriteError (List Char)
  | .null => .ok "null".toList
  | .bool value => .ok (if value then "true".toList else "false".toList)
  | .int value => .ok (toString value).toList
  | .float (.finite value) => .ok (lang.floatRepr value).toList
  | .float _ => .error (.valueError "Out of range float values are not JSON compliant")
  | .str text | .loneStr text => .ok (Json.encodeString text)
  | .list items | .tuple items => do return '[' :: (commaSeparated (← encodeItems items) ++ [']'])
  | .dict entries => do
    let sorted ← sortEntries (encodeEntries entries)
    let members ← sorted.mapM fun entry => do return Json.encodeString entry.1 ++ ':' :: (← entry.2)
    return '\x7b' :: (commaSeparated members ++ ['\x7d'])
  | .other typeName =>
    .error (.typeError ("Object of type " ++ typeName ++ " is not JSON serializable"))

def encodeEntries : List (Key × Raw) → List (Key × Except WriteError (List Char))
  | [] => []
  | (key, value) :: entries => (key, encode value) :: encodeEntries entries

def encodeItems : List Raw → Except WriteError (List (List Char))
  | [] => .ok []
  | item :: items => do return (← encode item) :: (← encodeItems items)

end

mutual

/-- Some text in it is no UTF-8. -/
def hasLone : Raw → Bool
  | .loneStr _ => true
  | .list items | .tuple items => itemsHaveLone items
  | .dict entries => entriesHaveLone entries
  | .null | .bool _ | .int _ | .float _ | .str _ | .other _ => false

def entriesHaveLone : List (Key × Raw) → Bool
  | [] => false
  | (.loneStr _, _) :: _ => true
  | (_, value) :: entries => hasLone value || entriesHaveLone entries

def itemsHaveLone : List Raw → Bool
  | [] => false
  | item :: items => hasLone item || itemsHaveLone items

end

/-- `json.dumps` of the value and a newline, as UTF-8. -/
def encoded (value : Raw) : Except WriteError Bytes := do
  let text ← encode lang value
  if hasLone value then .error (.valueError "surrogates not allowed")
  else return (String.ofList (text ++ ['\n'])).toUTF8.toList

/-! ## The file -/

/-- The files of the target's directory. -/
abbrev Directory := String → Option Bytes

/-- What the operating system does in one call of `write_json`. -/
structure System where
  /-- The random parts of temporary names, in the order of trial. -/
  candidates : List String
  mkdirFails : Bool
  createFails : Bool
  writeFails : Bool
  /-- What stands in the file where writing or flushing fails. -/
  leftOver : Bytes
  flushFails : Bool
  fsyncFails : Bool
  closeFails : Bool
  replaceFails : Bool
  /-- But for a file that is not there. -/
  unlinkFails : Bool

variable (sys : System)

/-- `NamedTemporaryFile`: the first name that is not taken. -/
def createTemp (files : Directory) (name : String) : Option String :=
  if sys.createFails then none
  else (sys.candidates.map fun random => "." ++ name ++ "." ++ random ++ ".tmp").find? fun temp =>
    files temp = none

/-- The call between the creation of the temporary file and its replacing the target that fails
first. -/
def firstFailure : Option String :=
  if sys.writeFails then some "write"
  else if sys.flushFails then some "flush"
  else if sys.fsyncFails then some "fsync"
  else if sys.closeFails then some "close"
  else if sys.replaceFails then some "replace"
  else none

def writeFile (files : Directory) (name : String) (data : Bytes) :
    Except WriteError Unit × Directory :=
  if sys.mkdirFails then (.error (.osError "mkdir"), files)
  else
    match createTemp sys files name with
    | none => (.error (.osError "create"), files)
    | some temp =>
      let content := if sys.writeFails || sys.flushFails then sys.leftOver else data
      let staged := Function.update files temp (some content)
      match firstFailure sys with
      | some call =>
        if sys.unlinkFails then (.error (.osError "unlink"), staged)
        else (.error (.osError call), Function.update staged temp none)
      | none => (.ok (), Function.update (Function.update staged temp none) name (some data))

/-- What is to be written, or what the payload is refused with. -/
def prepared (payload : Payload) : Except WriteError Bytes := do
  let jsonable ← toJsonable payload
  assertSecretSafe lang "$" jsonable
  encoded lang jsonable

def writeJson (files : Directory) (name : String) (payload : Payload) :
    Except WriteError String × Directory :=
  match prepared lang payload with
  | .error e => (.error e, files)
  | .ok data =>
    match writeFile sys files name data with
    | (.error e, files') => (.error e, files')
    | (.ok (), files') => (.ok (lang.sha256 data), files')

end ProjectAgent.Evaluation
