/-
Identifiers: their types and sources, and `normalize_identifier`, which gives
the text under which one is indexed and looked up.

`Python` is what the code takes from the character database and from the check
of a network location, with what is documented of the characters that the
patterns of the extractor may match.
-/
import ProjectAgent.Issue.Domain
import Mathlib.Data.Rat.Defs

namespace ProjectAgent

namespace IdentifierType

def value : IdentifierType → String
  | PROJECT_CODE => "project_code"
  | REQUIREMENT_ID => "requirement_id"
  | ISSUE_KEY => "issue_key"
  | API_PATH => "api_path"
  | DB_TABLE => "db_table"
  | DB_COLUMN => "db_column"
  | ERROR_CODE => "error_code"
  | VERSION => "version"

def all : List IdentifierType :=
  [PROJECT_CODE, REQUIREMENT_ID, ISSUE_KEY, API_PATH, DB_TABLE, DB_COLUMN, ERROR_CODE, VERSION]

def ofValue (text : String) : Option IdentifierType := all.find? (·.value == text)

@[simp] theorem ofValue_value (type : IdentifierType) : ofValue type.value = some type := by
  cases type <;> rfl

theorem value_injective {type type' : IdentifierType} (h : type.value = type'.value) :
    type = type' := by
  have hof := congrArg ofValue h
  rw [ofValue_value, ofValue_value] at hof
  exact Option.some.inj hof

end IdentifierType

namespace Identifiers

inductive IdentifierSource where
  | REGEX | STRUCTURE | MANUAL
deriving DecidableEq

namespace IdentifierSource

def value : IdentifierSource → String
  | REGEX => "regex"
  | STRUCTURE => "structure"
  | MANUAL => "manual"

def all : List IdentifierSource := [REGEX, STRUCTURE, MANUAL]

def ofValue (text : String) : Option IdentifierSource := all.find? (·.value == text)

@[simp] theorem ofValue_value (source : IdentifierSource) : ofValue source.value = some source := by
  cases source <;> rfl

end IdentifierSource

structure ManualIdentifier where
  identifierType : IdentifierType
  rawValue : String
  pageNo : Option Int
  section_ : Option String

structure ExtractedIdentifier where
  identifierType : IdentifierType
  rawValue : String
  normalizedValue : String
  source : IdentifierSource
  confidence : ℚ
  pageNo : Option Int
  section_ : Option String

inductive IdentifierError where
  | valueError (text : String)
  /-- Raised by the validators of a model. -/
  | validationError (model : String)
deriving DecidableEq

/-! ## Characters -/

/-- The letters outside ASCII that `[A-Z]` takes when case is ignored: the dotted and the dotless I,
the long s, the Kelvin sign. -/
def foldedLetters : List Char := ['İ', 'ı', 'ſ', '\u212A']

/-- What a pattern may match that is not a decimal digit. -/
def plainChar (c : Char) : Bool := c.toNat < 128 || c ∈ foldedLetters

def upperChar (c : Char) : Char :=
  if c = 'ı' then 'I' else if c = 'ſ' then 'S' else if 'a' ≤ c ∧
    c ≤ 'z' then Char.ofNat (c.toNat - 32) else c

def lowerChar (c : Char) : List Char :=
  if c = 'İ' then ['i', '\u0307'] else if c = '\u212A' then ['k']
  else if 'A' ≤ c ∧ c ≤ 'Z' then [Char.ofNat (c.toNat + 32)] else [c]

/-- What `normalize_identifier` strips besides whitespace. -/
def punctuation : List Char := ".,;:，。；：()[]\x7b\x7d<>《》".toList

/-- Neither stripped as whitespace nor as punctuation. -/
def keptChar (c : Char) : Bool := !isSpace c && c ∉ punctuation

structure Python where
  /-- `\w`. -/
  isWord : Char → Bool
  /-- `\d`. -/
  isDigit : Char → Bool
  upper : String → String
  lower : String → String
  /-- The checks of `urlsplit` do not raise. -/
  netlocOk : List Char → Bool
  isWord_space : ∀ c, isSpace c = true → isWord c = false
  isDigit_kept : ∀ c, isDigit c = true → keptChar c = true ∧ c ≠ '.' ∧ c ≠ 'v' ∧ upperChar c = c
  upper_plain : ∀ cs, (∀ c ∈ cs, plainChar c = true ∨ isDigit c = true) →
    upper (String.ofList cs) = String.ofList (cs.map upperChar)
  lower_plain : ∀ cs, (∀ c ∈ cs, plainChar c = true ∨ c = '\u0307') →
    lower (String.ofList cs) = String.ofList (cs.flatMap lowerChar)

/-- Of ASCII and the four letters. -/
def Python.ascii : Python where
  isWord c := c ∈ "abcdefghijklmnopqrstuvwxyzABCDEFGHIJKLMNOPQRSTUVWXYZ0123456789_".toList ++
    foldedLetters
  isDigit c := c ∈ "0123456789".toList
  upper text := String.ofList (text.toList.map upperChar)
  lower text := String.ofList (text.toList.flatMap lowerChar)
  netlocOk _ := true
  isWord_space c hspace := by
    by_contra hword
    rw [Bool.not_eq_false, decide_eq_true_eq] at hword
    have hnone : ∀ c ∈ "abcdefghijklmnopqrstuvwxyzABCDEFGHIJKLMNOPQRSTUVWXYZ0123456789_".toList ++
      foldedLetters,
        isSpace c = false := by decide
    exact Bool.false_ne_true ((hnone c hword).symm.trans hspace)
  isDigit_kept c hdigit := by
    rw [decide_eq_true_eq] at hdigit
    have hall : ∀ c ∈ "0123456789".toList, keptChar c = true ∧ c ≠ '.' ∧ c ≠ 'v' ∧
        upperChar c = c := by decide
    exact hall c hdigit
  upper_plain cs _ := by rw [String.toList_ofList]
  lower_plain cs _ := by rw [String.toList_ofList]

/-! ## Texts -/

/-- `text.replace("/" * n, "/")`, of two and more. -/
def squeeze : List Char → List Char
  | '/' :: '/' :: rest => squeeze ('/' :: rest)
  | c :: rest => c :: squeeze rest
  | [] => []

/-- `text.rstrip(character)`. -/
def rstrip (c : Char) (cs : List Char) : List Char := (cs.reverse.dropWhile (· == c)).reverse

/-- `text.split(character, 1)[0]`. -/
def until_ (c : Char) (cs : List Char) : List Char := cs.takeWhile (· != c)

/-- `text.rsplit(".", 1)[1]`, of a text with a dot, and otherwise the text. -/
def afterLastDot (cs : List Char) : List Char := (cs.reverse.takeWhile (· != '.')).reverse

/-! ## `urlsplit` -/

def isAsciiLetter (c : Char) : Bool := 'a' ≤ c && c ≤ 'z' || 'A' ≤ c && c ≤ 'Z'

def isAsciiDigit (c : Char) : Bool := '0' ≤ c && c ≤ '9'

def isSchemeChar (c : Char) : Bool :=
  isAsciiLetter c || isAsciiDigit c || c == '+' || c == '-' || c == '.'

/-- The url without its scheme. -/
def withoutScheme (url : List Char) : List Char :=
  let scheme := until_ ':' url
  if url.contains ':' && scheme.head?.any isAsciiLetter && scheme.all isSchemeChar then
    url.drop (scheme.length + 1) else url

/-- `urlsplit(url).path`. -/
def urlPath (py : Python) (url : List Char) : Except IdentifierError (List Char) :=
  let url := (url.dropWhile fun c => c.toNat ≤ 32).filter fun c =>
    c != '\t' && c != '\r' && c != '\n'
  let url := withoutScheme url
  if url.take 2 = ['/', '/'] then
    let netloc := (url.drop 2).takeWhile fun c => c != '/' && c != '?' && c != '#'
    if py.netlocOk netloc then .ok (until_ '?' (until_ '#' (url.drop (2 + netloc.length))))
    else .error (.valueError "Invalid IPv6 URL")
  else .ok (until_ '?' (until_ '#' url))

/-! ## `normalize_identifier` -/

/-- `\d+(?:\.\d+){1,3}`. -/
def isVersionNumber (py : Python) (cs : List Char) : Bool :=
  let parts := cs.splitOn '.'
  2 ≤ parts.length && parts.length ≤ 4 && parts.all fun part => part ≠ [] && part.all py.isDigit

/-- The group of `_VERSION_RE.fullmatch`. -/
def versionNumber (py : Python) (value : List Char) : Option (List Char) :=
  let rest := match value with
    | 'v' :: rest | 'V' :: rest => rest
    | rest => rest
  let number := rest.dropWhile isSpace
  if isVersionNumber py number then some number else none

def normalizeApiPath (py : Python) (value : List Char) : Except IdentifierError (List Char) :=
  if value.head?.any isAsciiLetter && value[1]? == some ':' then
    .error (.valueError "windows drive path is not an API identifier")
  else do
    let parsed ← urlPath py value
    let path := squeeze (if parsed = [] then until_ '#' (until_ '?' value) else parsed)
    let path := if 1 < path.length then rstrip '/' path else path
    pure (if path.head? = some '/' then path else '/' :: path)

def normalizeIdentifier (py : Python) (identifierType : IdentifierType) (rawValue : String) :
    Except IdentifierError String :=
  let value := stripChars (· ∈ punctuation) (strip rawValue).toList
  if value = [] then .error (.valueError "identifier cannot be blank")
  else
    match identifierType with
    | .PROJECT_CODE | .REQUIREMENT_ID | .ISSUE_KEY | .ERROR_CODE =>
      .ok (py.upper (String.ofList value))
    | .VERSION =>
      match versionNumber py value with
      | none => .ok (String.ofList ((py.lower (String.ofList value)).toList.filter (· != ' ')))
      | some number => .ok (String.ofList ('v' :: number))
    | .API_PATH => (normalizeApiPath py value).map String.ofList
    | .DB_TABLE | .DB_COLUMN =>
      let cleaned := stripChars isSpace (value.filter fun c => c != '\x60' && c != '\x22')
      .ok (py.lower (String.ofList (afterLastDot cleaned)))

end Identifiers

end ProjectAgent
