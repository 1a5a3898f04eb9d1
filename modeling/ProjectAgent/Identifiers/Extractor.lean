/-
`IdentifierExtractor`: the patterns, what they find in a text, and how the
automatic identifiers and the manual ones are merged.

A pattern whose case is ignored is written in small letters and compared with
what a character folds to.
-/
import ProjectAgent.Identifiers.Domain
import ProjectAgent.Lib.Regex

namespace ProjectAgent.Identifiers

open Matching (Pattern Regex)
open Matching.Regex (opt plus upTo any all notAhead notBehind)

/-! ## Characters -/

/-- What case-insensitive matching compares. -/
def fold (c : Char) : Char :=
  if c = 'İ' ∨ c = 'ı' then 'i' else if c = 'ſ' then 's' else if c = '\u212A' then 'k'
  else if 'A' ≤ c ∧ c ≤ 'Z' then Char.ofNat (c.toNat + 32) else c

/-- `[A-Z]`, case ignored. -/
def isLetter (c : Char) : Bool := isAsciiLetter (fold c)

/-- `[A-Z0-9]`, case ignored. -/
def isAlnum (c : Char) : Bool := isLetter c || isAsciiDigit c

/-- `[A-Za-z0-9_]`, case ignored. -/
def isNameChar (c : Char) : Bool := isAlnum c || c == '_'

@[simp] def letter : Regex Char := .char isLetter

@[simp] def alnum : Regex Char := .char isAlnum

@[simp] def one (c : Char) : Regex Char := .char (· == c)

@[simp] def oneOf (cs : List Char) : Regex Char := .char (· ∈ cs)

@[simp] def space : Regex Char := .char isSpace

/-- A word, case ignored. -/
@[simp] def word (text : String) : Regex Char :=
  all (text.toList.map fun l => .char fun c => fold c == l)

/-- `\b`. -/
def boundary (py : Python) : Regex Char :=
  .look fun z => z.before.head?.any py.isWord != z.after.head?.any py.isWord

/-- `^`, of several lines. -/
def lineStart : Regex Char := .look fun z => z.before.head?.all (· == '\n')

/-! ## Patterns -/

section Patterns

variable (py : Python)

@[simp] def digits : Regex Char := plus (.char py.isDigit)

/-- `(?:\.\d+)`. -/
@[simp] def dotDigits : Regex Char := .seq (one '.') (digits py)

/-- `[A-Z0-9]+(?:-[A-Z0-9]+)+`. -/
@[simp] def dashed : Regex Char := .seq (plus alnum) (plus (.seq (one '-') (plus alnum)))

def projectCodeRe : Regex Char := all [boundary py, word "prj-", dashed, boundary py]

def requirementIdRe : Regex Char :=
  all [boundary py, word "req-", digits py, plus (dotDigits py), boundary py]

def errorCodeRe : Regex Char :=
  let digit : Regex Char := .char py.isDigit
  all [boundary py, .alt (.seq (word "err-") dashed) (all [word "e", digit, digit, upTo digit 4]),
    boundary py]

def issueKeyRe : Regex Char :=
  all [notBehind fun c => isAlnum c || c == '-',
    notAhead (.seq (any [word "prj", word "req", word "err"]) (one '-')),
    letter, upTo alnum 14, one '-', digits py, boundary py]

def isPathChar (c : Char) : Bool :=
  isAsciiLetter c || isAsciiDigit c || c ∈ "._~!$&'()*+,;=:@%\x7b\x7d-/".toList

def apiPathRe : Regex Char :=
  all [notBehind fun c => isAsciiLetter c || isAsciiDigit c, all ("/api/".toList.map one),
    plus (.char isPathChar)]

def dbTableRe : Regex Char :=
  all [boundary py, any [word "t", word "tb", word "tbl"], one '_', letter,
    .star (.char isNameChar), boundary py]

def dbColumnRe : Regex Char :=
  all [boundary py, letter, .star (.char isNameChar),
    any (["_id", "_code", "_no", "_at", "_time", "_date", "_status", "_flag", "_ref"].map word),
      boundary py]

def versionRe : Regex Char :=
  all [boundary py, oneOf ['v', 'V'], digits py, upTo (dotDigits py) 2, boundary py]

/-- `match.group(0)`. -/
@[simp] def wholeMatch (r : Regex Char) : Pattern Char := ⟨.empty, r, .empty⟩

def patterns : List (IdentifierType × Pattern Char) :=
  [(.PROJECT_CODE, wholeMatch (projectCodeRe py)),
    (.REQUIREMENT_ID, wholeMatch (requirementIdRe py)),
    (.ERROR_CODE, wholeMatch (errorCodeRe py)), (.ISSUE_KEY, wholeMatch (issueKeyRe py)),
    (.API_PATH, wholeMatch apiPathRe), (.DB_TABLE, wholeMatch (dbTableRe py)),
    (.DB_COLUMN, wholeMatch (dbColumnRe py)), (.VERSION, wholeMatch (versionRe py))]

@[simp] def quote : Regex Char := opt (oneOf ['\x60', '\x22'])

/-- `([A-Za-z_][A-Za-z0-9_.]*)`. -/
@[simp] def dottedName : Regex Char :=
  .seq (.char fun c => isLetter c || c == '_') (.star (.char fun c => isNameChar c || c == '.'))

@[simp] def labeled (label : Regex Char) : Pattern Char :=
  ⟨all [label, .star space, oneOf ['：', ':', '='], .star space, quote], dottedName, quote⟩

/-- The word, with "name" after it perhaps. -/
@[simp] def withName (text : String) : Regex Char :=
  .seq (word text) (opt (.seq (plus space) (word "name")))

def tableLabel : Pattern Char := labeled (.alt (word "表名") (withName "table"))

def columnLabel : Pattern Char := labeled (any [word "字段", word "列名", withName "column"])

def sqlTable : Pattern Char :=
  ⟨all [boundary py, .alt (word "create") (word "alter"), plus space, word "table",
      opt (all [plus space, word "if", plus space, word "not", plus space, word "exists"]),
        plus space, quote],
    dottedName, quote⟩

def columnTypes : Regex Char :=
  any [word "uuid", word "bigint", word "smallint", .seq (word "int") (opt (word "eger")),
    word "varchar", word "char",
    word "text", word "boolean", word "bool", word "date", word "timestamp", word "timestamptz",
      word "numeric",
    word "decimal", word "real", word "double", .seq (word "json") (opt (word "b")), word "bytea"]

/-- `_sql_column` after its `^`. -/
def sqlColumnLine : Pattern Char :=
  ⟨.seq (.star (oneOf [' ', '\t'])) quote,
    .seq (.char fun c => isLetter c || c == '_') (.star (.char isNameChar)),
    all [quote, plus (oneOf [' ', '\t']), columnTypes, boundary py]⟩

def sqlColumn : Pattern Char :=
  { sqlColumnLine py with pre := .seq lineStart (sqlColumnLine py).pre }

def labeledPatterns : List (IdentifierType × Pattern Char) :=
  [(.DB_TABLE, tableLabel), (.DB_COLUMN, columnLabel), (.DB_TABLE, sqlTable py),
    (.DB_COLUMN, sqlColumn py)]

end Patterns

/-! ## Extraction -/

/-- What `_deduplicate` tells identifiers apart by. -/
def ExtractedIdentifier.key (item : ExtractedIdentifier) : IdentifierType × String :=
  (item.identifierType, item.normalizedValue)

def sourceRank : IdentifierSource → Nat
  | .MANUAL => 3
  | .STRUCTURE => 2
  | .REGEX => 1

/-- One round of `_deduplicate`: the dictionary, in the order of its keys. -/
def addIdentifier (byKey : List ExtractedIdentifier) (item : ExtractedIdentifier) :
    List ExtractedIdentifier :=
  if byKey.any (·.key == item.key) then
    byKey.map fun previous =>
      if previous.key = item.key ∧ sourceRank previous.source < sourceRank item.source then item
        else previous
  else byKey ++ [item]

def deduplicate (values : List ExtractedIdentifier) : List ExtractedIdentifier :=
  values.foldl addIdentifier []

/-- The model's validators: a page is one at least. -/
def extracted (identifierType : IdentifierType) (rawValue normalizedValue : String)
    (source : IdentifierSource) (pageNo : Option Int) (section_ : Option String) :
    Except IdentifierError ExtractedIdentifier :=
  if pageNo.all (1 ≤ ·) then pure ⟨identifierType, rawValue, normalizedValue, source, 1,
    pageNo, section_⟩
  else throw (.validationError "ExtractedIdentifier")

section Extract

variable (py : Python) (pageNo : Option Int) (section_ : Option String)

/-- What a pattern finds in a text. -/
def extractWith (source : IdentifierSource) (text : String)
    (entry : IdentifierType × Pattern Char) :
    Except IdentifierError (List ExtractedIdentifier) :=
  (entry.2.finditer text.toList).mapM fun raw => do
    let normalized ← normalizeIdentifier py entry.1 (String.ofList raw)
    extracted entry.1 (String.ofList raw) normalized source pageNo section_

def extractAutomatic (text : String) : Except IdentifierError (List ExtractedIdentifier) := do
  let values ← (patterns py).mapM (extractWith py pageNo section_ .REGEX text)
  let structures ← (labeledPatterns py).mapM (extractWith py pageNo section_ .STRUCTURE text)
  pure (deduplicate (values.flatten ++ structures.flatten))

def extractManual (item : ManualIdentifier) : Except IdentifierError ExtractedIdentifier := do
  let normalized ← normalizeIdentifier py item.identifierType item.rawValue
  extracted item.identifierType item.rawValue normalized .MANUAL (item.pageNo.or pageNo)
    (item.section_.or section_)

def extract (text : String) (manualIdentifiers : List ManualIdentifier)
    (manualOverrideTypes : List IdentifierType) :
    Except IdentifierError (List ExtractedIdentifier) := do
  let automatic ← extractAutomatic py pageNo section_ text
  let manual ← manualIdentifiers.mapM (extractManual py pageNo section_)
  let manualTypes := manual.map (·.identifierType) ++ manualOverrideTypes
  pure (deduplicate (automatic.filter (·.identifierType ∉ manualTypes) ++ manual))

end Extract

end ProjectAgent.Identifiers
