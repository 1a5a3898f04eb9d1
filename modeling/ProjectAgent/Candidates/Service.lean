/-
`IssueCandidateService`: the issues of a project that may be what a query is
about, as the tracker returns them and as the service ranks them; and the
sandbox tracker, which returns the newest issues of a project.

Times are microseconds since the epoch. `Python` holds what is taken from the
language and from the database as it is.
-/
import Mathlib.Data.String.Basic
import ProjectAgent.Evidence.Domain
import ProjectAgent.Lib.Double
import ProjectAgent.Lib.Precedence
import ProjectAgent.Lib.Regex

namespace ProjectAgent.Candidates

open Double (double roundTo)
open Evidence (Score)
open Matching (Pattern Regex)
open Precedence (Before)

structure Python where
  upper : String → String
  casefold : String → String
  /-- The text matches `ILIKE` with the other between percent signs. -/
  contains : String → String → Bool
  /-- The order of texts in the database. -/
  collates : String → String → Bool

/-! ## The tracker -/

structure SearchIssuesRequest where
  projectId : String
  query : Option String
  errorCode : Option String
  module : Option String
  statuses : List String
  limit : Int

structure ProjectIssue where
  projectId : String
  issueKey : String
  title : String
  description : String
  status : String
  issueType : String
  priority : String
  module : Option String
  errorCode : Option String
  environment : Option String
  createdAt : Option Int
deriving DecidableEq

/-- What the tracker reads of a row of `sandbox_issues`. -/
structure SandboxIssueRow where
  projectId : UUID
  issueKey : String
  title : String
  description : String
  status : String
  issueType : String
  priority : String
  module : Option String
  errorCode : Option String
  environment : Option String
  createdAt : Int
deriving DecidableEq

def toProjectIssue (row : SandboxIssueRow) : ProjectIssue :=
  ⟨row.projectId.str, row.issueKey, row.title, row.description, row.status, row.issueType,
    row.priority, row.module, row.errorCode,
    row.environment, some row.createdAt⟩

inductive CandidateError where
  | valueError (text : String)
deriving DecidableEq

section Tracker

variable (py : Python)

/-- The conditions of the `SELECT` besides the project. -/
def searched (request : SearchIssuesRequest) (row : SandboxIssueRow) : Bool :=
  request.errorCode.all (fun code => row.errorCode = some (py.upper (strip code))) &&
    request.module.all (fun module => row.module = some (strip module)) &&
    (request.statuses.isEmpty || request.statuses.any fun status =>
      row.status = py.upper (strip status)) &&
    request.query.all fun query => strip query = "" || py.contains row.title (strip query) ||
      py.contains row.description (strip query)

/-- `ORDER BY created_at DESC, issue_key ASC`. -/
def NewestFirst (a b : SandboxIssueRow) : Prop :=
  b.createdAt < a.createdAt ∨ a.createdAt = b.createdAt ∧ py.collates a.issueKey b.issueKey = true

instance : DecidableRel (NewestFirst py) := fun _ _ => inferInstanceAs (Decidable (_ ∨ _))

def searchIssues (rows : List SandboxIssueRow) (request : SearchIssuesRequest) :
    Except CandidateError (List ProjectIssue) :=
  if request.limit < 1 ∨ 100 < request.limit then
    .error (.valueError "limit must be between 1 and 100")
  else
    match UUID.parse request.projectId with
    | none => .error (.valueError "project_id must be a UUID string")
    | some projectId =>
      let found := rows.filter fun row => row.projectId = projectId && searched py request row
      .ok (((found.insertionSort (NewestFirst py)).take request.limit.toNat).map toProjectIssue)

end Tracker

/-! ## The query -/

structure IssueCandidateQuery where
  projectId : String
  title : String
  description : String
  errorCode : Option String
  module : Option String
  statuses : List String
  semanticScores : List (String × Score)
  limit : Nat
  nonempty : projectId ≠ "" ∧ title ≠ "" ∧ description ≠ ""
  bounded : 1 ≤ limit ∧ limit ≤ 20

structure IssueCandidate where
  issue : ProjectIssue
  score : ℚ
  reasons : List String
  semanticScore : Option ℚ
deriving DecidableEq

inductive IssueCandidateAction where
  | VIEW_EXISTING | LINK_EXISTING | CONTINUE_CREATE | CANCEL
deriving DecidableEq

structure IssueCandidateResult where
  query : IssueCandidateQuery
  possibleDuplicates : List IssueCandidate
  userOptions : List IssueCandidateAction

/-! ## Signals -/

/-- `[A-Za-z0-9_]`. -/
def isLatin (c : Char) : Bool :=
  'a' ≤ c && c ≤ 'z' || 'A' ≤ c && c ≤ 'Z' || '0' ≤ c && c ≤ '9' || c == '_'

/-- `[\u4e00-\u9fff]`. -/
def isCjk (c : Char) : Bool := 0x4e00 ≤ c.toNat && c.toNat ≤ 0x9fff

def run (p : Char → Bool) : Pattern Char := ⟨.empty, Regex.plus (.char p), .empty⟩

/-- Each character with the next. -/
def pairs (cs : List Char) : List (List Char) :=
  (cs.zip (cs.drop 1)).map fun pair => [pair.1, pair.2]

section Service

variable (py : Python) (query : IssueCandidateQuery) (issue : ProjectIssue)

/-- The set of the tokens, as a list without repetitions. -/
def tokens (value : String) : List String :=
  let latin := ((run isLatin).finditer value.toList).filterMap fun token =>
    if 1 < token.length then some (py.casefold (String.ofList token)) else none
  let cjk := ((run isCjk).finditer value.toList).flatMap fun run =>
    if run.length = 1 then [String.ofList run] else (pairs run).map String.ofList
  (latin ++ cjk).eraseDups

def overlap (left right : List String) : ℚ :=
  if left.isEmpty ∨ right.isEmpty then 0
  else double ((left.filter (· ∈ right)).length / (max 1 (min left.length right.length) : ℕ))

/-- Both are there, and the same in that case. -/
def sameText (convert : String → String) (left right : Option String) : Bool :=
  match orNone left, orNone right with
  | some left, some right => convert right = convert left
  | _, _ => false

def statusScores : List (String × ℚ) :=
  [("OPEN", 8), ("REOPENED", 8), ("IN_PROGRESS", 7), ("RESOLVED", 3), ("CLOSED", 0)]

/-- A status of the issue is asked for. -/
def requestedStatus : Bool := py.upper issue.status ∈ query.statuses.map py.upper

/-- `max(0.0, min(score, 1.0))`. -/
def boundedScore (score : Score) : ℚ :=
  let least := if Score.lt (.finite 1) score then .finite 1 else score
  match if Score.lt (.finite 0) least then least else .finite 0 with
  | .finite value => value
  | _ => 0

def semanticScore : Option ℚ := (query.semanticScores.lookup issue.issueKey).map boundedScore

/-- The signals of an issue, in the order of their precedence. -/
structure Signals where
  exactError : ℚ
  moduleMatch : ℚ
  titleOverlap : ℚ
  descriptionOverlap : ℚ
  statusScore : ℚ
  boundedSemantic : ℚ
deriving DecidableEq

def signals : Signals where
  exactError := if sameText py.upper query.errorCode issue.errorCode then 1 else 0
  moduleMatch := if sameText py.casefold query.module issue.module then 1 else 0
  titleOverlap := overlap (tokens py query.title) (tokens py issue.title)
  descriptionOverlap := overlap (tokens py query.description) (tokens py issue.description)
  statusScore := (statusScores.lookup (py.upper issue.status)).getD 0 +
    if requestedStatus py query issue then 10 else 0
  boundedSemantic := (semanticScore query issue).getD 0

def matched : Bool :=
  sameText py.upper query.errorCode issue.errorCode ||
    sameText py.casefold query.module issue.module ||
    0 < (signals py query issue).titleOverlap || 0 < (signals py query issue).descriptionOverlap ||
    requestedStatus py query issue || 0 < (signals py query issue).boundedSemantic

/-- The issue is of the project and matches. -/
def listed : Bool := issue.projectId = query.projectId && matched py query issue

def reasons : List String :=
  let signal := signals py query issue
  (if sameText py.upper query.errorCode issue.errorCode then ["exact_error_code"] else []) ++
    (if sameText py.casefold query.module issue.module then ["module_match"] else []) ++
    (if 0 < signal.titleOverlap then ["title_keyword"] else []) ++
    (if 0 < signal.descriptionOverlap then ["description_keyword"] else []) ++
    (if requestedStatus py query issue then ["requested_status"] else []) ++
    ["status:" ++ py.upper issue.status] ++
    if 0 < signal.boundedSemantic then ["semantic_score"] else []

/-- The sum of floats, rounded at each step. -/
def displayScore : ℚ :=
  let signal := signals py query issue
  double (double (double (double (double (signal.exactError * 1000 + signal.moduleMatch * 100) +
    double (signal.titleOverlap * 20)) + double (signal.descriptionOverlap * 10)) +
      signal.statusScore) +
      double (signal.boundedSemantic * 5))

def candidate : IssueCandidate :=
  ⟨issue, roundTo 6 (displayScore py query issue), reasons py query issue,
    semanticScore query issue⟩

/-- `created_at.timestamp()`, or zero without it. -/
def timestamp : ℚ :=
  match issue.createdAt with
  | some micros => double (micros / 1000000)
  | none => 0

def rankKey : List ℚ :=
  let signal := signals py query issue
  [signal.exactError, signal.moduleMatch, signal.titleOverlap, signal.descriptionOverlap,
    signal.statusScore, signal.boundedSemantic,
    timestamp issue]

/-! ## The service -/

variable (pool : List ProjectIssue)

/-- The issues of the pool that are ranked, in the order of their keys. -/
def rankedIssues : List ProjectIssue :=
  (pool.filter (listed py query)).insertionSort (Before (rankKey py query) (·.issueKey))

/-- `find_candidates` after the search. -/
def rankPool : IssueCandidateResult where
  query := query
  possibleDuplicates := ((rankedIssues py query pool).take query.limit).map (candidate py query)
  userOptions := [.VIEW_EXISTING, .LINK_EXISTING, .CONTINUE_CREATE, .CANCEL]

def findCandidates (rows : List SandboxIssueRow) : Except CandidateError IssueCandidateResult := do
  let pool ← searchIssues py rows ⟨query.projectId, none, none, none, [], 100⟩
  pure (rankPool py query pool)

end Service

end ProjectAgent.Candidates
