/-
The ranking of the candidates. It is strict: of two that are listed, the first
is greater at the first signal at which they differ, or newer, or has the
smaller key. It ranks what the tracker returns, the newest hundred issues of the
project, so that an older issue is left out whatever its signals are.
-/
import ProjectAgent.Candidates.Service

namespace ProjectAgent.Candidates

open Evidence (Score)
open Precedence (Before Precedes)

variable {py : Python} {query : IssueCandidateQuery} {issue : ProjectIssue}
  {pool pool' issues : List ProjectIssue}
  {rows : List SandboxIssueRow} {row : SandboxIssueRow} {projectId : UUID}

/-! ## Matches -/

/-- The issue matches one of the signals. -/
def Matches (py : Python) (query : IssueCandidateQuery) (issue : ProjectIssue) : Prop :=
  sameText py.upper query.errorCode issue.errorCode = true ∨
    sameText py.casefold query.module issue.module = true ∨
    (∃ token ∈ tokens py query.title, token ∈ tokens py issue.title) ∨
    (∃ token ∈ tokens py query.description, token ∈ tokens py issue.description) ∨
    requestedStatus py query issue = true ∨
    ∃ score, query.semanticScores.lookup issue.issueKey = some score ∧
      Score.lt (.finite 0) score = true

theorem overlap_pos {left right : List String} :
    0 < overlap left right ↔ ∃ token ∈ left, token ∈ right := by
  unfold overlap
  split
  · next hempty =>
    refine iff_of_false (lt_irrefl 0) ?_
    rintro ⟨token, hleft, hright⟩
    rcases hempty with h | h
    · exact List.not_mem_nil (List.isEmpty_iff.mp h ▸ hleft)
    · exact List.not_mem_nil (List.isEmpty_iff.mp h ▸ hright)
  · have hcount : 0 < (left.filter (· ∈ right)).length ↔ ∃ token ∈ left, token ∈ right := by
      rw [List.length_pos_iff_exists_mem]
      simp only [List.mem_filter, decide_eq_true_iff]
    rw [← hcount]
    have hdivisor : (0 : ℚ) < (max 1 (min left.length right.length) : ℕ) := by
      exact_mod_cast lt_max_of_lt_left Nat.one_pos
    constructor
    · intro h
      by_contra hzero
      rw [Nat.eq_zero_of_not_pos hzero, Nat.cast_zero, zero_div, Double.double_zero] at h
      exact lt_irrefl 0 h
    · intro h
      exact Double.double_pos (div_pos (by exact_mod_cast h) hdivisor)

theorem boundedScore_pos {score : Score} :
    0 < boundedScore score ↔ Score.lt (.finite 0) score = true := by
  cases score with
  | nan | negInf => exact iff_of_false (lt_irrefl 0) Bool.false_ne_true
  | posInf => exact iff_of_true one_pos rfl
  | finite value =>
    have hlt (a b : ℚ) : Score.lt (.finite a) (.finite b) = decide (a < b) := rfl
    unfold boundedScore
    simp only [hlt, decide_eq_true_iff]
    by_cases hone : 1 < value
    · simp only [if_pos hone, hlt, decide_eq_true_iff]
      rw [if_pos one_pos]
      exact iff_of_true one_pos (one_pos.trans hone)
    · simp only [if_neg hone, hlt, decide_eq_true_iff]
      by_cases hzero : 0 < value
      · rw [if_pos hzero]
      · rw [if_neg hzero]
        exact iff_of_false (lt_irrefl 0) hzero

theorem matched_iff : matched py query issue = true ↔ Matches py query issue := by
  have hsemantic : 0 < (signals py query issue).boundedSemantic ↔
      ∃ score, query.semanticScores.lookup issue.issueKey = some score ∧
        Score.lt (.finite 0) score = true := by
    unfold signals semanticScore
    cases query.semanticScores.lookup issue.issueKey with
    | none => exact iff_of_false (lt_irrefl 0) fun ⟨_, h, _⟩ => nomatch h
    | some score =>
      refine boundedScore_pos.trans ⟨fun h => ⟨score, rfl, h⟩, ?_⟩
      rintro ⟨_, hscore, h⟩
      rwa [Option.some.inj hscore]
  unfold matched Matches
  simp only [Bool.or_eq_true, decide_eq_true_iff, or_assoc]
  rw [hsemantic]
  unfold signals
  rw [overlap_pos, overlap_pos]

/-! ## The order of the candidates -/

/-- The first is greater at the first signal at which they differ, or newer, or has the smaller
key. -/
def Outranks (py : Python) (query : IssueCandidateQuery) (a b : ProjectIssue) : Prop :=
  let s := signals py query a
  let t := signals py query b
  t.exactError < s.exactError ∨ s.exactError = t.exactError ∧
    (t.moduleMatch < s.moduleMatch ∨ s.moduleMatch = t.moduleMatch ∧
      (t.titleOverlap < s.titleOverlap ∨ s.titleOverlap = t.titleOverlap ∧
        (t.descriptionOverlap < s.descriptionOverlap ∨ s.descriptionOverlap = t.descriptionOverlap ∧
          (t.statusScore < s.statusScore ∨ s.statusScore = t.statusScore ∧
            (t.boundedSemantic < s.boundedSemantic ∨ s.boundedSemantic = t.boundedSemantic ∧
              (timestamp b < timestamp a ∨ timestamp a = timestamp b ∧ a.issueKey < b.issueKey))))))

/-- The matching ones among the issues, each before those that it outranks. -/
structure Ranking (py : Python) (query : IssueCandidateQuery) (issues ranking : List ProjectIssue) :
    Prop where
  nodup : ranking.Nodup
  mem : ∀ issue, issue ∈ ranking ↔ issue ∈ issues ∧ Matches py query issue
  sorted : ranking.Pairwise (Outranks py query)

theorem precedes_iff {a b : ProjectIssue} :
    Precedes (rankKey py query) (·.issueKey) a b ↔ Outranks py query a b := by
  unfold Precedes rankKey Outranks
  simp only [Precedence.precedes_cons, Precedence.not_greater_nil, false_or, true_and]

theorem length_rankKey (a b : ProjectIssue) :
    (rankKey py query a).length = (rankKey py query b).length := by
  unfold rankKey
  dsimp only [List.length_cons, List.length_nil]

/-- The issues of the pool that are ranked. -/
theorem mem_ranked : issue ∈ rankedIssues py query pool ↔
    issue ∈ pool ∧ issue.projectId = query.projectId ∧ Matches py query issue := by
  unfold rankedIssues listed
  rw [List.mem_insertionSort, List.mem_filter, Bool.and_eq_true, decide_eq_true_iff, matched_iff]

theorem listed_projectId (h : issue ∈ pool.filter (listed py query)) :
    issue.projectId = query.projectId := by
  have hlisted := (List.mem_filter.mp h).2
  unfold listed at hlisted
  exact of_decide_eq_true (Bool.and_eq_true _ _ ▸ hlisted).1

/-- Of one project, the keys of the issues tell them apart. -/
theorem nodup_keys (hkeys : (pool.map fun issue => (issue.projectId, issue.issueKey)).Nodup) :
    ((pool.filter (listed py query)).map (·.issueKey)).Nodup := by
  have hnodup : ((pool.filter (listed py query)).map fun issue =>
      (issue.projectId, issue.issueKey)).Nodup :=
    hkeys.sublist (List.filter_sublist.map _)
  have hproject : ((pool.filter (listed py query)).map fun issue =>
    (issue.projectId, issue.issueKey)) =
      ((pool.filter (listed py query)).map (·.issueKey)).map fun key => (query.projectId, key) := by
    rw [List.map_map]
    exact List.map_congr_left fun issue hissue => Prod.ext (listed_projectId hissue) rfl
  rw [hproject] at hnodup
  exact hnodup.of_map

theorem ranked_outranks (hkeys : (pool.map fun issue => (issue.projectId, issue.issueKey)).Nodup) :
    (rankedIssues py query pool).Pairwise (Outranks py query) :=
  (Precedence.sorted_precedes length_rankKey (nodup_keys hkeys)).imp precedes_iff.mp

/-- What is sorted is the ranking, of issues of the project. -/
theorem ranked_ranking (hkeys : (pool.map fun issue => (issue.projectId, issue.issueKey)).Nodup)
    (hproject : ∀ issue ∈ pool, issue.projectId = query.projectId) :
    Ranking py query pool (rankedIssues py query pool) where
  nodup := by
    have hnodup := hkeys.of_map.filter (listed py query)
    exact (List.perm_insertionSort _ _).nodup_iff.mpr hnodup
  mem issue := by
    rw [mem_ranked]
    constructor
    · rintro ⟨hmem, -, hmatches⟩
      exact ⟨hmem, hmatches⟩
    · rintro ⟨hmem, hmatches⟩
      exact ⟨hmem, hproject issue hmem, hmatches⟩
  sorted := ranked_outranks hkeys

theorem ranked_perm (hkeys : (pool.map fun issue => (issue.projectId, issue.issueKey)).Nodup)
    (h : pool'.Perm pool) :
    rankedIssues py query pool' = rankedIssues py query pool :=
  Precedence.sorted_perm length_rankKey (nodup_keys hkeys) (h.filter _)

theorem mem_possibleDuplicates {candidate : IssueCandidate}
    (h : candidate ∈ (rankPool py query pool).possibleDuplicates) :
    ∃ issue ∈ rankedIssues py query pool, Candidates.candidate py query issue = candidate := by
  obtain ⟨issue, hissue, hcandidate⟩ := List.mem_map.mp h
  exact ⟨issue, List.mem_of_mem_take hissue, hcandidate⟩

theorem length_possibleDuplicates :
    (rankPool py query pool).possibleDuplicates.length =
      min query.limit (pool.filter (listed py query)).length := by
  unfold rankPool rankedIssues
  rw [List.length_map, List.length_take, List.length_insertionSort]

/-- **The ranking is a strict precedence**: what is listed is of the project and matches a signal,
the first of two is greater at the first signal or timestamp at which they differ or has the smaller
key, and the order of the pool does not matter. -/
theorem candidates_ranked (hkeys : (pool.map fun issue =>
      (issue.projectId, issue.issueKey)).Nodup) :
    (∃ issues : List ProjectIssue, (rankPool py query pool).possibleDuplicates =
      issues.map (candidate py query) ∧
      (∀ issue ∈ issues, issue ∈ pool ∧ issue.projectId = query.projectId ∧
        Matches py query issue) ∧
      issues.Pairwise (Outranks py query)) ∧
    ∀ pool', pool'.Perm pool → rankPool py query pool' = rankPool py query pool := by
  constructor
  · refine ⟨(rankedIssues py query pool).take query.limit, rfl, fun issue hissue =>
      mem_ranked.mp (List.mem_of_mem_take hissue), ?_⟩
    exact (ranked_outranks hkeys).sublist (List.take_sublist _ _)
  · intro pool' hperm
    unfold rankPool
    rw [ranked_perm hkeys hperm]

section Sample

/-- Texts that are in their case already. -/
def samplePython : Python where
  upper := id
  casefold := id
  contains text part := text.toList.tails.any (part.toList.isPrefixOf ·)
  collates a b := a ≤ b

def sampleQuery : IssueCandidateQuery where
  projectId := (UUID.ofNat 7).str
  title := "pump stops"
  description := "pump stops after restart"
  errorCode := some "E42"
  module := none
  statuses := []
  semanticScores := []
  limit := 5
  nonempty := by decide +kernel
  bounded := by decide

def sampleIssue (issueKey : String) (errorCode : Option String) (createdAt : Int) : ProjectIssue :=
  ⟨(UUID.ofNat 7).str, issueKey, "pump leaks", "a puddle", "OPEN", "BUG", "HIGH", none, errorCode,
    none, some createdAt⟩

theorem candidates_ranked_sample :
    rankPool samplePython sampleQuery [sampleIssue "A-1" (some "E42") 3, sampleIssue "A-2" none 5] =
      rankPool samplePython sampleQuery [sampleIssue "A-2" none 5,
        sampleIssue "A-1" (some "E42") 3] :=
  (candidates_ranked (by decide +kernel)).2 _ (.swap ..)

/-- Of two issues that differ in the key only, the one with the smaller key is first. Of two a
microsecond apart in the year 3000, too: the times are one floating-point number of seconds. -/
theorem candidates_smaller_key :
    (rankPool samplePython sampleQuery [sampleIssue "A-2" none 5,
      sampleIssue "A-1" none 5]).possibleDuplicates.map (·.issue) =
        [sampleIssue "A-1" none 5, sampleIssue "A-2" none 5] ∧ "A-1" < "A-2" ∧
      (rankPool samplePython sampleQuery [sampleIssue "A-2" none 32503680000000001,
        sampleIssue "A-1" none 32503680000000000]
        ).possibleDuplicates.map (·.issue) =
        [sampleIssue "A-1" none 32503680000000000, sampleIssue "A-2" none 32503680000000001] := by
  decide +kernel

end Sample

/-! ## The pool -/

/-- The issues of the project. -/
def projectIssues (rows : List SandboxIssueRow) (projectId : UUID) : List ProjectIssue :=
  (rows.filter fun row => row.projectId = projectId).map toProjectIssue

/-- The hundred newest of them. -/
def newest (py : Python) (rows : List SandboxIssueRow) (projectId : UUID) : List ProjectIssue :=
  (((rows.filter fun row => row.projectId = projectId).insertionSort (NewestFirst py)).take 100).map
    toProjectIssue

theorem search_newest (hproject : UUID.parse query.projectId = some projectId) :
    searchIssues py rows ⟨query.projectId, none, none, none, [], 100⟩ =
      .ok (newest py rows projectId) := by
  have hall (row : SandboxIssueRow) : searched py ⟨query.projectId, none, none, none, [], 100⟩ row =
      true := rfl
  have hlimit : ¬ ((100 : Int) < 1 ∨ (100 : Int) < 100) := by decide
  unfold searchIssues newest
  dsimp only
  rw [if_neg hlimit, hproject]
  simp only [hall, Bool.and_true]
  rfl

theorem findCandidates_newest (hproject : UUID.parse query.projectId = some projectId) :
    findCandidates py query rows = .ok (rankPool py query (newest py rows projectId)) := by
  unfold findCandidates
  rw [search_newest hproject]
  rfl

theorem mem_newest (h : issue ∈ newest py rows projectId) :
    issue ∈ projectIssues rows projectId := by
  obtain ⟨row, hrow, rfl⟩ := List.mem_map.mp h
  exact List.mem_map_of_mem ((List.mem_insertionSort _).mp (List.mem_of_mem_take hrow))

theorem str_injective {u v : UUID} (h : u.str = v.str) : u = v := by
  have hparse := congrArg UUID.parse h
  rw [UUID.parse_str, UUID.parse_str] at hparse
  exact Option.some.inj hparse

theorem key_injective : Function.Injective fun key : UUID × String => (key.1.str, key.2) := by
  intro a b h
  obtain ⟨hstr, hkey⟩ := Prod.mk.inj h
  exact Prod.ext (str_injective hstr) hkey

variable (projectId) in
theorem projectIssues_keys (hkeys : (rows.map fun row => (row.projectId, row.issueKey)).Nodup) :
    ((projectIssues rows projectId).map fun issue => (issue.projectId, issue.issueKey)).Nodup := by
  have hsome : ((rows.filter fun row => row.projectId = projectId).map fun row =>
      (row.projectId, row.issueKey)).Nodup :=
    hkeys.sublist (List.filter_sublist.map _)
  have hnodup := hsome.map key_injective
  rw [List.map_map] at hnodup
  unfold projectIssues
  rw [List.map_map]
  exact hnodup

/-- The pool is the part of the project's issues that is in it. -/
theorem newest_perm (hkeys : (rows.map fun row => (row.projectId, row.issueKey)).Nodup) :
    (newest py rows projectId).Perm
      ((projectIssues rows projectId).filter (· ∈ newest py rows projectId)) := by
  have hall := (projectIssues_keys projectId hkeys).of_map
  have hsorted : (((rows.filter fun row => row.projectId = projectId).insertionSort
    (NewestFirst py)).map toProjectIssue).Perm
      (projectIssues rows projectId) := (List.perm_insertionSort _ _).map _
  have hpool : (newest py rows projectId).Nodup :=
    (hsorted.nodup_iff.mpr hall).sublist ((List.take_sublist _ _).map _)
  refine (List.perm_ext_iff_of_nodup hpool (hall.filter _)).mpr fun issue => ?_
  rw [List.mem_filter, decide_eq_true_iff]
  exact ⟨fun h => ⟨mem_newest h, h⟩, And.right⟩

theorem ranked_newest (hkeys : (rows.map fun row => (row.projectId, row.issueKey)).Nodup) :
    rankedIssues py query (newest py rows projectId) =
      (rankedIssues py query (projectIssues rows projectId)).filter
        (· ∈ newest py rows projectId) := by
  have hall := projectIssues_keys projectId hkeys
  have hpart := hall.sublist ((List.filter_sublist (p := (· ∈ newest py rows projectId))).map _)
  rw [ranked_perm hpart (newest_perm hkeys)]
  unfold rankedIssues
  rw [List.filter_comm, Precedence.sorted_filter length_rankKey (nodup_keys hall)]

/-- The candidate keeps its issue. -/
theorem candidate_injective {a b : ProjectIssue}
    (h : candidate py query a = candidate py query b) : a = b :=
  congrArg IssueCandidate.issue h

theorem projectIssues_projectId (h : issue ∈ projectIssues rows projectId) :
    issue.projectId = projectId.str := by
  obtain ⟨row, hrow, rfl⟩ := List.mem_map.mp h
  have hproject := of_decide_eq_true (List.mem_filter.mp hrow).2
  exact congrArg UUID.str hproject

theorem newest_keys (hkeys : (rows.map fun row => (row.projectId, row.issueKey)).Nodup) :
    ((newest py rows projectId).map fun issue => (issue.projectId, issue.issueKey)).Nodup := by
  have hpart := (projectIssues_keys projectId hkeys).sublist
    ((List.filter_sublist (p := (· ∈ newest py rows projectId))).map _)
  exact ((newest_perm hkeys).map _).nodup_iff.mpr hpart

/-- Another text of the UUID is the project id of no issue. -/
theorem ranked_other (hother : query.projectId ≠ projectId.str) :
    rankedIssues py query (newest py rows projectId) = [] := by
  refine List.eq_nil_iff_forall_not_mem.mpr fun issue hissue => ?_
  obtain ⟨hmem, hproject, -⟩ := mem_ranked.mp hissue
  exact hother (hproject.symm.trans (projectIssues_projectId (mem_newest hmem)))

/-- **The newest hundred issues of the project are ranked**, which gives the first of all of them
exactly if these are among the newest hundred. A query with another text of the project's id than
the one its issues have is given none. -/
theorem find_candidates_newest (hkeys : (rows.map fun row => (row.projectId, row.issueKey)).Nodup)
    (hproject : UUID.parse query.projectId = some projectId) :
    ∃ result, findCandidates py query rows = .ok result ∧
      (query.projectId ≠ projectId.str → result.possibleDuplicates = []) ∧
      (query.projectId = projectId.str → ∃ ofNewest ofAll,
        Ranking py query (newest py rows projectId) ofNewest ∧
        Ranking py query (projectIssues rows projectId) ofAll ∧
        result.possibleDuplicates = (ofNewest.take query.limit).map (candidate py query) ∧
        (result.possibleDuplicates = (ofAll.take query.limit).map (candidate py query) ↔
          ∀ issue ∈ ofAll.take query.limit, issue ∈ newest py rows projectId)) := by
  refine ⟨rankPool py query (newest py rows projectId), findCandidates_newest hproject, ?_, ?_⟩
  · intro hother
    unfold rankPool
    dsimp only
    rw [ranked_other hother, List.take_nil, List.map_nil]
  · intro htext
    have hall (issue : ProjectIssue) (hissue : issue ∈ projectIssues rows projectId) :
        issue.projectId = query.projectId := (projectIssues_projectId hissue).trans htext.symm
    have hnewest (issue : ProjectIssue) (hissue : issue ∈ newest py rows projectId) :
        issue.projectId = query.projectId := hall issue (mem_newest hissue)
    refine ⟨rankedIssues py query (newest py rows projectId),
      rankedIssues py query (projectIssues rows projectId),
        ranked_ranking (newest_keys hkeys) hnewest,
      ranked_ranking (projectIssues_keys projectId hkeys) hall, rfl, ?_⟩
    unfold rankPool
    dsimp only
    rw [(List.map_injective_iff.mpr fun _ _ => candidate_injective).eq_iff, ranked_newest hkeys,
      Precedence.take_filter_eq]
    simp only [decide_eq_true_iff]

section Sample

/-- Texts without tokens, so that the error code and the module decide. -/
def codeQuery : IssueCandidateQuery :=
  { sampleQuery with
    title := "?", description := "?", module := some "core", nonempty := by decide +kernel }

/-- An old issue with the error code of the query. -/
def oldIssue : SandboxIssueRow :=
  ⟨.ofNat 7, "A-0", "?", "?", "OPEN", "BUG", "HIGH", none, some "E42", none, 0⟩

/-- A newer one without it, of the module of the query. -/
def newerIssue (i : Nat) : SandboxIssueRow :=
  ⟨.ofNat 7, "B-" ++ String.ofList (List.replicate i '0'), "?", "?", "OPEN", "BUG", "HIGH",
    some "core", none, none, 100 - i⟩

def newerIssues : List SandboxIssueRow := (List.range 100).map newerIssue

/-- The old issue and two newer ones of the project, and one of another project. -/
def fewIssues : List SandboxIssueRow :=
  [newerIssue 1, oldIssue, { newerIssue 2 with projectId := .ofNat 8 }, newerIssue 0]

/-- Of few issues all are ranked: the one with the error code is first, then the newest. -/
theorem find_candidates_newest_sample :
    ∃ result ofAll, findCandidates samplePython codeQuery fewIssues = .ok result ∧
      Ranking samplePython codeQuery (projectIssues fewIssues (.ofNat 7)) ofAll ∧
      result.possibleDuplicates = (ofAll.take 5).map (candidate samplePython codeQuery) ∧
      result.possibleDuplicates.map (·.issue.issueKey) = ["A-0", "B-", "B-0"] := by
  have hkeys : (fewIssues.map fun row => (row.projectId, row.issueKey)).Nodup := by decide +kernel
  have hparse : UUID.parse codeQuery.projectId = some (.ofNat 7) := UUID.parse_str _
  have hfew : ∀ issue ∈ projectIssues fewIssues (.ofNat 7),
      issue ∈ newest samplePython fewIssues (.ofNat 7) := by decide +kernel
  obtain ⟨result, hresult, -, hranked⟩ :=
    @find_candidates_newest samplePython codeQuery fewIssues (.ofNat 7) hkeys hparse
  obtain ⟨-, ofAll, -, hall, -, hfirst⟩ := hranked rfl
  have hfirst := hfirst.mpr fun issue hissue =>
    hfew issue ((hall.mem issue).mp (List.mem_of_mem_take hissue)).1
  refine ⟨result, ofAll, hresult, hall, hfirst, ?_⟩
  rw [findCandidates_newest hparse] at hresult
  cases hresult
  decide +kernel

theorem newest_sample (h : issue ∈ newest samplePython (newerIssues ++ [oldIssue]) (.ofNat 7)) :
    issue ∈ newerIssues.map toProjectIssue := by
  have hlater : ∀ row ∈ (((newerIssues ++ [oldIssue]).filter fun row =>
    row.projectId = .ofNat 7).insertionSort
      (NewestFirst samplePython)).take 100, 0 < row.createdAt := by
    decide +kernel
  obtain ⟨row, hrow, rfl⟩ := List.mem_map.mp h
  have hmem := (List.mem_insertionSort _).mp (List.mem_of_mem_take hrow)
  rcases List.mem_append.mp (List.mem_of_mem_filter hmem) with hnewer | hold
  · exact List.mem_map_of_mem hnewer
  · rw [List.mem_singleton.mp hold] at hrow
    exact absurd (hlater oldIssue hrow) (lt_irrefl 0)

theorem newer_listed (h : issue ∈ newerIssues.map toProjectIssue) :
    issue.errorCode = none ∧ listed samplePython codeQuery issue = true := by
  unfold newerIssues at h
  rw [List.map_map] at h
  obtain ⟨i, -, rfl⟩ := List.mem_map.mp h
  have hmatches : Matches samplePython codeQuery (toProjectIssue (newerIssue i)) := .inr (.inl rfl)
  unfold listed
  exact ⟨rfl, (Bool.and_eq_true _ _).mpr ⟨decide_eq_true rfl, matched_iff.mpr hmatches⟩⟩

/-- The old issue is left out, though it alone has the error code. -/
theorem old_candidate_left_out :
    toProjectIssue oldIssue ∈ projectIssues (newerIssues ++ [oldIssue]) (.ofNat 7) ∧
      sameText samplePython.upper codeQuery.errorCode oldIssue.errorCode = true ∧
      ∃ result, findCandidates samplePython codeQuery (newerIssues ++ [oldIssue]) = .ok result ∧
        result.possibleDuplicates.length = 5 ∧ ∀ candidate ∈ result.possibleDuplicates,
          candidate.issue.errorCode = none := by
  have hproject : UUID.parse codeQuery.projectId = some (.ofNat 7) := UUID.parse_str _
  have hlength : (newest samplePython (newerIssues ++ [oldIssue]) (.ofNat 7)).length = 100 := by
    decide +kernel
  have hall : (newest samplePython (newerIssues ++ [oldIssue]) (.ofNat 7)).filter
    (listed samplePython codeQuery) =
      newest samplePython (newerIssues ++ [oldIssue]) (.ofNat 7) := by
    refine List.filter_eq_self.mpr fun issue hissue => ?_
    exact (newer_listed (newest_sample hissue)).2
  refine ⟨List.mem_map_of_mem (by decide +kernel), rfl, _, findCandidates_newest hproject, ?_, ?_⟩
  · rw [length_possibleDuplicates, hall, hlength]
    rfl
  · intro candidate hcandidate
    obtain ⟨issue, hissue, rfl⟩ := mem_possibleDuplicates hcandidate
    exact (newer_listed (newest_sample (mem_ranked.mp hissue).1)).1

end Sample

end ProjectAgent.Candidates
