/-
`_final_candidates` is there twice. Without a final round that was recorded the
metrics take the first of the rounds with the greatest number, and the shadow
analysis the last one of the list.
-/
import ProjectAgent.Evaluation.Comparable

namespace ProjectAgent.Evaluation

/-- `_final_candidates` of the ablations. -/
def shadowFinalCandidates (trial : TrialArtifact) : List EvidenceArtifact :=
  match trial.finalRetrievalRound with
  | none => match trial.retrievalRounds.getLast? with
    | some round => round.candidates
    | none => []
  | some roundNo => match trial.retrievalRounds.find? (·.roundNo = roundNo) with
    | some round => round.candidates
    | none => []

variable {trial : TrialArtifact} {rounds : List RetrievalRoundArtifact}
  {round : RetrievalRoundArtifact}

/-- The round is the first one that no other has a greater number than. -/
def FirstGreatest (rounds : List RetrievalRoundArtifact) (round : RetrievalRoundArtifact) : Prop :=
  ∃ before after, rounds = before ++ round :: after ∧
    (∀ other ∈ before, other.roundNo < round.roundNo) ∧
    ∀ other ∈ after, other.roundNo ≤ round.roundNo

theorem find_greatest :
    rounds.find? (fun round => some round.roundNo = (rounds.map (·.roundNo)).max?) = some round ↔
    FirstGreatest rounds round := by
  rw [List.find?_eq_some_iff_append, decide_eq_true_iff, eq_comm, List.max?_eq_some_iff]
  constructor
  · rintro ⟨⟨-, hgreatest⟩, before, after, rfl, hbefore⟩
    have hall : ∀ other ∈ before ++ round :: after, other.roundNo ≤ round.roundNo :=
      fun other hother => hgreatest _ (List.mem_map_of_mem hother)
    have hmax : ((before ++ round :: after).map (·.roundNo)).max? = some round.roundNo :=
      List.max?_eq_some_iff.mpr ⟨List.mem_map_of_mem (List.mem_append_right _ List.mem_cons_self),
        hgreatest⟩
    refine ⟨before, after, rfl, fun other hother => ?_, fun other hother => ?_⟩
    · refine lt_of_le_of_ne (hall other (List.mem_append_left _ hother)) fun hsame => ?_
      have hnot := hbefore other hother
      rw [hmax, hsame] at hnot
      simp at hnot
    · exact hall other (List.mem_append_right _ (List.mem_cons_of_mem _ hother))
  · rintro ⟨before, after, rfl, hbefore, hafter⟩
    have hgreatest : ∀ number ∈ (before ++ round :: after).map (·.roundNo),
        number ≤ round.roundNo := by
      intro number hnumber
      obtain ⟨other, hother, rfl⟩ := List.mem_map.mp hnumber
      rcases List.mem_append.mp hother with hother | hother
      · exact (hbefore other hother).le
      · rcases List.mem_cons.mp hother with rfl | hother
        · exact le_rfl
        · exact hafter other hother
    have hmem : round.roundNo ∈ (before ++ round :: after).map (·.roundNo) :=
      List.mem_map_of_mem (List.mem_append_right _ List.mem_cons_self)
    refine ⟨⟨hmem, hgreatest⟩, before, after, rfl, fun other hother => ?_⟩
    have hmax : ((before ++ round :: after).map (·.roundNo)).max? = some round.roundNo :=
      List.max?_eq_some_iff.mpr ⟨hmem, hgreatest⟩
    rw [hmax, Bool.not_eq_true', decide_eq_false_iff_not]
    exact fun hsame => (hbefore other hother).ne (Option.some.inj hsame)

theorem exists_greatest (h : rounds ≠ []) : ∃ round, FirstGreatest rounds round := by
  obtain ⟨greatest, hgreatest⟩ : ∃ greatest, (rounds.map (·.roundNo)).max? = some greatest := by
    rw [← Option.isSome_iff_exists, List.isSome_max?_iff]
    simpa using h
  obtain ⟨round, hround, hnumber⟩ := List.mem_map.mp (List.max?_mem hgreatest)
  have hfound : (rounds.find? fun round => some round.roundNo =
      (rounds.map (·.roundNo)).max?).isSome := by
    rw [List.find?_isSome]
    exact ⟨round, hround, by simp [hgreatest, hnumber]⟩
  obtain ⟨found, hfound⟩ := Option.isSome_iff_exists.mp hfound
  exact ⟨found, find_greatest.mp hfound⟩

theorem finalCandidates_recorded {roundNo : ℤ} (h : trial.finalRetrievalRound = some roundNo) :
    finalCandidates trial =
    match trial.retrievalRounds.find? (·.roundNo = roundNo) with
    | some round => round.candidates
    | none => [] := by
  have htarget : (trial.finalRetrievalRound <|> (trial.retrievalRounds.map (·.roundNo)).max?) =
      some roundNo := by
    rw [h]
    rfl
  have hnumber : (fun round : RetrievalRoundArtifact =>
      decide (some round.roundNo = some roundNo)) = fun round => decide (round.roundNo = roundNo) :=
    funext fun _ => decide_eq_decide.mpr Option.some_inj
  unfold finalCandidates
  dsimp only
  rw [htarget]
  cases hfound : trial.retrievalRounds.find? (·.roundNo = roundNo) <;> simp only [hnumber, hfound]

theorem finalCandidates_greatest (h : trial.finalRetrievalRound = none)
    (hround : FirstGreatest trial.retrievalRounds round) :
    finalCandidates trial = round.candidates := by
  have htarget : (trial.finalRetrievalRound <|> (trial.retrievalRounds.map (·.roundNo)).max?) =
      (trial.retrievalRounds.map (·.roundNo)).max? := by
    rw [h]
    rfl
  unfold finalCandidates
  dsimp only
  rw [htarget, find_greatest.mpr hround]

/-- **When metrics and ablations look at the same round**: if the final round was recorded; and
otherwise just where the first of the rounds with the greatest number has the candidates of the last
one. -/
theorem final_candidates_agree : finalCandidates trial = shadowFinalCandidates trial ↔
    trial.finalRetrievalRound.isSome ∨ ∀ round last, FirstGreatest trial.retrievalRounds round →
      trial.retrievalRounds.getLast? = some last → round.candidates = last.candidates := by
  unfold shadowFinalCandidates
  cases hfinal : trial.finalRetrievalRound with
  | some roundNo => exact ⟨fun _ => .inl rfl, fun _ => finalCandidates_recorded hfinal⟩
  | none =>
    rw [or_iff_right (by simp)]
    dsimp only
    rcases List.eq_nil_or_concat' trial.retrievalRounds with hempty | ⟨before, last, hsplit⟩
    · have hnone : finalCandidates trial = [] := by
        unfold finalCandidates
        rw [hempty]
        rfl
      rw [hnone, hempty]
      exact ⟨fun _ _ _ _ h => (nomatch h), fun _ => rfl⟩
    · have hne : trial.retrievalRounds ≠ [] := hsplit ▸ List.concat_ne_nil _ _
      have hlast : trial.retrievalRounds.getLast? = some last := by
        rw [hsplit]
        exact List.getLast?_concat
      obtain ⟨round, hround⟩ := exists_greatest hne
      rw [finalCandidates_greatest hfinal hround, hlast]
      dsimp only
      constructor
      · intro hsame round' last' hround' hlast'
        cases hlast'
        cases (find_greatest.mpr hround).symm.trans (find_greatest.mpr hround')
        exact hsame
      · exact fun hall => hall round last hround rfl

/-- The second round is saved before the first one. -/
def reversedTrial : TrialArtifact := { caseTrial "Q1" .scored with
  retrievalRounds := [
    ⟨2, [⟨"e2", some "A-REQ-001", none, some 1, some "PUBLISHED", some true, []⟩]⟩,
    ⟨1, []⟩] }

theorem reversed_candidates_differ :
    ¬ ∀ trial, finalCandidates trial = shadowFinalCandidates trial := by
  intro hall
  have hlength := congrArg List.length (hall reversedTrial)
  exact absurd hlength (by decide)

end ProjectAgent.Evaluation
