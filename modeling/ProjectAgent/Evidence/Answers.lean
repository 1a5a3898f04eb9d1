/-
The answer of a run and its citations. `save_grounded_answer` replaces the
citations of the answer; `save_answer`, which writes refusals and
clarifications over the same row, leaves them as they are.
-/
import ProjectAgent.Evidence.Guard
import ProjectAgent.Lib.Ranking

namespace ProjectAgent.Evidence

open Interleave

structure Answer where
  id : UUID
  runId : UUID
  answerText : String
  refusalReason : Option String
deriving DecidableEq

structure Citation where
  answerId : UUID
  evidenceSnapshotId : UUID
  citationNo : Int
  quotedText : Option String
deriving DecidableEq

structure AnswerTables where
  answers : List Answer
  citations : List Citation

/-- The primary key, `uq_answers_run`, and the foreign key of a citation. -/
structure AnswerTables.Ok (t : AnswerTables) : Prop where
  ids : (t.answers.map (·.id)).Nodup
  runs : (t.answers.map (·.runId)).Nodup
  cited : ∀ row ∈ t.citations, row.answerId ∈ t.answers.map (·.id)

namespace AnswerTables

/-- The answer of a run. -/
def answerOf (t : AnswerTables) (runId : UUID) : Option Answer := t.answers.find? (·.runId == runId)

/-- The citations of a run's answer. -/
def citationsOf (t : AnswerTables) (runId : UUID) : List Citation :=
  t.citations.filter fun row => (t.answerOf runId).any (·.id == row.answerId)

end AnswerTables

/-! ## The two operations -/

/-- What the columns of an answer take. -/
def answerFits (answerText : String) (refusalReason : Option String) : Bool :=
  isText answerText && refusalReason.all isText

/-- `newId` is what `uuid4` draws for a new row. -/
def saveAnswer (t : AnswerTables) (newId runId : UUID) (answerText : String)
    (refusalReason : Option String) :
    Except StoreError (UUID × AnswerTables) :=
  match t.answerOf runId with
  | none =>
    if answerFits answerText refusalReason && newId ∉ t.answers.map (·.id) then
      .ok (newId, { t with answers := ⟨newId, runId, answerText, refusalReason⟩ :: t.answers })
    else .error .dataError
  | some existing =>
    if answerFits answerText refusalReason then
      .ok (existing.id, { t with answers := t.answers.map fun row =>
        if row.id = existing.id then { row with
          answerText := answerText, refusalReason := refusalReason } else row })
    else .error .dataError

/-- `unique`, sorted: of the citations with one number, the first. -/
def uniqueCitations (citations : List CitationReference) : List CitationReference :=
  (Ranking.firsts (·.citationNo) [] citations).insertionSort fun a b => a.citationNo ≤ b.citationNo

def citationRow (answerId : UUID) (reference : CitationReference) : Citation where
  answerId := answerId
  evidenceSnapshotId := reference.evidenceSnapshotId
  citationNo := reference.citationNo
  quotedText := none

/-- The foreign key and the integer column take it. -/
def referenceFits (snapshots : List (EvidenceSnapshot Numeric))
    (reference : CitationReference) : Bool :=
  reference.evidenceSnapshotId ∈ snapshots.map (·.id) && -2 ^ 31 ≤ reference.citationNo &&
    reference.citationNo < 2 ^ 31

def saveGroundedAnswer (t : AnswerTables) (snapshots : List (EvidenceSnapshot Numeric))
    (newId runId : UUID)
    (answerText : String) (citations : List CitationReference) :
    Except StoreError (UUID × AnswerTables) := do
  let (answerId, t) ← saveAnswer t newId runId answerText none
  let kept := t.citations.filter (·.answerId ≠ answerId)
  if (uniqueCitations citations).all (referenceFits snapshots) then
    .ok (answerId, { t with
      citations := kept ++ (uniqueCitations citations).map (citationRow answerId) })
  else .error .dataError

/-! ## Calls on a run -/

inductive AnswerCall where
  | saveAnswer (answerText : String) (refusalReason : Option String)
  | saveGroundedAnswer (answerText : String) (grounded : Grounded)

/-- A call, with the snapshots the table holds by then. -/
structure Write where
  call : AnswerCall
  newId : UUID
  snapshots : List (EvidenceSnapshot Numeric)

def Write.perform (w : Write) (runId : UUID) (t : AnswerTables) :
    Except StoreError (UUID × AnswerTables) :=
  match w.call with
  | .saveAnswer answerText refusalReason =>
    Evidence.saveAnswer t w.newId runId answerText refusalReason
  | .saveGroundedAnswer answerText grounded =>
    Evidence.saveGroundedAnswer t w.snapshots w.newId runId answerText grounded.citations

/-- The tables, and the last call they took. -/
structure Answered where
  tables : AnswerTables
  last : Option AnswerCall

/-- A call that fails is rolled back. -/
def Answered.step (runId : UUID) (σ : Answered) (w : Write) : Answered :=
  match w.perform runId σ.tables with
  | .ok (_, tables) => ⟨tables, some w.call⟩
  | .error _ => σ

def Answered.run (runId : UUID) (tables : AnswerTables) (writes : List Write) : Answered :=
  writes.foldl (Answered.step runId) ⟨tables, none⟩

/-- The citations of a grounded answer: one for each number, in the bundle it is of. -/
structure CitationsOf (grounded : Grounded) (stored : List Citation) : Prop where
  ascending : stored.Pairwise fun a b => a.citationNo < b.citationNo
  numbers : ∀ no, no ∈ stored.map (·.citationNo) ↔ no ∈ grounded.citations.map (·.citationNo)
  cited : ∀ row ∈ stored, ⟨row.citationNo, row.evidenceSnapshotId⟩ ∈ grounded.citations
  ofBundle : ∀ row ∈ stored, ∃ item ∈ grounded.bundle.evidence,
    item.snapshotId = row.evidenceSnapshotId

/-- The stored answer is that of the last call, and the stored citations are those of the stored
answer. -/
def Answered.Agrees (runId : UUID) (σ : Answered) : Prop :=
  match σ.last with
  | none => σ.tables.answerOf runId = none ∧ σ.tables.citationsOf runId = []
  | some (.saveAnswer answerText refusalReason) =>
    (∃ id, σ.tables.answerOf runId = some ⟨id, runId, answerText, refusalReason⟩) ∧
      σ.tables.citationsOf runId = []
  | some (.saveGroundedAnswer answerText grounded) =>
    (∃ id, σ.tables.answerOf runId = some ⟨id, runId, answerText, none⟩) ∧
      CitationsOf grounded (σ.tables.citationsOf runId)

/-! ## What the operations do -/

variable {t t' : AnswerTables} {newId runId answerId : UUID} {answerText : String}
  {refusalReason : Option String}
  {citations : List CitationReference} {snapshots : List (EvidenceSnapshot Numeric)}

theorem citationsOf_none (h : t.answerOf runId = none) : t.citationsOf runId = [] := by
  unfold AnswerTables.citationsOf
  rw [h]
  exact List.filter_eq_nil_iff.mpr fun _ _ hany => Bool.false_ne_true hany

theorem citationsOf_some {answer : Answer} (h : t.answerOf runId = some answer) :
    t.citationsOf runId = t.citations.filter fun row => answer.id == row.answerId := by
  unfold AnswerTables.citationsOf
  rw [h]
  rfl

theorem answerOf_mem {answer : Answer} (h : t.answerOf runId = some answer) :
    answer ∈ t.answers ∧ answer.runId = runId := by
  unfold AnswerTables.answerOf at h
  have hrun := List.find?_some h
  exact ⟨List.mem_of_find?_eq_some h, beq_iff_eq.mp hrun⟩

/-- **What `save_answer` does**: it writes the run's answer and leaves its citations. -/
structure Saved (t : AnswerTables) (runId : UUID) (answerText : String)
    (refusalReason : Option String) (answerId : UUID) (t' : AnswerTables) : Prop where
  ok : t'.Ok
  answer : t'.answerOf runId = some ⟨answerId, runId, answerText, refusalReason⟩
  citations : t'.citations = t.citations
  citationsOf : t'.citationsOf runId = t.citationsOf runId

theorem saveAnswer_new (hok : t.Ok) (hnone : t.answerOf runId = none)
    (hid : newId ∉ t.answers.map (·.id)) :
    Saved t runId answerText refusalReason newId
      { t with answers := ⟨newId, runId, answerText, refusalReason⟩ :: t.answers } := by
  have hrun : runId ∉ t.answers.map (·.runId) := by
    intro hin
    obtain ⟨row, hrow, heq⟩ := List.mem_map.mp hin
    exact List.find?_eq_none.mp hnone row hrow (beq_iff_eq.mpr heq)
  have hanswer : AnswerTables.answerOf { t with
    answers := ⟨newId, runId, answerText, refusalReason⟩ :: t.answers } runId =
      some ⟨newId, runId, answerText, refusalReason⟩ :=
    List.find?_cons_of_pos (beq_self_eq_true runId)
  refine ⟨⟨List.nodup_cons.mpr ⟨hid, hok.ids⟩, List.nodup_cons.mpr ⟨hrun, hok.runs⟩, fun row hrow =>
    List.mem_cons_of_mem _ (hok.cited row hrow)⟩, hanswer, rfl, ?_⟩
  rw [citationsOf_none hnone, citationsOf_some hanswer, List.filter_eq_nil_iff]
  intro row hrow heq
  have hrow := hok.cited row hrow
  rw [← beq_iff_eq.mp heq] at hrow
  exact hid hrow

theorem saveAnswer_again {existing : Answer} (hok : t.Ok)
    (hsome : t.answerOf runId = some existing) :
    Saved t runId answerText refusalReason existing.id
      { t with answers := t.answers.map fun row =>
        if row.id = existing.id then { row with
          answerText := answerText, refusalReason := refusalReason } else row } := by
  obtain ⟨hmem, hrun⟩ := answerOf_mem hsome
  have hids : (t.answers.map fun row => if row.id = existing.id then
      { row with answerText := answerText, refusalReason := refusalReason } else row).map (·.id) =
        t.answers.map (·.id) := by
    rw [List.map_map]
    refine List.map_congr_left fun row _ => ?_
    rw [Function.comp_apply]
    split <;> rfl
  have hruns : (t.answers.map fun row => if row.id = existing.id then
      { row with answerText := answerText, refusalReason := refusalReason }
        else row).map (·.runId) = t.answers.map (·.runId) := by
    rw [List.map_map]
    refine List.map_congr_left fun row _ => ?_
    rw [Function.comp_apply]
    split <;> rfl
  have hanswer : AnswerTables.answerOf { t with answers := t.answers.map fun row =>
      if row.id = existing.id then { row with
        answerText := answerText, refusalReason := refusalReason } else row } runId =
      some ⟨existing.id, runId, answerText, refusalReason⟩ := by
    unfold AnswerTables.answerOf at hsome ⊢
    rw [List.find?_map]
    have hsame : t.answers.find? ((fun row : Answer => row.runId == runId) ∘ fun row =>
      if row.id = existing.id then
        { row with answerText := answerText, refusalReason := refusalReason } else row) =
          some existing := by
      rw [← hsome]
      congr 1
      funext row
      rw [Function.comp_apply]
      split <;> rfl
    rw [hsame, Option.map_some, if_pos rfl, hrun]
  refine ⟨⟨?_, ?_, fun row hrow => ?_⟩, hanswer, rfl, ?_⟩
  · dsimp only
    rw [hids]
    exact hok.ids
  · dsimp only
    rw [hruns]
    exact hok.runs
  · dsimp only
    rw [hids]
    exact hok.cited row hrow
  · rw [citationsOf_some hanswer, citationsOf_some hsome]

theorem saveAnswer_saved (hok : t.Ok)
    (h : saveAnswer t newId runId answerText refusalReason = .ok (answerId, t')) :
    Saved t runId answerText refusalReason answerId t' := by
  unfold saveAnswer at h
  split at h
  · next hnone =>
    split at h
    · next hfits =>
      cases h
      rw [Bool.and_eq_true, decide_eq_true_iff] at hfits
      exact saveAnswer_new hok hnone hfits.2
    · cases h
  · next existing hsome =>
    split at h
    · cases h
      exact saveAnswer_again hok hsome
    · cases h

/-- Where the run has an answer, what the columns take is written. -/
theorem saveAnswer_isOk {existing : Answer} (newId : UUID)
    (hsome : t.answerOf runId = some existing)
    (hfits : answerFits answerText refusalReason = true) :
    ∃ result, saveAnswer t newId runId answerText refusalReason = .ok result := by
  unfold saveAnswer
  rw [hsome]
  dsimp only
  rw [if_pos hfits]
  exact ⟨_, rfl⟩

theorem saveAnswer_fits (h : saveAnswer t newId runId answerText refusalReason =
      .ok (answerId, t')) :
    answerFits answerText refusalReason = true := by
  unfold saveAnswer at h
  split at h
  · split at h
    · next hfits => exact (Bool.and_eq_true_iff.mp hfits).1
    · cases h
  · split at h
    · next hfits => exact hfits
    · cases h

theorem mem_uniqueCitations {reference : CitationReference}
    (h : reference ∈ uniqueCitations citations) :
    reference ∈ citations := by
  obtain ⟨-, pre, post, rfl, -⟩ := Ranking.mem_firsts.mp ((List.mem_insertionSort _).mp h)
  exact List.mem_append_right _ List.mem_cons_self

theorem uniqueCitations_ascending :
    (uniqueCitations citations).Pairwise fun a b => a.citationNo < b.citationNo := by
  have hsorted : (uniqueCitations citations).Pairwise fun a b => a.citationNo ≤ b.citationNo :=
    List.pairwise_insertionSort _ _
  have hperm : (uniqueCitations citations).Perm (Ranking.firsts (·.citationNo) [] citations) :=
    List.perm_insertionSort _ _
  have hnodup : ((uniqueCitations citations).map (·.citationNo)).Nodup :=
    (hperm.map _).nodup_iff.mpr (Ranking.nodup_firsts [] citations)
  have hne := List.pairwise_map.mp hnodup
  exact (hsorted.and hne).imp fun h => lt_of_le_of_ne h.1 h.2

theorem uniqueCitations_numbers (no : Int) :
    no ∈ (uniqueCitations citations).map (·.citationNo) ↔ no ∈ citations.map (·.citationNo) := by
  constructor
  · intro h
    obtain ⟨reference, hreference, rfl⟩ := List.mem_map.mp h
    exact List.mem_map_of_mem (mem_uniqueCitations hreference)
  · intro h
    obtain ⟨reference, hreference, hno⟩ := Ranking.exists_firsts (List.not_mem_nil : no ∉ []) h
    exact List.mem_map.mpr ⟨reference, (List.mem_insertionSort _).mpr hreference, hno⟩

/-- **The rows that replace the citations are those of the grounded answer.** -/
theorem citationsOf_rows (grounded : Grounded) (answerId : UUID) :
    CitationsOf grounded ((uniqueCitations grounded.citations).map (citationRow answerId)) := by
  refine ⟨List.pairwise_map.mpr uniqueCitations_ascending, fun no => ?_, fun row hrow => ?_,
    fun row hrow => ?_⟩
  · rw [List.map_map]
    exact uniqueCitations_numbers no
  · obtain ⟨reference, hreference, rfl⟩ := List.mem_map.mp hrow
    exact mem_uniqueCitations hreference
  · obtain ⟨reference, hreference, rfl⟩ := List.mem_map.mp hrow
    exact grounded.ofBundle reference (mem_uniqueCitations hreference)

/-- **What `save_grounded_answer` does**: it writes the run's answer, and its citations in place of
those it had. -/
theorem saveGroundedAnswer_saved (hok : t.Ok)
    (h : saveGroundedAnswer t snapshots newId runId answerText citations = .ok (answerId, t')) :
    t'.Ok ∧ t'.answerOf runId = some ⟨answerId, runId, answerText, none⟩ ∧
      t'.citationsOf runId = (uniqueCitations citations).map (citationRow answerId) := by
  unfold saveGroundedAnswer at h
  obtain ⟨⟨id, t₁⟩, hsave, h⟩ := Fallible.bind_eq_ok.mp h
  have hsaved := saveAnswer_saved hok hsave
  dsimp only at h
  split at h
  · cases h
    have hanswer : AnswerTables.answerOf ⟨t₁.answers, t₁.citations.filter (·.answerId ≠ answerId) ++
        (uniqueCitations citations).map (citationRow answerId)⟩ runId =
          some ⟨answerId, runId, answerText, none⟩ :=
      hsaved.answer
    refine ⟨⟨hsaved.ok.ids, hsaved.ok.runs, fun row hrow => ?_⟩, hanswer, ?_⟩
    · rcases List.mem_append.mp hrow with hrow | hrow
      · exact hsaved.ok.cited row (List.mem_of_mem_filter hrow)
      · obtain ⟨reference, -, rfl⟩ := List.mem_map.mp hrow
        exact List.mem_map_of_mem (answerOf_mem hanswer).1
    · rw [citationsOf_some hanswer, List.filter_append]
      have hkept : (t₁.citations.filter (·.answerId ≠ answerId)).filter (fun row =>
          answerId == row.answerId) = [] := by
        refine List.filter_eq_nil_iff.mpr fun row hrow heq => ?_
        obtain ⟨-, hne⟩ := List.mem_filter.mp hrow
        exact of_decide_eq_true hne (beq_iff_eq.mp heq).symm
      have hown : ((uniqueCitations citations).map (citationRow answerId)).filter (fun row =>
        answerId == row.answerId) =
          (uniqueCitations citations).map (citationRow answerId) := by
        refine List.filter_eq_self.mpr fun row hrow => ?_
        obtain ⟨reference, -, rfl⟩ := List.mem_map.mp hrow
        exact beq_self_eq_true answerId
      rw [hkept, hown, List.nil_append]
  · cases h

/-! ## A run of calls -/

variable {σ : Answered} {w : Write}

/-- What every sequence of calls keeps: all of `Agrees` but that a refusal has no citations. -/
structure Answered.Inv (runId : UUID) (σ : Answered) : Prop where
  ok : σ.tables.Ok
  unanswered : σ.last = none → σ.tables.answerOf runId = none
  saveAnswer : ∀ answerText refusalReason, σ.last = some (.saveAnswer answerText refusalReason) →
    ∃ id, σ.tables.answerOf runId = some ⟨id, runId, answerText, refusalReason⟩
  grounded : ∀ answerText grounded, σ.last = some (.saveGroundedAnswer answerText grounded) →
    (∃ id, σ.tables.answerOf runId = some ⟨id, runId, answerText, none⟩) ∧
      CitationsOf grounded (σ.tables.citationsOf runId)

theorem Answered.Inv.agrees_iff (h : σ.Inv runId) : σ.Agrees runId ↔
    ∀ answerText refusalReason, σ.last = some (.saveAnswer answerText refusalReason) →
      σ.tables.citationsOf runId = [] := by
  unfold Answered.Agrees
  split
  · next hlast =>
    have hnone := h.unanswered hlast
    exact iff_of_true ⟨hnone, citationsOf_none hnone⟩ fun _ _ hsome =>
      nomatch hlast.symm.trans hsome
  · next answerText refusalReason hlast =>
    constructor
    · rintro ⟨-, hstored⟩ _ _ _
      exact hstored
    · exact fun hall => ⟨h.saveAnswer _ _ hlast, hall _ _ hlast⟩
  · next answerText grounded hlast =>
    refine iff_of_true (h.grounded _ _ hlast) fun _ _ hsome => ?_
    cases hlast.symm.trans hsome

/-- **What one call does**: it fails and changes nothing, or it writes the answer and leaves the
citations, or it writes both. -/
theorem Answered.step_cases (h : σ.Inv runId) (w : Write) :
    σ.step runId w = σ ∨
    (∃ answerText refusalReason answerId tables, w.call = .saveAnswer answerText refusalReason ∧
      answerFits answerText refusalReason = true ∧
        Saved σ.tables runId answerText refusalReason answerId tables ∧
      σ.step runId w = ⟨tables, some w.call⟩) ∨
    (∃ answerText grounded answerId tables, w.call = .saveGroundedAnswer answerText grounded ∧
      tables.Ok ∧
      tables.answerOf runId = some ⟨answerId, runId, answerText, none⟩ ∧
      CitationsOf grounded (tables.citationsOf runId) ∧
        σ.step runId w = ⟨tables, some w.call⟩) := by
  unfold Answered.step
  split
  · next answerId tables hperform =>
    unfold Write.perform at hperform
    split at hperform
    · next answerText refusalReason hcall =>
      exact .inr (.inl ⟨_, _, answerId, tables, hcall, saveAnswer_fits hperform,
        saveAnswer_saved h.ok hperform, rfl⟩)
    · next answerText grounded hcall =>
      obtain ⟨hok, hanswer, hcitations⟩ := saveGroundedAnswer_saved h.ok hperform
      refine .inr (.inr ⟨_, _, answerId, tables, hcall, hok, hanswer, ?_, rfl⟩)
      rw [hcitations]
      exact citationsOf_rows grounded answerId
  · exact .inl rfl

theorem Answered.Inv.step (h : σ.Inv runId) (w : Write) : (σ.step runId w).Inv runId := by
  obtain hsame | ⟨answerText, reason, answerId, tables, hcall, -, hsaved, hstep⟩ |
    ⟨answerText, grounded, answerId, tables, hcall, hok, hanswer, hcitations, hstep⟩ :=
      Answered.step_cases h w
  · rw [hsame]
    exact h
  · rw [hstep, hcall]
    refine ⟨hsaved.ok, fun hlast => (nomatch hlast), fun _ _ hlast => ?_, fun _ _ hlast =>
      nomatch hlast⟩
    cases hlast
    exact ⟨answerId, hsaved.answer⟩
  · rw [hstep, hcall]
    refine ⟨hok, fun hlast => (nomatch hlast), fun _ _ hlast => (nomatch hlast),
      fun _ _ hlast => ?_⟩
    cases hlast
    exact ⟨⟨answerId, hanswer⟩, hcitations⟩

theorem Answered.run_snoc (t : AnswerTables) (writes : List Write) (w : Write) :
    Answered.run runId t (writes ++ [w]) = (Answered.run runId t writes).step runId w := by
  unfold Answered.run
  rw [List.foldl_append]
  rfl

theorem Answered.Inv.run (hok : t.Ok) (hnone : t.answerOf runId = none) (writes : List Write) :
    (Answered.run runId t writes).Inv runId := by
  induction writes using List.reverseRecOn with
  | nil =>
    exact ⟨hok, fun _ => hnone, fun _ _ hlast => (nomatch hlast), fun _ _ hlast => nomatch hlast⟩
  | append_singleton writes w ih =>
    rw [Answered.run_snoc]
    exact ih.step w

/--
**The stored citations are those of the stored answer after every call exactly if no refusal is
written over a grounded answer.** `save_answer` must find no citation of the run whenever the
columns take its texts.
-/
theorem stored_citations_agree_iff (t : AnswerTables) (runId : UUID) (hok : t.Ok)
    (hnone : t.answerOf runId = none) (writes : List Write) :
    (∀ pre, pre <+: writes → (Answered.run runId t pre).Agrees runId) ↔
      ∀ pre w answerText refusalReason, pre ++ [w] <+: writes →
        w.call = .saveAnswer answerText refusalReason →
        answerFits answerText refusalReason = true →
          (Answered.run runId t pre).tables.citationsOf runId = [] := by
  constructor
  · intro hall pre w answerText refusalReason hpre hcall hfits
    have hinv := Answered.Inv.run hok hnone pre
    cases hanswer : (Answered.run runId t pre).tables.answerOf runId with
    | none => exact citationsOf_none hanswer
    | some existing =>
      -- the call goes through, so it leaves the citations there were
      have hagrees := hall _ hpre
      rw [Answered.run_snoc] at hagrees
      obtain ⟨⟨answerId, tables⟩, hperform⟩ := saveAnswer_isOk w.newId hanswer hfits
      have hstep : (Answered.run runId t pre).step runId w = ⟨tables, some w.call⟩ := by
        unfold Answered.step Write.perform
        rw [hcall]
        dsimp only
        rw [hperform]
      rw [hstep, hcall] at hagrees
      rw [← (saveAnswer_saved hinv.ok hperform).citationsOf]
      exact hagrees.2
  · intro hall pre hpre
    induction pre using List.reverseRecOn with
    | nil => exact ⟨hnone, citationsOf_none hnone⟩
    | append_singleton pre w ih =>
      have hinv := Answered.Inv.run hok hnone pre
      have hstep := hinv.step w
      rw [Answered.run_snoc]
      rw [hstep.agrees_iff]
      obtain hsame | ⟨answerText, reason, answerId, tables, hcall, hfits, hsaved, heq⟩ |
        ⟨answerText, grounded, answerId, tables, hcall, -, -, -, heq⟩ := Answered.step_cases hinv w
      · rw [hsame]
        exact hinv.agrees_iff.mp (ih ((List.prefix_append _ _).trans hpre))
      · intro _ _ _
        rw [heq]
        exact hsaved.citationsOf.trans (hall pre w answerText reason hpre hcall hfits)
      · rw [heq, hcall]
        exact fun _ _ hlast => nomatch hlast

namespace Sample

def evidence : FrozenEvidence where
  snapshotId := ⟨20⟩
  label := "E1"
  projectId := ⟨2⟩
  projectCode := "P-1"
  documentVersionId := ⟨7⟩
  documentCategory := .APPROVED_DESIGN
  documentTitle := "Design"
  versionNo := 1
  versionLabel := "v1"
  authorityLevel := .APPROVED_DESIGN
  lifecycleStatus := .PUBLISHED
  isCurrent := true
  effectiveFrom := none
  effectiveTo := none
  content := "locked for 30 minutes"
  contentHash := "digest"
  score := .finite (9 / 10)
  knowledgeSpaceId := some "space-1"
  providerRef := some "chunk-1"
  pageNo := none
  section_ := none
  conflictKey := none
  claimValue := none
  unresolvedConflict := false

def snapshot : EvidenceSnapshot Numeric where
  id := ⟨20⟩
  bundleId := ⟨21⟩
  projectId := ⟨2⟩
  documentVersionId := some ⟨7⟩
  sourceType := "governed_evidence"
  sourceRef := "chunk-1"
  content := "locked for 30 minutes"
  rank := 1
  score := some (.number (9 / 10))
  metadataJson := ∅

def cited : Grounded :=
  ⟨⟨[evidence], []⟩, [⟨1, ⟨20⟩⟩], fun _ h =>
    ⟨evidence, List.mem_cons_self, by rw [List.mem_singleton.mp h]; rfl⟩⟩

def answered : Write := ⟨.saveGroundedAnswer "Locked for 30 minutes. [E1]" cited, ⟨30⟩, [snapshot]⟩

def refused : Write :=
  ⟨.saveAnswer "没有找到足够的已授权证据，无法可靠回答。" (some "RETRIEVAL_ROUND_LIMIT"), ⟨31⟩, [snapshot]⟩

end Sample

/-- A refusal that comes first has no citations to keep. -/
theorem stored_citations_agree_sample :
    (Answered.run ⟨1⟩ ⟨[], []⟩ [Sample.refused, Sample.answered]).Agrees ⟨1⟩ := by
  refine (stored_citations_agree_iff ⟨[], []⟩ ⟨1⟩
    ⟨.nil, .nil, fun _ h => nomatch h⟩ rfl [Sample.refused, Sample.answered]).mpr ?_ _
    (List.prefix_refl _)
  intro pre w answerText refusalReason hpre hcall _
  cases pre with
  | nil => rfl
  | cons first pre =>
    obtain ⟨-, hpre⟩ := List.cons_prefix_cons.mp hpre
    cases pre with
    | nil =>
      obtain ⟨rfl, -⟩ := List.cons_prefix_cons.mp hpre
      cases hcall
    | cons second pre =>
      obtain ⟨-, hpre⟩ := List.cons_prefix_cons.mp hpre
      exact absurd (List.prefix_nil.mp hpre)
        (List.append_ne_nil_of_right_ne_nil _ (List.cons_ne_nil _ _))

/-- The answer of one attempt and the refusal of the next: the refusal is stored with the citations
of the answer. -/
theorem refusal_with_citations :
    ¬ (∀ pre, pre <+: [Sample.answered, Sample.refused] →
      (Answered.run ⟨1⟩ ⟨[], []⟩ pre).Agrees ⟨1⟩) ∧
    (Answered.run ⟨1⟩ ⟨[], []⟩ [Sample.answered, Sample.refused]).tables.answers =
      [⟨⟨30⟩, ⟨1⟩, "没有找到足够的已授权证据，无法可靠回答。", some "RETRIEVAL_ROUND_LIMIT"⟩] ∧
    (Answered.run ⟨1⟩ ⟨[], []⟩ [Sample.answered, Sample.refused]).tables.citations =
      [⟨⟨30⟩, ⟨20⟩, 1, none⟩] := by
  have hcitations : (Answered.run ⟨1⟩ ⟨[], []⟩ [Sample.answered, Sample.refused]).tables.citationsOf
    ⟨1⟩ =
      [⟨⟨30⟩, ⟨20⟩, 1, none⟩] := by decide +kernel
  refine ⟨fun hall => ?_, by decide +kernel, by decide +kernel⟩
  obtain ⟨-, hnone⟩ := hall _ (List.prefix_refl _)
  exact absurd (hcitations.symm.trans hnone) (List.cons_ne_nil _ _)

end ProjectAgent.Evidence
