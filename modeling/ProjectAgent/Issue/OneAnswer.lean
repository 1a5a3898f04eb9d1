/-
One request, one issue, one answer. That no two issues of a request are ever
committed is the unique index's doing. That all answers name the same issue
needs more: once a record is completed, no further issue may be inserted for
its request, and nothing in the services sees to that when the first issue has
been rolled back.
-/
import ProjectAgent.Issue.Durable

namespace ProjectAgent.Issue

open Interleave

variable {deps : Deps} {w w' : IssueWorld} {a : IssueAction} {σ σ' : Store}

def AtMostOne (σ : Store) : Prop :=
  ∀ projectId requestId, (σ.issues.committed.filter fun i =>
    i.projectId == projectId && i.clientRequestId == some requestId).length ≤ 1

/-- Every key answered so far is the committed issue's, once there is one. -/
def AnswersAgree (σ : Store) : Prop :=
  ∀ op outcome key, ⟨op, .answered outcome⟩ ∈ σ.trace → outcome.issueKey = some key →
    ∀ i ∈ σ.issues.committed, i.clientRequestId = some outcome.requestId → i.issueKey = key

/-- The step inserts no issue for a request whose record is completed. -/
def InsertsFresh : IssueAction → IssueWorld → Prop
  | .exec pid c, w => ∀ issue k, w.procs pid = some (.stmt (.insertIssue issue) k) →
      (∀ lost, c.fault ≠ some (.before lost)) → Inserts pid c w.shared issue →
      ∀ requestId r, issue.clientRequestId = some requestId →
        w.shared.idempotency (IDEMPOTENCY_NAMESPACE, requestId) = some r → r.status ≠ .COMPLETED
  | _, _ => True

theorem Inv.atMostOne (hi : Inv deps σ) : AtMostOne σ := by
  intro projectId requestId
  set rows := σ.issues.committed.filter fun i => i.projectId == projectId && i.clientRequestId ==
    some requestId
  have hmem : ∀ i ∈ rows, i.requestKey = some (projectId, requestId) := fun i hi => by
    have hkey := (List.mem_filter.mp hi).2
    simp only [Bool.and_eq_true, beq_iff_eq] at hkey
    simp [SandboxIssue.requestKey, hkey]
  have hpair : rows.Pairwise fun a b => ¬ Table.Clash SandboxIssue.requestKey a b :=
    (hi.unique.sublist (List.sublist_append_left _ _)).sublist List.filter_sublist
  clear_value rows
  rcases rows with _ | ⟨i, _ | ⟨j, rest⟩⟩
  · simp
  · simp
  · have hclash := (List.pairwise_cons.mp hpair).1 j (by simp)
    exact absurd ⟨_, hmem i (by simp), hmem j (by simp)⟩ hclash

/-- Every completion names the issue of its request, whoever holds it. -/
def Agree (σ : Store) : Prop :=
  ∀ requestId key, Completed σ requestId key →
    ∀ i ∈ σ.issues.rows, i.clientRequestId = some requestId → i.issueKey = key

theorem Agree.answers (ha : Agree σ) (hi : Inv deps σ) : AnswersAgree σ := by
  intro op outcome key he hk i hrow hid
  rcases hi.trace _ he with ⟨-, hnone⟩ | ⟨key', hk', hcomp⟩
  · rw [hnone] at hk
    cases hk
  · rw [hk] at hk'
    cases hk'
    exact ha _ key hcomp i (Table.mem_rows.mpr (.inl hrow)) hid

/-- Two rows of one request are one row. -/
theorem Inv.issue_eq (hi : Inv deps σ) {i j : SandboxIssue} (hrow : i ∈ σ.issues.rows)
    (hrow' : j ∈ σ.issues.rows) {requestId : UUID} (hid : i.clientRequestId = some requestId)
    (hid' : j.clientRequestId = some requestId) :
    i = j := by
  obtain ⟨d, project, modelId, hd, hdid, rfl, -⟩ := hi.issues i hrow requestId hid
  have hp := hi.issue_project hrow' hid' hd hdid
  refine hi.unique.eq hrow hrow' ⟨(d.projectId, requestId), ?_, ?_⟩
  · rw [SandboxIssue.requestKey, hid]; rfl
  · simp [SandboxIssue.requestKey, hid', hp]

theorem Agree.step (hg : (spec deps).Good (machine deps) w)
    (hg' : (spec deps).Good (machine deps) w') (ha : Agree w.shared) (hc : InsertsFresh a w)
    (h : (machine deps).step a w = some w') : Agree w'.shared := by
  rintro requestId key ⟨op, he⟩ i hi hid
  rcases step_entry hg h he with he | ⟨pid, c, s, hd, -, ns, resourceType, response, rfl, hkey⟩
  · rcases step_issue h hi with hi | ⟨pid, c, hd, hin⟩
    · exact ha requestId key ⟨op, he⟩ i hi hid
    · -- a new row for a completed request: what the condition rules out
      obtain ⟨k, hp⟩ := hd.issues
      obtain rfl := hd.action
      obtain ⟨r, hr, hst⟩ := hg.inv.trace _ he
      exact absurd hst (hc i k hp (hd.sent rfl) hin requestId r hid hr)
  · -- a new completion names a row its session sees, and there is only one
    obtain ⟨-, -, -, draft, created, -, -, ⟨j, hv, -, hjid, hjk⟩, hck⟩ := hd.permit hg
    obtain ⟨r, hp⟩ := hd.done
    have hj : j ∈ w'.shared.issues.rows := by
      rcases perform_issues hp with hsame | ⟨hs, -⟩ | ⟨_, hs, -⟩
      · exact hsame ▸ Table.view_subset_rows hv
      · cases hs
      · cases hs
    rw [hg'.inv.issue_eq hi hj hid hjid]
    exact hjk.symm.trans (hck.symm.trans hkey)

/-- **One issue, and when one answer.** No run commits two issues of a request.
Along a run that inserts no issue for a request once its record is completed,
every key that was answered is the committed issue's. -/
theorem one_answer (hw : Initial w) (as : List IssueAction) :
    (machine deps).Always (fun w => AtMostOne w.shared) as w ∧
    ((machine deps).EachStep InsertsFresh as w →
      (machine deps).Always (fun w => AnswersAgree w.shared) as w) := by
  refine ⟨hw.alwaysGood.mono fun w hg => hg.inv.atMostOne, fun hc => ?_⟩
  have h₀ : Agree w.shared := fun requestId key ⟨op, he⟩ => by
    rw [hw.trace] at he
    cases he
  exact (hw.always (P := fun w => Agree w.shared) h₀ hc fun a w₁ w₂ hg hg' ha hca h =>
    ha.step hg hg' hca h).mono
    fun w ⟨hg, ha⟩ => ha.answers hg.inv

/-- An execution reserves; a reconciliation reads the reservation and finds no
issue; the execution creates one, answers and is lost; the reconciliation goes on. -/
def Sample.twoAnswers : List IssueAction :=
  decides .CONFIRM 0 ++ .start [executes] 1 :: steps 1 13 9 ++
    .start [.reconcile draft.id] 2 :: steps 2 4 10 ++
    steps 1 10 9 ++ .kill 1 :: steps 2 9 10

theorem Sample.twoAnswers_run : ((machine services).run twoAnswers world).map (fun w =>
    (w.shared.issues.committed.map fun i => (i.clientRequestId, i.issueKey),
      w.shared.trace.filterMap fun e => match e.event with
        | .answered outcome => some outcome
        | _ => none)) =
    some ([(some draft.id, "ALPHA-000010")],
      [⟨.RECONCILED, draft.id, draft.id, some "ALPHA-000010", some "OPEN"⟩,
       ⟨.CREATED, draft.id, draft.id, some "ALPHA-000009", some "OPEN"⟩]) := by
  decide +kernel

/-- One caller was told `ALPHA-000009`; the issue committed for the request is `ALPHA-000010`. -/
theorem answers_differ : Initial Sample.world ∧
    ¬ (machine Sample.services).Always (fun w =>
      AnswersAgree w.shared) Sample.twoAnswers Sample.world := by
  refine ⟨Sample.world_initial, fun h => ?_⟩
  obtain ⟨w, hr, hobs⟩ := Option.map_eq_some_iff.mp Sample.twoAnswers_run
  obtain ⟨hissues, houtcomes⟩ := Prod.mk.inj hobs
  have hi : (some Sample.draft.id, "ALPHA-000010") ∈
      w.shared.issues.committed.map fun i => (i.clientRequestId, i.issueKey) := by
    rw [hissues]
    simp
  have ho : (⟨.CREATED, Sample.draft.id, Sample.draft.id, some "ALPHA-000009", some "OPEN"⟩ :
      IssueCreationOutcome) ∈ w.shared.trace.filterMap fun e => match e.event with
        | .answered outcome => some outcome
        | _ => none := by
    rw [houtcomes]
    simp
  obtain ⟨i, hi, hik⟩ := List.mem_map.mp hi
  obtain ⟨⟨op, event⟩, he, hev⟩ := List.mem_filterMap.mp ho
  obtain ⟨hid, hkey⟩ := Prod.mk.inj hik
  cases event with
  | answered outcome =>
    cases hev
    have hagree := h.last hr op _ "ALPHA-000009" he rfl i hi hid
    rw [hkey] at hagree
    exact absurd hagree (by decide)
  | _ => cases hev

/-- Confirmed, executed and committed. -/
def Sample.created : List IssueAction :=
  decides .CONFIRM 0 ++ .start [executes] 1 :: steps 1 24 9 ++ [.finish 1]

def Sample.insertsFresh : IssueAction → IssueWorld → Bool
  | .exec pid _, w =>
    match w.procs pid with
    | some (.stmt (.insertIssue issue) _) => issue.clientRequestId.all fun requestId =>
        (w.shared.idempotency (IDEMPOTENCY_NAMESPACE, requestId)).all (·.status != .COMPLETED)
    | _ => true
  | _, _ => true

theorem Sample.insertsFresh_sound (a : IssueAction) (w : IssueWorld) (h : insertsFresh a w = true) :
    InsertsFresh a w := by
  cases a with
  | exec pid c =>
    intro issue k hp _ _ requestId r hid hr
    simp only [insertsFresh, hp, hid, Option.all_some, hr, bne_iff_ne] at h
    exact h
  | start | finish | kill | env => trivial

theorem Sample.created_insertsFresh :
    (machine services).checks insertsFresh created world = true := by
  decide +kernel

theorem one_answer_created : ((machine Sample.services).run Sample.created Sample.world).isSome ∧
    (machine Sample.services).Always (fun w => AnswersAgree w.shared) Sample.created Sample.world :=
  ⟨Machine.run_isSome_of_checks Sample.created_insertsFresh,
    (one_answer Sample.world_initial Sample.created).2
    (Machine.eachStep_of_checks Sample.insertsFresh_sound Sample.created_insertsFresh)⟩

end ProjectAgent.Issue
