/-
A completed idempotency record as a promise: the issue it names is there. The
record commits in a session of its own, the issue in its creator's; between
the two commits the promise is open, and a rollback in between breaks it for
good.
-/
import ProjectAgent.Issue.Steps

namespace ProjectAgent.Issue

open Interleave

variable {deps : Deps} {w w' : IssueWorld} {a : IssueAction} {σ σ' : Store}

/-- A committed sandbox issue with this project, request id and key. -/
def HasIssue (σ : Store) (projectId requestId : UUID) (key : String) : Prop :=
  ∃ i ∈ σ.issues.committed, i.projectId = projectId ∧ i.clientRequestId = some requestId ∧
    i.issueKey = key

/-- Every completed record, and every answer given by one, names a committed issue. -/
structure Durable (σ : Store) : Prop where
  record : ∀ requestId r, σ.idempotency (IDEMPOTENCY_NAMESPACE, requestId) = some r →
    r.status = .COMPLETED →
    ∃ response, r.response = some response ∧ r.resourceId = some response.issueKey ∧
      HasIssue σ r.projectId requestId response.issueKey
  answer : ∀ op outcome, ⟨op, .answered outcome⟩ ∈ σ.trace →
    outcome.status = .ALREADY_CREATED ∨ outcome.status = .RECONCILED →
    ∃ key projectId, outcome.issueKey = some key ∧ HasIssue σ projectId outcome.requestId key

/-- The step does not complete a record by an issue its own session has not committed. -/
def CompletesCommitted : IssueAction → IssueWorld → Prop
  | .exec pid c, w => ∀ ns requestId resourceType resourceId response k,
      w.procs pid =
        some (.stmt (.completeIdempotency ns requestId resourceType resourceId response) k) →
      (∀ lost, c.fault ≠ some (.before lost)) →
      ∀ i, (pid, i) ∈ w.shared.issues.pending → i.clientRequestId ≠ some requestId
  | _, _ => True

/-- Every completion names a committed issue. -/
def Settled (σ : Store) : Prop :=
  ∀ requestId key, Completed σ requestId key →
    ∃ i ∈ σ.issues.committed, i.clientRequestId = some requestId ∧ i.issueKey = key

/-- The issue of a request is in the project of the request's draft. -/
theorem Inv.issue_project (hi : Inv deps σ) {i : SandboxIssue} (hrow : i ∈ σ.issues.rows)
    {requestId : UUID} (hid : i.clientRequestId = some requestId) {d : IssueDraft} (hd : σ.Has d)
    (hdid : d.id = requestId) :
    i.projectId = d.projectId := by
  obtain ⟨d', project, modelId, hd', hd'id, rfl, -⟩ := hi.issues i hrow requestId hid
  rw [hd'.content hd (hd'id.trans hdid.symm)]
  rfl

theorem Settled.durable (hs : Settled σ) (hi : Inv deps σ) : Durable σ where
  record requestId r hr hc := by
    have hok := hi.records requestId r hr
    obtain ⟨response, hres, hkey, hcomp⟩ := hok.completed hc
    obtain ⟨i, hi', hid, hk⟩ := hs requestId _ hcomp
    obtain ⟨d, hd, hdid, hp⟩ := hok.draft
    have hproject := hi.issue_project (Table.mem_rows.mpr (.inl hi')) hid hd hdid
    exact ⟨response, hres, hkey, i, hi', hproject.trans hp.symm, hid, hk⟩
  answer op outcome he hst := by
    rcases hi.trace _ he with ⟨hp, -⟩ | ⟨key, hkey, hcomp⟩
    · rw [hp] at hst
      rcases hst with h | h <;> cases h
    · obtain ⟨i, hi', hid, hk⟩ := hs _ key hcomp
      exact ⟨key, i.projectId, hkey, i, hi', rfl, hid, hk⟩

/-- A completion by a committed issue is settled; the rest of the step takes no commit back. -/
theorem Settled.step (hg : (spec deps).Good (machine deps) w) (hs : Settled w.shared)
    (hc : CompletesCommitted a w) (h : (machine deps).step a w = some w') : Settled w'.shared := by
  obtain ⟨q, g⟩ := step_grows h
  rintro requestId key ⟨op, he⟩
  rcases step_entry hg h he with he | ⟨pid, c, s, hd, -, ns, resourceType, response, rfl, hkey⟩
  · obtain ⟨i, hi, hid, hk⟩ := hs requestId key ⟨op, he⟩
    exact ⟨i, g.committedIssues i hi, hid, hk⟩
  · obtain ⟨-, -, -, draft, created, -, -, ⟨i, hv, -, hid, hik⟩, hck⟩ := hd.permit hg
    obtain ⟨k, hp⟩ := hd.issues
    obtain rfl := hd.action
    rcases Table.mem_view.mp hv with hv | hv
    · exact ⟨i, g.committedIssues i hv, hid, hik.symm.trans (hck.symm.trans hkey)⟩
    · exact absurd hid (hc ns requestId resourceType key response k hp (hd.sent rfl) i hv)

/-- Completed by an issue of its own session's, a record is at once a promise nobody keeps. -/
theorem completesCommitted_of_durable (hg : (spec deps).Good (machine deps) w)
    (h : (machine deps).step a w = some w') (hd : Durable w'.shared) : CompletesCommitted a w := by
  cases a with
  | exec pid c =>
    intro ns requestId resourceType resourceId response k hp hf i hi hid
    obtain ⟨rfl, -⟩ := (hg.exec fits hp).1
    have hrow : i ∈ w.shared.issues.rows := Table.mem_rows.mpr (.inr ⟨pid, hi⟩)
    obtain ⟨d, project, modelId, hdraft, hdid, -, op, hres⟩ := hg.inv.issues i hrow requestId hid
    obtain ⟨⟨r, hr⟩, -⟩ := hg.inv.trace _ hres
    obtain ⟨d', hdraft', hdid', hrp⟩ := (hg.inv.records _ r hr).draft
    -- the statement is done, so the record is completed and the issues are as they were
    obtain ⟨r₀, hdone⟩ := (does_of_step h hp hf).done
    simp only [perform, hr, Option.some.injEq, Prod.mk.injEq] at hdone
    have hissues : w'.shared.issues = w.shared.issues := hdone.2 ▸ rfl
    have hrecord : w'.shared.idempotency (IDEMPOTENCY_NAMESPACE, requestId) =
      some ⟨r.projectId, .COMPLETED,
        some resourceType, some resourceId, some response⟩ := hdone.2 ▸ Function.update_self ..
    obtain ⟨response', -, -, i', hi', hp', hid', -⟩ := hd.record requestId _ hrecord rfl
    rw [hissues] at hi'
    refine hg.inv.unique.not_clash hi' hi ⟨(i.projectId, requestId), ?_, ?_⟩
    · have hip := hg.inv.issue_project hrow hid hdraft' hdid'
      simp [SandboxIssue.requestKey, hid', hp', hrp, hip]
    · simp [SandboxIssue.requestKey, hid]
  | start | finish | kill | env => trivial

/-- **When the promise holds.** Along a run every completed record, and every
answer by one, names a committed issue, exactly if no session ever completes a
record while it holds the record's issue uncommitted. -/
theorem durable_iff (hw : Initial w) (as : List IssueAction) :
    (machine deps).Always (fun w => Durable w.shared) as w ↔
      (machine deps).EachStep CompletesCommitted as w := by
  constructor
  · intro h pre a hpre w₁ w₂ hr hs
    exact completesCommitted_of_durable
      (hw.alwaysGood pre ((List.prefix_append pre [a]).trans hpre) w₁ hr) hs
      (h.step hpre hr hs).2
  · intro hc
    have h₀ : Settled w.shared := fun requestId key ⟨op, he⟩ => by
      rw [hw.trace] at he
      cases he
    exact (hw.always (P := fun w => Settled w.shared) h₀ hc fun a w₁ w₂ hg _ hs hca h =>
      hs.step hg hca h).mono
      fun w ⟨hg, hs⟩ => hs.durable hg.inv

/-! ## A promise broken

One draft, its creator a developer of the project. The sessions below confirm
it, create its issue and lose the creating session after the record is
completed; a replay then answers by the record. -/

namespace Sample

/-- The digest of the draft's payload. -/
def digest : String := "269435203034f10dc12bf529f1f4acca26951c8df5e0d1e2ceb988959a65f7d3"

def services : Deps where
  extract _ := []
  sha256 _ := digest
  ttl := 900

def draft : IssueDraft where
  id := .ofNat 1
  runId := .ofNat 2
  projectId := .ofNat 3
  createdBy := .ofNat 4
  title := "login fails"
  description := "login fails"
  issueType := "task"
  proposedPriority := "medium"
  module := none
  environment := none
  reproductionSteps := []
  expectedBehavior := none
  actualBehavior := none
  evidenceIds := []
  status := .DRAFT
  createdAt := 0

def directory : Directory where
  memberships := [⟨.ofNat 4, .ofNat 3, .DEVELOPER, 0, none⟩]
  projects := [⟨.ofNat 3, .ofNat 5, .ofNat 6, "ALPHA", .ACTIVE⟩]
  sandboxProjects := [⟨.ofNat 7, .ofNat 3, "ALPHA", "active"⟩]
  publishedVersions _ := []
  activeKnowledgeSpaceIds _ := []
  candidateLinks _ := []

def world : IssueWorld where
  shared :=
    { drafts := fun id => if id = draft.id then some draft else none
      loaded := fun _ _ => none
      rowLocks := []
      statusWrites := []
      confirmations := ⟨[], []⟩
      issues := ⟨[], []⟩
      idempotency := fun _ => none
      directory := directory
      jobs := []
      now := 10
      opened := 0
      ops := fun _ => none
      trace := [] }
  procs := fun _ => none

theorem world_initial : Initial world where
  idle _ := rfl
  drafts id d h := by
    simp only [world] at h
    split at h
    · next hid => cases h; exact hid.symm
    · cases h
  loaded _ _ := rfl
  rowLocks := rfl
  statusWrites := rfl
  confirmations := rfl
  issues := ⟨[], rfl, fun _ h => absurd h List.not_mem_nil⟩
  idempotency _ := rfl
  ops _ := rfl
  trace := rfl

/-- `n` statements of a session, each answered, and every UUID drawn the same. -/
def steps (pid n drawn : Nat) : List IssueAction :=
  List.replicate n (.exec pid ⟨none, .ofNat drawn, 0⟩)

/-- The user decides; the receipt's id is 8. -/
def decides (action : ConfirmationAction) (pid : Nat) : List IssueAction :=
  .start [.recordDecision draft.id draft.createdBy action digest] pid :: steps pid 10 8 ++
    [.finish pid]

def executes : Call := .execute draft.id (.ofNat 8) draft.createdBy

/-- The key and status of every answer so far, the last first. -/
def answers (σ : Store) : List (IssueCreationStatus × Option String) :=
  σ.trace.filterMap fun e => match e.event with
    | .answered outcome => some (outcome.status, outcome.issueKey)
    | _ => none

def recordStatus (σ : Store) : Option IdempotencyStatus :=
  (σ.idempotency (IDEMPOTENCY_NAMESPACE, draft.id)).map (·.status)

/-- Confirmed and executed; the session is lost between the record's commit and its own;
replayed. -/
def lostCommit : List IssueAction :=
  decides .CONFIRM 0 ++ .start [executes] 1 :: steps 1 22 9 ++ [.kill 1, .start [executes] 2] ++
    steps 2 12 10

theorem lostCommit_run : ((machine services).run lostCommit world).map (fun w =>
    (w.shared.issues.committed, recordStatus w.shared, answers w.shared)) =
    some ([], some .COMPLETED, [(.ALREADY_CREATED, some "ALPHA-000009")]) := by
  decide +kernel

end Sample

/-- A replay answers `ALREADY_CREATED` by a completed record, and there is no issue. -/
theorem durable_broken : Initial Sample.world ∧
    ¬ (machine Sample.services).Always (fun w =>
      Durable w.shared) Sample.lostCommit Sample.world := by
  refine ⟨Sample.world_initial, fun h => ?_⟩
  obtain ⟨w, hr, hobs⟩ := Option.map_eq_some_iff.mp Sample.lostCommit_run
  simp only [Prod.mk.injEq, Sample.recordStatus, Option.map_eq_some_iff] at hobs
  obtain ⟨hnone, ⟨r, hrecord, hcompleted⟩, -⟩ := hobs
  obtain ⟨response, -, -, i, hi, -⟩ := (h.last hr).record _ r hrecord hcompleted
  rw [hnone] at hi
  cases hi

theorem durable_iff_lostCommit :
    (machine Sample.services).Always (fun w => Durable w.shared) Sample.lostCommit Sample.world ↔
      (machine Sample.services).EachStep CompletesCommitted Sample.lostCommit Sample.world :=
  durable_iff Sample.world_initial Sample.lostCommit

end ProjectAgent.Issue
