/-
Every permitted statement keeps the invariant, and so do a session's end and
the steps outside.
-/
import ProjectAgent.Issue.Spec

namespace ProjectAgent.Issue

open Interleave

variable {deps : Deps} {pid : Nat} {c : Choice} {σ σ' : Store}

/-- The rows of a rolled back table were there before. -/
theorem mem_rows_of_rollback {α : Type} {t : Table α} {a : α} (h : a ∈ (t.rollback pid).rows) :
    a ∈ t.rows := by
  simp only [Table.mem_rows, Table.committed_rollback, Table.mem_pending_rollback] at h ⊢
  refine h.imp_right ?_
  rintro ⟨p, h, -⟩
  exact ⟨p, h⟩

theorem Inv.log (hi : Inv deps σ) {e : Event}
    (he : ∀ op, σ.ops pid = some op → EntryOk deps (σ.log pid e) ⟨op, e⟩) :
    Inv deps (σ.log pid e) := by
  refine hi.extend (Grows.log (q := pid) σ pid e) hi.draftId (fun _ _ _ => .inl) hi.unique
    (fun _ _ => .inl)
    (fun _ => .inl) (fun _ => .inl) (fun e' he' => ?_) (fun _ _ => .inl)
  simp only [Store.log, List.mem_append, Option.mem_toList, Option.map_eq_some_iff] at he'
  rcases he' with ⟨op, hop, rfl⟩ | h
  · exact .inr (he op hop)
  · exact .inl h

theorem Inv.load (hi : Inv deps σ) {draft : IssueDraft} (hd : σ.Has draft) :
    Inv deps (σ.load pid draft) := by
  refine hi.extend (q := pid) { Grows.refl with } hi.draftId (fun p id d h => ?_) hi.unique
    (fun _ _ => .inl)
    (fun _ => .inl) (fun _ => .inl) (fun _ => .inl) (fun _ _ => .inl)
  simp only [Store.load, Function.update_apply] at h
  split at h
  · next hp =>
    rw [Function.update_apply] at h
    split at h
    · next hid =>
      cases h
      exact .inr ⟨hid.symm, hd⟩
    · exact .inl (hp ▸ h)
  · exact .inl h

/-- The invariant says nothing about row locks, status updates, jobs and the directory, and lets
time pass. -/
theorem Inv.frame (hi : Inv deps σ) (locks : List (Nat × UUID))
    (writes : List (Nat × UUID × IssueDraftStatus))
    (jobs : List Jobs.EnqueueJobRequest) (directory : Directory) (n : Nat) : Inv deps
      { σ with
        rowLocks := locks, statusWrites := writes, jobs := jobs, directory := directory, now :=
          σ.now + n } :=
  hi.extend (q := 0) { Grows.refl with
    now := Nat.le_add_right _ _ } hi.draftId (fun _ _ _ => .inl) hi.unique
    (fun _ _ => .inl) (fun _ => .inl) (fun _ => .inl) (fun _ => .inl) (fun _ _ => .inl)

theorem Inv.commit (hi : Inv deps σ) : Inv deps (σ.commit pid) := by
  refine hi.extend (Grows.commit (q := pid) σ pid) (fun id draft h => ?_)
    (fun _ _ _ => .inl) hi.unique.commit
    (fun _ _ => .inl) (fun r h => .inl (Table.mem_rows_commit.mp h))
      (fun i h => .inl (Table.mem_rows_commit.mp h))
    (fun _ => .inl) (fun _ _ => .inl)
  obtain ⟨d, hd, rfl⟩ := Option.map_eq_some_iff.mp h
  split <;> exact hi.draftId id d hd

theorem Inv.close (hi : Inv deps σ) : Inv deps (σ.close pid) := by
  refine hi.extend (close_grows (Nat.succ_ne_self pid)) hi.draftId (fun p id d h =>
    .inl ?_) hi.unique.rollback
    (fun _ _ => .inl) (fun r h => .inl (mem_rows_of_rollback h))
      (fun i h => .inl (mem_rows_of_rollback h))
    (fun _ => .inl) (fun p op h => .inl ?_)
  · simp only [Store.close, Function.update_apply] at h
    split at h
    · cases h
    · exact h
  · simp only [Store.close, Function.update_apply] at h
    split at h
    · cases h
    · exact h

theorem Inv.insertConfirmation (hi : Inv deps σ) {r : ToolConfirmationReceipt}
    (hr : ReceiptOk deps σ r) :
    Inv deps { σ with confirmations := σ.confirmations.insert pid r } := by
  have g := Grows.insertConfirmation (q := pid) σ pid r
  refine hi.extend g hi.draftId (fun _ _ _ => .inl) hi.unique (fun _ _ => .inl) (fun r' h => ?_)
    (fun _ => .inl)
    (fun _ => .inl) (fun _ _ => .inl)
  rcases List.mem_cons.mp (Table.rows_insert.mem_iff.mp h) with rfl | h
  · exact .inr (hr.grow g)
  · exact .inl h

theorem Inv.insertIssue (hi : Inv deps σ) {i : SandboxIssue} (ho : IssueOk deps σ i)
    (hw : ¬ σ.issues.Waits SandboxIssue.requestKey pid i)
    (ht : ¬ σ.issues.Taken SandboxIssue.requestKey pid i) :
    Inv deps { σ with issues := σ.issues.insert pid i } := by
  have g := Grows.insertIssue (q := pid) σ pid i
  refine hi.extend g hi.draftId (fun _ _ _ => .inl) (hi.unique.insert hw ht) (fun _ _ => .inl)
    (fun _ => .inl)
    (fun i' h => ?_) (fun _ => .inl) (fun _ _ => .inl)
  rcases List.mem_cons.mp (Table.rows_insert.mem_iff.mp h) with rfl | h
  · exact .inr (ho.grow g)
  · exact .inl h

/-- A record is written and reported in one step: reserved, or completed. -/
theorem Inv.record (hi : Inv deps σ) {requestId : UUID} {r : IdempotencyRecord} {e : Event}
    (hg : ∀ r₀, σ.idempotency (IDEMPOTENCY_NAMESPACE, requestId) = some r₀ →
      r.projectId = r₀.projectId ∧
      (r₀.status = .COMPLETED → r.status = .COMPLETED))
    (hr : ∀ σ', σ' = { σ with
      idempotency := Function.update σ.idempotency (IDEMPOTENCY_NAMESPACE, requestId)
        (some r) }.log pid e →
      Grows pid σ σ' → RecordOk σ' requestId r ∧ ∀ op, σ.ops pid = some op →
        EntryOk deps σ' ⟨op, e⟩) :
    Inv deps ({ σ with
      idempotency := Function.update σ.idempotency (IDEMPOTENCY_NAMESPACE, requestId) (some r) }.log
        pid e) := by
  have g := (Grows.record (q := pid) σ _ r hg).trans (Grows.log _ pid e)
  obtain ⟨hrec, hent⟩ := hr _ rfl g
  refine hi.extend g hi.draftId (fun _ _ _ => .inl) hi.unique (fun rid r' h => ?_) (fun _ => .inl)
    (fun _ => .inl)
    (fun e' h => ?_) (fun _ _ => .inl)
  · simp only [Store.log, Function.update_apply, Prod.mk.injEq, true_and] at h
    split at h
    · next hrid =>
      cases h
      exact .inr (hrid ▸ hrec)
    · exact .inl h
  · simp only [Store.log, List.mem_append, Option.mem_toList, Option.map_eq_some_iff] at h
    rcases h with ⟨op, hop, rfl⟩ | h
    · exact .inr (hent op hop)
    · exact .inl h

/-- The trace's new entry, for the operation the session is in. -/
theorem mem_log {op : Op} {e : Event} (h : σ.ops pid = some op) :
    ⟨op, e⟩ ∈ (σ.log pid e).trace := by
  simp [Store.log, h]

/-- What is inserted for a request of known origin is in order. -/
theorem Origin.issueOk {request : CreateIssueRequest} (h : Origin deps σ pid request)
    (project : SandboxProject) (modelId : UUID) :
    IssueOk deps σ (issueRow project modelId request) := by
  obtain ⟨op, draft, -, hd, rfl, hres, -⟩ := h
  intro requestId hid
  cases hid
  exact ⟨draft, project, modelId, hd, rfl, rfl, hres⟩

theorem perform_inv (hi : Inv deps σ) {s : Stmt} (hp : permit deps pid s σ) {r : Except Exc s.Res}
    (h : perform pid c σ s = some (r, σ')) : Inv deps σ' := by
  cases s with
  | enter call =>
    cases h
    refine hi.extend (q := pid + 1) { Grows.refl with
      op := Function.update_of_ne (Nat.succ_ne_self pid) _ _ }
      hi.draftId (fun _ _ _ => .inl) hi.unique (fun _ _ => .inl) (fun _ => .inl) (fun _ => .inl)
      (fun _ => .inl) (fun p op h => ?_)
    simp only [Function.update_apply] at h
    split at h
    · cases h; exact .inr (Nat.le_refl _)
    · exact .inl h
  | mark e =>
    cases h
    exact hi.log fun op hop => (hp.2.1 op hop).grow (Grows.log (q := pid) σ pid e)
  | getDraft draftId =>
    simp only [perform] at h
    split at h <;> cases h
    · exact hi
    · next draft _ hd =>
      obtain rfl := hi.draftId _ _ hd
      exact hi.load ⟨draft.status, hd⟩
    · exact hi
  | setDraftStatus draftId status =>
    obtain ⟨locks, rfl | ⟨draft, hd, rfl⟩⟩ := perform_setDraftStatus h
    · exact hi.frame locks σ.statusWrites σ.jobs σ.directory 0
    · obtain rfl := hi.draftId _ _ hd
      have hload : Inv deps (σ.load pid { draft with
          status := status }) := hi.load ⟨draft.status, hd⟩
      exact hload.frame locks _ σ.jobs σ.directory 0
  | insertConfirmation receipt =>
    simp only [perform] at h
    split at h
    · cases h
    · split at h <;> cases h
      · exact hi
      · exact hi.insertConfirmation hp
  | getActiveMembership userId projectId t => cases h; exact hi.log fun _ _ => trivial
  | insertIdempotency ns requestId projectId =>
    obtain ⟨rfl, op, draft, receipt, hop, hd, hid, hpr, hv, hc⟩ := hp
    simp only [perform] at h
    split at h
    · cases h; exact hi
    · next hn =>
      cases h
      refine hi.record (fun r₀ hr₀ => by rw [hn] at hr₀; cases hr₀) fun σ' hσ' g =>
        ⟨⟨?_, ?_, ?_⟩, fun op' hop' => ?_⟩
      · exact ⟨draft, g.has hd, hid, hpr.symm⟩
      · exact ⟨op, hσ' ▸ mem_log hop⟩
      · intro hc; cases hc
      · rw [hop] at hop'
        cases hop'
        subst hσ'
        exact ⟨⟨_, Function.update_self ..⟩, draft, receipt, g.has hd, hid, hc.mono fun e =>
          g.mem_trace⟩
  | completeIdempotency ns requestId resourceType resourceId response =>
    obtain ⟨rfl, hres, ⟨op, hop⟩, -⟩ := hp
    simp only [perform] at h
    split at h
    · cases h; exact hi
    · next r₀ hr₀ =>
      cases h
      have hok := hi.records requestId r₀ hr₀
      refine hi.record (fun r₁ hr₁ => by rw [hr₀] at hr₁; cases hr₁; exact ⟨rfl, fun _ => rfl⟩)
        fun σ' hσ' g => ⟨⟨(hok.grow g).draft, (hok.grow g).reserved, fun _ => ?_⟩, fun _ _ => ?_⟩
      · exact ⟨response, rfl, congrArg some hres, op, hσ' ▸ mem_log hop⟩
      · subst hσ'
        exact ⟨_, Function.update_self .., rfl⟩
  | insertIssue issue =>
    obtain ⟨-, request, project, modelId, -, -, rfl, ho⟩ := hp
    simp only [perform] at h
    split at h
    · cases h
    · next hw =>
      split at h
      · cases h; exact hi
      · next ht =>
        split at h <;> cases h
        · exact hi
        · exact (hi.insertIssue (ho.issueOk project modelId) (fun h => hw (.inl h)) ht).log
            fun _ _ => trivial
  | enqueue request => cases h; exact hi.frame _ _ _ _ 0
  | commit => cases h; exact hi.commit
  | clock | uuid4 | listCandidateLinks | selectConfirmation | getConfirmation
      | listPublishedVersions |
    listActiveKnowledgeSpaceIds | selectIdempotency | selectIssue | selectActiveSandboxProjects =>
    cases h; exact hi

theorem exec_inv (hi : Inv deps σ) {s : Stmt} (hp : permit deps pid s σ) {r : Except Exc s.Res}
    (h : exec pid s c σ = some (r, σ')) : Inv deps σ' := by
  rcases exec_cases h with ⟨r₀, h, -⟩ | ⟨rfl, -⟩
  · exact perform_inv hi hp h
  · exact hi

theorem outside_inv (hi : Inv deps σ) {e : Outside} (h : outside e σ = some σ') : Inv deps σ' := by
  have g := outside_grows (q := 0) h
  cases e with
  | tick n => cases h; exact hi.frame _ _ _ _ n
  | direct directory => cases h; exact hi.frame _ _ _ _ 0
  | createDraft draft =>
    simp only [outside] at h
    split at h
    · cases h
      refine hi.extend g (fun id d h => ?_) (fun _ _ _ => .inl) hi.unique (fun _ _ => .inl)
        (fun _ => .inl)
        (fun _ => .inl) (fun _ => .inl) (fun _ _ => .inl)
      simp only [Function.update_apply] at h
      split at h
      · next hid => cases h; exact hid.symm
      · exact hi.draftId id d h
    · cases h

end ProjectAgent.Issue
