/-
What no step of anyone's takes away from a session: drafts keep their content,
records stay and keep their project, what is committed stays committed, the
session keeps its own rows, the trace only grows (`Grows`). Every statement of
every session grows the store, and so does everything outside.
-/
import ProjectAgent.Issue.Services

namespace ProjectAgent.Issue

open Interleave

/-- The draft is in the store, whatever its status is by now. -/
def Store.Has (σ : Store) (draft : IssueDraft) : Prop :=
  ∃ status, σ.drafts draft.id = some { draft with status := status }

structure Grows (pid : Nat) (σ σ' : Store) : Prop where
  drafts : ∀ id draft, σ.drafts id = some draft →
    ∃ status, σ'.drafts id = some { draft with status := status }
  receipts : ∀ r ∈ σ.confirmations.view pid, r ∈ σ'.confirmations.view pid
  committedReceipts : ∀ r ∈ σ.confirmations.committed, r ∈ σ'.confirmations.committed
  issues : ∀ i ∈ σ.issues.view pid, i ∈ σ'.issues.view pid
  committedIssues : ∀ i ∈ σ.issues.committed, i ∈ σ'.issues.committed
  records : ∀ k r, σ.idempotency k = some r → ∃ r', σ'.idempotency k = some r' ∧
    r'.projectId = r.projectId ∧ (r.status = .COMPLETED → r'.status = .COMPLETED)
  trace : σ.trace <:+ σ'.trace
  now : σ.now ≤ σ'.now
  op : σ'.ops pid = σ.ops pid

namespace Grows

variable {pid : Nat} {σ σ' σ'' : Store} {draft : IssueDraft}

theorem refl : Grows pid σ σ where
  drafts _ draft h := ⟨draft.status, h⟩
  receipts _ h := h
  committedReceipts _ h := h
  issues _ h := h
  committedIssues _ h := h
  records _ r h := ⟨r, h, rfl, id⟩
  trace := List.suffix_refl _
  now := Nat.le_refl _
  op := rfl

theorem trans (h : Grows pid σ σ') (h' : Grows pid σ' σ'') : Grows pid σ σ'' where
  drafts id draft hd := by
    obtain ⟨s, hs⟩ := h.drafts id draft hd
    obtain ⟨s', hs'⟩ := h'.drafts id _ hs
    exact ⟨s', hs'⟩
  receipts r hr := h'.receipts r (h.receipts r hr)
  committedReceipts r hr := h'.committedReceipts r (h.committedReceipts r hr)
  issues i hi := h'.issues i (h.issues i hi)
  committedIssues i hi := h'.committedIssues i (h.committedIssues i hi)
  records k r hr := by
    obtain ⟨r₁, h₁, hp₁, hc₁⟩ := h.records k r hr
    obtain ⟨r₂, h₂, hp₂, hc₂⟩ := h'.records k r₁ h₁
    exact ⟨r₂, h₂, hp₂.trans hp₁, fun hr => hc₂ (hc₁ hr)⟩
  trace := h.trace.trans h'.trace
  now := h.now.trans h'.now
  op := h'.op.trans h.op

theorem has (h : Grows pid σ σ') (hd : σ.Has draft) : σ'.Has draft := by
  obtain ⟨s, hs⟩ := hd
  obtain ⟨s', hs'⟩ := h.drafts _ _ hs
  exact ⟨s', hs'⟩

theorem mem_trace (h : Grows pid σ σ') {e : Entry} (he : e ∈ σ.trace) : e ∈ σ'.trace :=
  h.trace.mem he

end Grows

/-! ## Statements -/

section
variable {pid q : Nat} {σ σ' : Store} {c : Choice}

theorem Store.trace_log (σ : Store) (pid : Nat) (e : Event) : σ.trace <:+ (σ.log pid e).trace :=
  List.suffix_append _ _

theorem Grows.log (σ : Store) (pid : Nat) (e : Event) : Grows q σ (σ.log pid e) :=
  { Grows.refl with trace := σ.trace_log pid e }

/-- A commit changes statuses and shares rows. -/
theorem Grows.commit (σ : Store) (pid : Nat) : Grows q σ (σ.commit pid) :=
  { Grows.refl with
    drafts := fun id draft h => by
      simp only [Store.commit, Store.commitDraft, h, Option.map_some]
      cases σ.ownStatus pid id with
      | none => exact ⟨draft.status, rfl⟩
      | some status => exact ⟨status, rfl⟩
    receipts := fun r h => by
      simp only [Store.commit, Table.mem_view, Table.mem_committed_commit,
        Table.mem_pending_commit] at h ⊢
      by_cases hq : q = pid
      · exact .inl (hq ▸ h.symm)
      · exact h.imp .inr fun h => ⟨h, hq⟩
    committedReceipts := fun r h => by
      simp only [Store.commit, Table.mem_committed_commit]
      exact .inr h
    issues := fun i h => by
      simp only [Store.commit, Table.mem_view, Table.mem_committed_commit,
        Table.mem_pending_commit] at h ⊢
      by_cases hq : q = pid
      · exact .inl (hq ▸ h.symm)
      · exact h.imp .inr fun h => ⟨h, hq⟩
    committedIssues := fun i h => by
      simp only [Store.commit, Table.mem_committed_commit]
      exact .inr h }

theorem Grows.insertConfirmation (σ : Store) (pid : Nat) (r : ToolConfirmationReceipt) :
    Grows q σ { σ with confirmations := σ.confirmations.insert pid r } :=
  { Grows.refl with
    receipts := fun r' h => by
      simp only [Table.mem_view, Table.committed_insert, Table.mem_pending_insert] at h ⊢
      exact h.imp_right .inr }

theorem Grows.insertIssue (σ : Store) (pid : Nat) (i : SandboxIssue) :
    Grows q σ { σ with issues := σ.issues.insert pid i } :=
  { Grows.refl with
    issues := fun i' h => by
      simp only [Table.mem_view, Table.committed_insert, Table.mem_pending_insert] at h ⊢
      exact h.imp_right .inr }

/-- A new record, or an old one's completion. -/
theorem Grows.record (σ : Store) (k : String × UUID) (r : IdempotencyRecord)
    (h : ∀ r₀, σ.idempotency k = some r₀ → r.projectId = r₀.projectId ∧
      (r₀.status = .COMPLETED → r.status = .COMPLETED)) :
    Grows q σ { σ with idempotency := Function.update σ.idempotency k (some r) } :=
  { Grows.refl with
    records := fun k' r' hr' => by
      by_cases hk : k' = k
      · subst hk
        exact ⟨r, Function.update_self .., h r' hr'⟩
      · exact ⟨r', (Function.update_of_ne hk _ _).trans hr', rfl, id⟩ }

/-- A status update, where the draft's row is there and the session's copy has another status. -/
theorem perform_setDraftStatus {draftId : UUID} {status : IssueDraftStatus}
    {r : Except Exc (Option IssueDraft)}
    (h : perform pid c σ (.setDraftStatus draftId status) = some (r, σ')) : ∃ locks,
      σ' = { σ with rowLocks := locks } ∨ ∃ draft, σ.drafts draftId = some draft ∧
        σ' = { { σ with rowLocks := locks }.load pid { draft with status := status } with
          statusWrites := (pid, draftId, status) :: σ.statusWrites } := by
  simp only [perform] at h
  split at h
  · cases h
  · split at h
    · cases h
      exact ⟨σ.rowLocks, .inl rfl⟩
    · next draft hd =>
      refine ⟨(pid, draftId) :: σ.rowLocks, ?_⟩
      split at h <;> cases h
      · exact .inl rfl
      · exact .inr ⟨draft, hd, rfl⟩

/-- A statement leaves the drafts another session has loaded as they are. -/
theorem perform_loaded {s : Stmt} {r : Except Exc s.Res} (h : perform pid c σ s = some (r, σ'))
    (hq : q ≠ pid) :
    σ'.loaded q = σ.loaded q := by
  cases s with
  | setDraftStatus draftId status =>
    obtain ⟨locks, rfl | ⟨draft, -, rfl⟩⟩ := perform_setDraftStatus h
    · rfl
    · exact Function.update_of_ne hq _ _
  | getDraft draftId =>
    simp only [perform] at h
    split at h <;> cases h
    · rfl
    · exact Function.update_of_ne hq _ _
    · rfl
  | insertIdempotency | completeIdempotency =>
    simp only [perform] at h
    split at h <;> cases h <;> rfl
  | insertConfirmation receipt =>
    simp only [perform] at h
    split at h
    · cases h
    · split at h <;> cases h <;> rfl
  | insertIssue issue =>
    simp only [perform] at h
    split at h
    · cases h
    · split at h
      · cases h; rfl
      · split at h <;> cases h <;> rfl
  | enter | mark | clock | uuid4 | listCandidateLinks | selectConfirmation | getConfirmation
      | getActiveMembership |
    listPublishedVersions | listActiveKnowledgeSpaceIds | selectIdempotency | selectIssue |
    selectActiveSandboxProjects | enqueue | commit =>
    cases h; rfl

/-- Every statement grows the store, for its own session and every other. -/
theorem perform_grows {s : Stmt} {r : Except Exc s.Res} (h : perform pid c σ s = some (r, σ'))
    (hs : q ≠ pid ∨ ∀ call, s ≠ .enter call) : Grows q σ σ' := by
  cases s with
  | enter call =>
    cases h
    have hq : q ≠ pid := hs.resolve_right fun h => h call rfl
    exact { Grows.refl with op := Function.update_of_ne hq _ _ }
  | mark e => cases h; exact Grows.log ..
  | getDraft draftId =>
    simp only [perform] at h
    split at h <;> cases h
    · exact Grows.refl
    · exact { Grows.refl with }
    · exact Grows.refl
  | setDraftStatus draftId status =>
    obtain ⟨locks, rfl | ⟨draft, -, rfl⟩⟩ := perform_setDraftStatus h
    · exact { Grows.refl with }
    · exact { Grows.refl with }
  | insertConfirmation receipt =>
    simp only [perform] at h
    split at h
    · cases h
    · split at h <;> cases h
      · exact Grows.refl
      · exact Grows.insertConfirmation ..
  | getActiveMembership userId projectId t => cases h; exact Grows.log ..
  | insertIdempotency ns requestId projectId =>
    simp only [perform] at h
    split at h
    · cases h; exact Grows.refl
    · next hn =>
      cases h
      exact (Grows.record σ _ _ fun r₀ hr₀ => by rw [hn] at hr₀; cases hr₀).trans (Grows.log ..)
  | completeIdempotency ns requestId resourceType resourceId response =>
    simp only [perform] at h
    split at h
    · cases h; exact Grows.refl
    · next r₀ hr₀ =>
      cases h
      exact (Grows.record σ _ _ fun r₁ hr₁ => by
        rw [hr₀] at hr₁; cases hr₁; exact ⟨rfl, fun _ => rfl⟩).trans (Grows.log ..)
  | insertIssue issue =>
    simp only [perform] at h
    split at h
    · cases h
    · split at h
      · cases h; exact Grows.refl
      · split at h <;> cases h
        · exact Grows.refl
        · exact (Grows.insertIssue σ pid issue).trans (Grows.log ..)
  | enqueue request => cases h; exact { Grows.refl with }
  | commit => cases h; exact Grows.commit ..
  | clock | uuid4 | listCandidateLinks | selectConfirmation | getConfirmation
      | listPublishedVersions |
    listActiveKnowledgeSpaceIds | selectIdempotency | selectIssue | selectActiveSandboxProjects =>
    cases h; exact Grows.refl

/-- A statement is done, with or without its answer, or is lost before it is done. -/
theorem exec_cases {s : Stmt} {r : Except Exc s.Res} (h : exec pid s c σ = some (r, σ')) :
    (∃ r₀, perform pid c σ s = some (r₀, σ') ∧ (∀ a, r = .ok a → r₀ = r) ∧
      (s.remote = true → ∀ lost, c.fault ≠ some (.before lost))) ∨
    σ' = σ ∧ ∃ e, r = .error e := by
  unfold exec at h
  split at h
  · cases h; exact .inr ⟨rfl, _, rfl⟩
  · next lost _ hf =>
    obtain ⟨⟨r₀, σ₁⟩, hp, heq⟩ := Option.map_eq_some_iff.mp h
    cases heq
    refine .inl ⟨r₀, hp, fun a ha => ?_, fun _ lost' hb => ?_⟩
    · cases ha
    · rw [hf] at hb
      cases hb
  · next hb _ => exact .inl ⟨r, h, fun _ _ => rfl, fun hr lost hf => hb lost hr hf⟩

theorem exec_ok {s : Stmt} {a : s.Res} (h : exec pid s c σ = some (.ok a, σ')) :
    perform pid c σ s = some (.ok a, σ') := by
  rcases exec_cases h with ⟨r₀, hp, hr, -⟩ | ⟨-, e, he⟩
  · rw [hp, hr a rfl]
  · cases he

theorem exec_grows {s : Stmt} {r : Except Exc s.Res} (h : exec pid s c σ = some (r, σ'))
    (hs : q ≠ pid ∨ ∀ call, s ≠ .enter call) : Grows q σ σ' := by
  rcases exec_cases h with ⟨r₀, hp, -⟩ | ⟨rfl, -⟩
  · exact perform_grows hp hs
  · exact Grows.refl

theorem close_grows (hq : q ≠ pid) : Grows q σ (σ.close pid) :=
  { @Grows.refl q σ with
    receipts := fun r h => by
      simp only [Store.close, Table.mem_view, Table.committed_rollback,
        Table.mem_pending_rollback] at h ⊢
      exact h.imp_right fun h => ⟨h, hq⟩
    issues := fun i h => by
      simp only [Store.close, Table.mem_view, Table.committed_rollback,
        Table.mem_pending_rollback] at h ⊢
      exact h.imp_right fun h => ⟨h, hq⟩
    op := Function.update_of_ne hq _ _ }

theorem outside_grows {e : Outside} (h : outside e σ = some σ') : Grows q σ σ' := by
  cases e with
  | tick n => cases h; exact { Grows.refl with now := Nat.le_add_right _ _ }
  | direct directory => cases h; exact { Grows.refl with }
  | createDraft draft =>
    simp only [outside] at h
    split at h
    · next hc =>
      cases h
      refine { Grows.refl with drafts := fun id d hd => ⟨d.status, ?_⟩ }
      have hne : id ≠ draft.id := by
        rintro rfl
        rw [hc.2] at hd
        cases hd
      exact (Function.update_of_ne hne _ _).trans hd
    · cases h

end

end ProjectAgent.Issue
