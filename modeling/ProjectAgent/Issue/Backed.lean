/-
No unconfirmed write: the receipt behind every committed issue. An `execute`
creates in the session that sees the receipt, and both commit together. A
reconciliation creates by the reservation alone, which outlives the session it
was made in; where that session's receipt was rolled back, nothing is left to
back the issue.
-/
import ProjectAgent.Issue.OneAnswer

namespace ProjectAgent.Issue

open Interleave

variable {deps : Deps} {w w' : IssueWorld} {a : IssueAction} {σ σ' : Store} {pid q : Nat}

/-- The receipt confirms the issue: it is the one the reserving `execute` was
given, confirmed by that call's actor, for the run of the issue's draft and
with the hash of the request that was sent. -/
def BackedBy (deps : Deps) (σ : Store) (i : SandboxIssue)
    (receipt : ToolConfirmationReceipt) : Prop :=
  ∃ draft op op' request project modelId, σ.Has draft ∧ i.clientRequestId = some draft.id ∧
    receipt.status = .CONFIRMED ∧ receipt.runId = draft.runId ∧
    ⟨op, .reserved draft.id⟩ ∈ σ.trace ∧
      op.call = .execute draft.id receipt.id receipt.confirmedBy ∧
    ⟨op', .createIssue request⟩ ∈ σ.trace ∧ receipt.requestPayloadHash = deps.payloadHash request ∧
    i = issueRow project modelId request

/-- Every committed issue of a draft is backed by a committed receipt. -/
def Backed (deps : Deps) (σ : Store) : Prop :=
  ∀ i ∈ σ.issues.committed, i.clientRequestId ≠ none →
    ∃ receipt ∈ σ.confirmations.committed, BackedBy deps σ i receipt

/-- The step is no reconciliation's insert, or the receipt the reserving `execute` went by is
committed. -/
def ReconcilesBacked : IssueAction → IssueWorld → Prop
  | .exec pid c, w => ∀ issue k, w.procs pid = some (.stmt (.insertIssue issue) k) →
      (∀ lost, c.fault ≠ some (.before lost)) → Inserts pid c w.shared issue →
      ∀ op draftId, w.shared.ops pid = some op → op.call = .reconcile draftId →
        ∃ op₀ receipt, ⟨op₀, .reserved draftId⟩ ∈ w.shared.trace ∧
          ⟨op₀, .accepted receipt⟩ ∈ w.shared.trace ∧
          receipt ∈ w.shared.confirmations.committed
  | _, _ => True

theorem BackedBy.grow {i : SandboxIssue} {receipt : ToolConfirmationReceipt}
    (h : BackedBy deps σ i receipt) (g : Grows q σ σ') : BackedBy deps σ' i receipt := by
  obtain ⟨draft, op, op', request, project, modelId, hd, hid, hst, hrun, hres, hcall, hreq,
      hhash, hrow⟩ := h
  exact ⟨draft, op, op', request, project, modelId, g.has hd, hid, hst, hrun,
    g.mem_trace hres, hcall,
    g.mem_trace hreq, hhash, hrow⟩

/-- A receipt that an operation accepted before it reserved the draft backs the draft's issue. -/
theorem Inv.backedBy (hi : Inv deps σ) (hsha : Function.Injective deps.sha256) {draft : IssueDraft}
    {op op' : Op} {receipt : ToolConfirmationReceipt} {request : CreateIssueRequest}
    (hd : σ.Has draft) (hres : ⟨op, .reserved draft.id⟩ ∈ σ.trace)
    (hacc : ⟨op, .accepted receipt⟩ ∈ σ.trace) (hrow : receipt ∈ σ.confirmations.rows)
    (hreq : request = deps.buildCreateRequest draft) (hsent : ⟨op', .createIssue request⟩ ∈ σ.trace)
    (project : SandboxProject) (modelId : UUID) :
    BackedBy deps σ (issueRow project modelId request) receipt := by
  obtain ⟨d₁, hd₁, hcall₁, hst, hhash⟩ := hi.trace _ hacc
  obtain ⟨-, d₂, r₂, -, hid₂, hcleared⟩ := hi.trace _ hres
  obtain ⟨d₃, hd₃, hrun, -, hhash₃⟩ := hi.receipts receipt hrow
  -- one call, so one draft; one hash, so one draft
  have hcall₂ := hcleared.call
  have hid₁ : d₁.id = draft.id := by
    rw [hcall₁] at hcall₂
    exact (Call.execute.inj hcall₂).1.trans hid₂
  have hid₃ : d₃.id = draft.id := (deps.draft_of_hash hsha (hhash₃.symm.trans hhash)).trans hid₁
  have hdraft₁ := hd₁.content hd hid₁
  have hdraft₃ := hd₃.content hd hid₃
  refine ⟨draft, op, op', request, project, modelId,
    hd, by rw [hreq]; rfl, hst, ?_, hres, ?_, hsent, ?_, rfl⟩
  · rw [hrun, hdraft₃]
  · rw [hcall₁, hid₁]
  · rw [hhash, hreq, hdraft₁]
    rfl

/-- Committed issues are backed by committed receipts, a session's by receipts it sees. -/
structure AllBacked (deps : Deps) (σ : Store) : Prop where
  committed : Backed deps σ
  pending : ∀ p i, (p, i) ∈ σ.issues.pending → ∃ receipt ∈ σ.confirmations.view p,
    BackedBy deps σ i receipt

/-- What the step inserts is backed: by the operation's own receipt, or as the condition has it. -/
theorem backed_insert (hsha : Function.Injective deps.sha256)
    (hg : (spec deps).Good (machine deps) w) (hc : ReconcilesBacked a w) {c : Choice}
    {i : SandboxIssue} (hd : Does a w w' pid c (.insertIssue i)) (hin : Inserts pid c w.shared i) :
    ∃ receipt ∈ w.shared.confirmations.view pid, BackedBy deps w.shared i receipt := by
  obtain ⟨op', request, project, modelId, hop', hsent, rfl, op, draft, hop, hdraft, hreq, -,
      horigin⟩ := hd.permit hg
  rcases horigin with hcall | ⟨hres, receipt, hv, hcleared⟩
  · obtain ⟨k, hp⟩ := hd.issues
    obtain rfl := hd.action
    obtain ⟨op₀, receipt, hres, hacc, hcom⟩ := hc _ k hp (hd.sent rfl) hin op draft.id hop hcall
    exact ⟨receipt, Table.mem_view.mpr (.inl hcom), hg.inv.backedBy hsha hdraft hres hacc
      (Table.mem_rows.mpr (.inl hcom)) hreq hsent project modelId⟩
  · exact ⟨receipt, hv, hg.inv.backedBy hsha hdraft hres hcleared.accepted
      (Table.view_subset_rows hv) hreq hsent
      project modelId⟩

/-- No statement takes a receipt from anyone's sight. -/
theorem perform_view {c : Choice} {s : Stmt} {r : Except Exc s.Res}
    (h : perform pid c σ s = some (r, σ')) {receipt : ToolConfirmationReceipt}
    (hv : receipt ∈ σ.confirmations.view q) :
    receipt ∈ σ'.confirmations.view q := by
  by_cases hq : q = pid
  · by_cases hs : ∃ call, s = .enter call
    · obtain ⟨call, rfl⟩ := hs
      cases h
      exact hv
    · exact (perform_grows h (.inr fun call hs' =>
        hs ⟨call, hs'⟩) : Grows q σ σ').receipts receipt hv
  · exact (perform_grows h (.inl hq)).receipts receipt hv

theorem AllBacked.step (hsha : Function.Injective deps.sha256)
    (hg : (spec deps).Good (machine deps) w) (hb : AllBacked deps w.shared)
    (hc : ReconcilesBacked a w) (h : (machine deps).step a w = some w') :
    AllBacked deps w'.shared := by
  obtain ⟨q, g⟩ := step_grows h
  have hcommitted {i : SandboxIssue} (hi : i ∈ w.shared.issues.committed)
    (hid : i.clientRequestId ≠ none) :
      ∃ receipt ∈ w'.shared.confirmations.committed, BackedBy deps w'.shared i receipt := by
    obtain ⟨receipt, hr, hby⟩ := hb.committed i hi hid
    exact ⟨receipt, g.committedReceipts receipt hr, hby.grow g⟩
  rcases step_shared h with ⟨pid, c, s, hd⟩ | ⟨pid, hs⟩ | ⟨e, ho⟩ | hs
  · obtain ⟨r, hp⟩ := hd.done
    have hpending {p : Nat} {i : SandboxIssue} (hi : (p, i) ∈ w.shared.issues.pending) :
        ∃ receipt ∈ w'.shared.confirmations.view p, BackedBy deps w'.shared i receipt := by
      obtain ⟨receipt, hr, hby⟩ := hb.pending p i hi
      exact ⟨receipt, perform_view hp hr, hby.grow g⟩
    rcases perform_issues hp with hsame | ⟨rfl, hcom⟩ | ⟨i₀, rfl, hins, hin⟩
    · constructor
      · exact fun i hi => hcommitted (hsame ▸ hi)
      · exact fun p i hi => hpending (hsame ▸ hi)
    · -- the session's issues and its receipts are committed together
      constructor
      · intro i hi hid
        rw [hcom] at hi
        rcases Table.mem_committed_commit.mp hi with hi | hi
        · obtain ⟨receipt, hr, hby⟩ := hb.pending pid i hi
          refine ⟨receipt, ?_, hby.grow g⟩
          simp only [perform, Option.some.injEq, Prod.mk.injEq] at hp
          rw [← hp.2]
          exact Table.mem_committed_commit.mpr (Table.mem_view.mp hr).symm
        · exact hcommitted hi hid
      · intro p i hi
        rw [hcom] at hi
        exact hpending (Table.mem_pending_commit.mp hi).1
    · constructor
      · intro i hi
        rw [hins] at hi
        exact hcommitted hi
      · intro p i hi
        rw [hins] at hi
        rcases Table.mem_pending_insert.mp hi with ⟨rfl, rfl⟩ | hi
        · obtain ⟨receipt, hr, hby⟩ := backed_insert hsha hg hc hd hin
          exact ⟨receipt, perform_view hp hr, hby.grow g⟩
        · exact hpending hi
  · constructor
    · intro i hi
      rw [hs] at hi
      exact hcommitted hi
    · intro p i hi
      rw [hs] at hi
      obtain ⟨hi, hne⟩ := Table.mem_pending_rollback.mp hi
      obtain ⟨receipt, hr, hby⟩ := hb.pending p i hi
      have gp : Grows p w.shared w'.shared := hs ▸ close_grows hne
      exact ⟨receipt, gp.receipts receipt hr, hby.grow gp⟩
  · have hframe := outside_frame ho
    constructor
    · exact fun i hi => hcommitted (hframe.issues ▸ hi)
    · intro p i hi
      obtain ⟨receipt, hr, hby⟩ := hb.pending p i (hframe.issues ▸ hi)
      exact ⟨receipt, hframe.confirmations ▸ hr, hby.grow g⟩
  · rw [hs]
    exact hb

/-- **When every write is confirmed.** Along a run in which a reconciliation
inserts an issue only while the receipt of the reserving `execute` is
committed, every committed issue of a draft is backed by a committed receipt. -/
theorem backed (hsha : Function.Injective deps.sha256) (hw : Initial w) (as : List IssueAction)
    (hc : (machine deps).EachStep ReconcilesBacked as w) :
    (machine deps).Always (fun w => Backed deps w.shared) as w := by
  obtain ⟨committed, hissues, hnone⟩ := hw.issues
  have h₀ : AllBacked deps w.shared := by
    constructor
    · intro i hi hid
      rw [hissues] at hi
      exact absurd (hnone i hi) hid
    · intro p i hi
      rw [hissues] at hi
      cases hi
  exact (hw.always (P := fun w => AllBacked deps w.shared) h₀ hc fun a w₁ w₂ hg _ hb hca h =>
    hb.step hsha hg hca h).mono fun w ⟨_, hb⟩ => hb.committed

/-! ## A write nobody confirmed

The user confirms and the graph's session executes; the answer to
`create_issue` times out, a reconciliation is enqueued, and the session is
lost with the receipt in it. The reconciliation job creates the issue. -/

namespace Sample

/-- SHA-256 as it is on the draft's payload; on any other text, one of the texts it is not there. -/
@[irreducible] def sha256 (text : List Char) : String :=
  if text = Json.dumps (Deps.payload (services.buildCreateRequest draft)) then digest
  else String.ofList ('x' :: text)

theorem sha256_injective : Function.Injective sha256 := by
  have hdigest (t : List Char) : digest ≠ String.ofList ('x' :: t) := fun h => by
    have hhead := congrArg (fun s : String => s.toList.head?) h
    simp [digest] at hhead
  intro s t h
  unfold sha256 at h
  split_ifs at h with hs ht ht
  · rw [hs, ht]
  · exact absurd h (hdigest t)
  · exact absurd h.symm (hdigest s)
  · exact (List.cons.inj (String.ofList_inj.mp h)).2

def hashing : Deps := { services with sha256 := sha256 }

/-- The `INSERT` is not sent: it times out. -/
def timesOut (pid : Nat) : IssueAction := .exec pid ⟨some (.before .timeout), .ofNat 9, 0⟩

def lostReceipt : List IssueAction :=
  .start [.recordDecision draft.id draft.createdBy .CONFIRM digest, executes] 0 :: steps 0 9 8 ++
    steps 0 19 9 ++
    [timesOut 0] ++ steps 0 1 9 ++ [.kill 0, .start [.reconcile draft.id] 1] ++ steps 1 13 9

theorem lostReceipt_run : ((machine hashing).run lostReceipt world).map (fun w =>
    (w.shared.issues.committed.map (·.clientRequestId), w.shared.confirmations.committed,
      w.shared.jobs)) =
    some ([some draft.id], [],
      [⟨"RECONCILE_ISSUE_CREATE", "00000000-0000-0000-0000-000000000001", 5⟩]) := by
  decide +kernel

end Sample

/-- The draft's issue is committed, and no receipt is. -/
theorem unbacked : Function.Injective Sample.hashing.sha256 ∧ Initial Sample.world ∧
    ¬ (machine Sample.hashing).Always (fun w =>
      Backed Sample.hashing w.shared) Sample.lostReceipt Sample.world := by
  refine ⟨Sample.sha256_injective, Sample.world_initial, fun h => ?_⟩
  obtain ⟨w, hr, hobs⟩ := Option.map_eq_some_iff.mp Sample.lostReceipt_run
  simp only [Prod.mk.injEq] at hobs
  obtain ⟨hissues, hnone, -⟩ := hobs
  have hid : some Sample.draft.id ∈ w.shared.issues.committed.map (·.clientRequestId) := by
    rw [hissues]
    simp
  obtain ⟨i, hi, hid⟩ := List.mem_map.mp hid
  obtain ⟨receipt, hrow, -⟩ := h.last hr i hi (by rw [hid]; simp)
  rw [hnone] at hrow
  cases hrow

/-- No step of a run without reconciliations is one of a reconciliation. -/
def Sample.noReconcile : IssueAction → IssueWorld → Bool
  | .exec pid _, w =>
    match w.shared.ops pid with
    | some ⟨_, .reconcile _, _⟩ => false
    | _ => true
  | _, _ => true

theorem Sample.noReconcile_sound (a : IssueAction) (w : IssueWorld) (h : noReconcile a w = true) :
    ReconcilesBacked a w := by
  cases a with
  | exec pid c =>
    intro issue k _ _ _ op draftId hop hcall
    obtain ⟨no, call, openedAt⟩ := op
    cases hcall
    simp [noReconcile, hop] at h
  | start | finish | kill | env => trivial

theorem Sample.created_noReconcile : (machine hashing).checks noReconcile created world = true := by
  decide +kernel

theorem backed_created : ((machine Sample.hashing).run Sample.created Sample.world).isSome ∧
    (machine Sample.hashing).Always (fun w =>
      Backed Sample.hashing w.shared) Sample.created Sample.world :=
  ⟨Machine.run_isSome_of_checks Sample.created_noReconcile,
    backed Sample.sha256_injective Sample.world_initial
    Sample.created (Machine.eachStep_of_checks Sample.noReconcile_sound Sample.created_noReconcile)⟩

end ProjectAgent.Issue
