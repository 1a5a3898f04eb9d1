/-
The rely/guarantee specification of the issue services: what holds of the
store between any two statements (`Inv`), and what is known whenever a session
issues one (`permit`): whose confirmation a reservation goes by, where the
request of a `create_issue` comes from, which row a completion names.
-/
import ProjectAgent.Issue.Growth

namespace ProjectAgent.Issue

open Interleave

variable (deps : Deps)

/-- The operation is an `execute` that has gone by this receipt and has found
its user's role in the draft's project to allow the write. -/
structure Cleared (t : List Entry) (op : Op) (draft : IssueDraft)
    (receipt : ToolConfirmationReceipt) :
    Prop where
  call : op.call = .execute draft.id receipt.id receipt.confirmedBy
  accepted : ⟨op, .accepted receipt⟩ ∈ t
  authorized : ∃ at_ m context, ⟨op, .membership receipt.confirmedBy draft.projectId at_ (some m)⟩ ∈
    t ∧
    op.openedAt ≤ at_ ∧ m.role ∈ ALLOWED_ROLES ∧ ⟨op, .authorized context⟩ ∈ t ∧
    context.userId = receipt.confirmedBy ∧ context.allowedProjectIds = [draft.projectId] ∧
    context.roleIds = [m.role.value] ∧ ⟨op, .mayCreate context.roleIds⟩ ∈ t

theorem Cleared.mono {t t' : List Entry} {op : Op} {draft : IssueDraft}
    {receipt : ToolConfirmationReceipt} (h : Cleared t op draft receipt) (ht : ∀ e ∈ t, e ∈ t') :
    Cleared t' op draft receipt where
  call := h.call
  accepted := ht _ h.accepted
  authorized := by
    obtain ⟨at_, m, context, hm, hle, hrole, ha, hu, hp, hr, hc⟩ := h.authorized
    exact ⟨at_, m, context, ht _ hm, hle, hrole, ht _ ha, hu, hp, hr, ht _ hc⟩

def Reserved (σ : Store) (requestId : UUID) : Prop := ∃ op, ⟨op, .reserved requestId⟩ ∈ σ.trace

def Completed (σ : Store) (requestId : UUID) (issueKey : String) : Prop :=
  ∃ op, ⟨op, .completed requestId issueKey⟩ ∈ σ.trace

/-- An answer is put off, or names the key of a completion. -/
def Answers (σ : Store) (outcome : IssueCreationOutcome) : Prop :=
  outcome.status = .PENDING_RECONCILIATION ∧ outcome.issueKey = none ∨
    ∃ key, outcome.issueKey = some key ∧ Completed σ outcome.requestId key

/-! ## Rows and entries -/

structure RecordOk (σ : Store) (requestId : UUID) (r : IdempotencyRecord) : Prop where
  draft : ∃ draft, σ.Has draft ∧ draft.id = requestId ∧ r.projectId = draft.projectId
  reserved : Reserved σ requestId
  completed : r.status = .COMPLETED → ∃ response, r.response = some response ∧
    r.resourceId = some response.issueKey ∧ Completed σ requestId response.issueKey

def ReceiptOk (σ : Store) (r : ToolConfirmationReceipt) : Prop :=
  ∃ draft, σ.Has draft ∧ r.runId = draft.runId ∧ r.toolName = TOOL_NAME ∧
    r.requestPayloadHash = deps.draftHash draft

def IssueOk (σ : Store) (i : SandboxIssue) : Prop :=
  ∀ requestId, i.clientRequestId = some requestId → ∃ draft project modelId, σ.Has draft ∧
    draft.id = requestId ∧ i = issueRow project modelId (deps.buildCreateRequest draft) ∧
      Reserved σ requestId

def EntryOk (σ : Store) (e : Entry) : Prop :=
  match e.event with
  | .accepted receipt =>
    ∃ draft, σ.Has draft ∧ e.op.call = .execute draft.id receipt.id receipt.confirmedBy ∧
      receipt.status = .CONFIRMED ∧ receipt.requestPayloadHash = deps.draftHash draft
  | .reserved requestId => (∃ r, σ.idempotency (IDEMPOTENCY_NAMESPACE, requestId) = some r) ∧
      ∃ draft receipt, σ.Has draft ∧ draft.id = requestId ∧ Cleared σ.trace e.op draft receipt
  | .completed requestId _ => ∃ r, σ.idempotency (IDEMPOTENCY_NAMESPACE, requestId) = some r ∧
      r.status = .COMPLETED
  | .answered outcome => Answers σ outcome
  | _ => True

structure Inv (σ : Store) : Prop where
  draftId : ∀ id draft, σ.drafts id = some draft → draft.id = id
  loaded : ∀ pid id draft, σ.loaded pid id = some draft → draft.id = id ∧ σ.Has draft
  unique : σ.issues.Unique SandboxIssue.requestKey
  records : ∀ requestId r, σ.idempotency (IDEMPOTENCY_NAMESPACE, requestId) = some r →
    RecordOk σ requestId r
  receipts : ∀ r ∈ σ.confirmations.rows, ReceiptOk deps σ r
  issues : ∀ i ∈ σ.issues.rows, IssueOk deps σ i
  trace : ∀ e ∈ σ.trace, EntryOk deps σ e
  ops : ∀ pid op, σ.ops pid = some op → op.openedAt ≤ σ.now

section
variable {deps} {q : Nat} {σ σ' : Store}

theorem Reserved.grow {requestId : UUID} (h : Reserved σ requestId) (g : Grows q σ σ') :
    Reserved σ' requestId :=
  let ⟨op, h⟩ := h
  ⟨op, g.mem_trace h⟩

theorem Completed.grow {requestId : UUID} {key : String} (h : Completed σ requestId key)
    (g : Grows q σ σ') :
    Completed σ' requestId key :=
  let ⟨op, h⟩ := h
  ⟨op, g.mem_trace h⟩

theorem Answers.grow {outcome : IssueCreationOutcome} (h : Answers σ outcome) (g : Grows q σ σ') :
    Answers σ' outcome :=
  h.imp_right fun ⟨key, hk, hc⟩ => ⟨key, hk, hc.grow g⟩

theorem RecordOk.grow {requestId : UUID} {r : IdempotencyRecord} (h : RecordOk σ requestId r)
    (g : Grows q σ σ') : RecordOk σ' requestId r where
  draft := by
    obtain ⟨draft, hd, hid, hp⟩ := h.draft
    exact ⟨draft, g.has hd, hid, hp⟩
  reserved := h.reserved.grow g
  completed hc := by
    obtain ⟨response, hr, hres, hk⟩ := h.completed hc
    exact ⟨response, hr, hres, hk.grow g⟩

theorem ReceiptOk.grow {r : ToolConfirmationReceipt} (h : ReceiptOk deps σ r) (g : Grows q σ σ') :
    ReceiptOk deps σ' r := by
  obtain ⟨draft, hd, h⟩ := h
  exact ⟨draft, g.has hd, h⟩

theorem IssueOk.grow {i : SandboxIssue} (h : IssueOk deps σ i) (g : Grows q σ σ') :
    IssueOk deps σ' i := by
  intro requestId hi
  obtain ⟨draft, project, modelId, hd, hid, hrow, hr⟩ := h requestId hi
  exact ⟨draft, project, modelId, g.has hd, hid, hrow, hr.grow g⟩

theorem EntryOk.grow {e : Entry} (h : EntryOk deps σ e) (g : Grows q σ σ') : EntryOk deps σ' e := by
  obtain ⟨op, event⟩ := e
  cases event with
  | accepted receipt =>
    obtain ⟨draft, hd, h⟩ := h
    exact ⟨draft, g.has hd, h⟩
  | reserved requestId =>
    obtain ⟨⟨r, hr⟩, draft, receipt, hd, hid, hc⟩ := h
    obtain ⟨r', hr', -⟩ := g.records _ r hr
    exact ⟨⟨r', hr'⟩, draft, receipt, g.has hd, hid, hc.mono fun e => g.mem_trace⟩
  | completed requestId key =>
    obtain ⟨r, hr, hs⟩ := h
    obtain ⟨r', hr', -, hs'⟩ := g.records _ r hr
    exact ⟨r', hr', hs' hs⟩
  | answered outcome => exact Answers.grow h g
  | membership | authorized | mayCreate | createIssue | inserted => trivial

/-- The invariant survives a growth of the store if what is new keeps it. -/
theorem Inv.extend (hi : Inv deps σ) (g : Grows q σ σ')
    (hd : ∀ id draft, σ'.drafts id = some draft → draft.id = id)
    (hl : ∀ pid id draft, σ'.loaded pid id = some draft → σ.loaded pid id = some draft ∨
      draft.id = id ∧ σ'.Has draft)
    (hu : σ'.issues.Unique SandboxIssue.requestKey)
    (hr : ∀ requestId r, σ'.idempotency (IDEMPOTENCY_NAMESPACE, requestId) = some r →
      σ.idempotency (IDEMPOTENCY_NAMESPACE, requestId) = some r ∨ RecordOk σ' requestId r)
    (hc : ∀ r ∈ σ'.confirmations.rows, r ∈ σ.confirmations.rows ∨ ReceiptOk deps σ' r)
    (his : ∀ i ∈ σ'.issues.rows, i ∈ σ.issues.rows ∨ IssueOk deps σ' i)
    (ht : ∀ e ∈ σ'.trace, e ∈ σ.trace ∨ EntryOk deps σ' e)
    (ho : ∀ pid op, σ'.ops pid = some op → σ.ops pid = some op ∨ op.openedAt ≤ σ'.now) :
    Inv deps σ' where
  draftId := hd
  loaded pid id draft h := (hl pid id draft h).elim
    (fun h => ⟨(hi.loaded pid id draft h).1, g.has (hi.loaded pid id draft h).2⟩) fun h => h
  unique := hu
  records requestId r h := (hr requestId r h).elim (fun h => (hi.records requestId r h).grow g) id
  receipts r h := (hc r h).elim (fun h => (hi.receipts r h).grow g) id
  issues i h := (his i h).elim (fun h => (hi.issues i h).grow g) id
  trace e h := (ht e h).elim (fun h => (hi.trace e h).grow g) id
  ops pid op h := (ho pid op h).elim (fun h => (hi.ops pid op h).trans g.now) id

end

/-! ## What a session issues -/

/-- Where the request of a `create_issue` comes from: a draft that some
`execute` has reserved; this operation has, by a receipt it sees, or it is a
reconciliation. -/
def Origin (σ : Store) (pid : Nat) (request : CreateIssueRequest) : Prop :=
  ∃ op draft, σ.ops pid = some op ∧ σ.Has draft ∧ request = deps.buildCreateRequest draft ∧
    Reserved σ draft.id ∧
    (op.call = .reconcile draft.id ∨ ⟨op, .reserved draft.id⟩ ∈ σ.trace ∧
      ∃ receipt ∈ σ.confirmations.view pid, Cleared σ.trace op draft receipt)

/-- The issue is one the session sees, with this project and request id. -/
def Found (σ : Store) (pid : Nat) (projectId requestId : UUID) (created : CreatedIssue) : Prop :=
  ∃ i ∈ σ.issues.view pid, i.projectId = projectId ∧ i.clientRequestId = some requestId ∧
    created.issueKey = i.issueKey

/-- The events a program reports itself. -/
def Event.reported : Event → Bool
  | .accepted _ | .authorized _ | .mayCreate _ | .createIssue _ | .answered _ => true
  | _ => false

def permit (pid : Nat) (s : Stmt) (σ : Store) : Prop :=
  match s with
  | .mark e => e.reported = true ∧ (∀ op, σ.ops pid = some op → EntryOk deps σ ⟨op, e⟩) ∧
      ∀ request, e = .createIssue request → Origin deps σ pid request
  | .insertConfirmation receipt => ReceiptOk deps σ receipt
  | .insertIdempotency ns requestId projectId => ns = IDEMPOTENCY_NAMESPACE ∧
      ∃ op draft receipt, σ.ops pid = some op ∧ σ.Has draft ∧ draft.id = requestId ∧
        draft.projectId = projectId ∧ receipt ∈ σ.confirmations.view pid ∧
          Cleared σ.trace op draft receipt
  | .completeIdempotency ns requestId _ resourceId response => ns = IDEMPOTENCY_NAMESPACE ∧
      resourceId = response.issueKey ∧ (∃ op, σ.ops pid = some op) ∧
      ∃ draft created, σ.Has draft ∧ draft.id = requestId ∧
        Found σ pid draft.projectId requestId created ∧ response.issueKey = created.issueKey
  | .insertIssue issue => ∃ op request project modelId, σ.ops pid = some op ∧
      ⟨op, .createIssue request⟩ ∈ σ.trace ∧ issue = issueRow project modelId request ∧
      Origin deps σ pid request
  | _ => True

def spec : Spec Stmt Store where
  inv := Inv deps
  rely := Grows
  permit := permit deps
  refl _ _ := Grows.refl
  trans _ _ _ _ := Grows.trans

section
variable {deps} {pid : Nat} {σ σ' : Store}

theorem Origin.grow {request : CreateIssueRequest} (h : Origin deps σ pid request)
    (g : Grows pid σ σ') :
    Origin deps σ' pid request := by
  obtain ⟨op, draft, hop, hd, hreq, hres, h⟩ := h
  refine ⟨op, draft, g.op.trans hop, g.has hd, hreq, hres.grow g, h.imp_right ?_⟩
  rintro ⟨hr, receipt, hv, hc⟩
  exact ⟨g.mem_trace hr, receipt, g.receipts receipt hv, hc.mono fun e => g.mem_trace⟩

theorem Found.grow {projectId requestId : UUID} {created : CreatedIssue}
    (h : Found σ pid projectId requestId created) (g : Grows pid σ σ') :
    Found σ' pid projectId requestId created := by
  obtain ⟨i, hi, h⟩ := h
  exact ⟨i, g.issues i hi, h⟩

end

end ProjectAgent.Issue
