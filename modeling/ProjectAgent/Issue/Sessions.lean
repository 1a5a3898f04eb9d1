/-
Every session issues only what the specification permits: a lemma for each
program, from the single statements to the whole session, saying what is known
when it returns; `fits` puts it together.
-/
import ProjectAgent.Issue.Kept

namespace ProjectAgent.Issue

open Interleave

variable {deps : Deps} {pid : Nat} {σ₀ : Store}

/-- One statement, other than the start of an operation. -/
theorem stmt_keeps {s : Stmt} {Q : s.Res → Store → Prop} (hs : ∀ call, s ≠ .enter call)
    (h : ∀ σ, Grows pid σ₀ σ → Inv deps σ → permit deps pid s σ ∧
      ∀ c a σ', perform pid c σ s = some (.ok a, σ') → Inv deps σ' → Q a σ') :
    Keeps (machine deps) (spec deps) pid σ₀ (.exec s) Q :=
  Keeps.stmt (fun _ _ _ _ _ hx => exec_grows hx (.inr hs)) fun σ g hi =>
    ⟨(h σ g hi).1, fun c a σ' hx hi' => (h σ g hi).2 c a σ' (exec_ok hx) hi'⟩

/-- A statement that is always permitted and of whose answer nothing is needed. -/
theorem free_keeps {s : Stmt} (hs : ∀ call, s ≠ .enter call) (hp : ∀ σ, permit deps pid s σ) :
    Keeps (machine deps) (spec deps) pid σ₀ (.exec s) fun _ _ => True :=
  stmt_keeps hs fun σ _ _ => ⟨hp σ, fun _ _ _ _ _ => trivial⟩

/-! ## Statements -/

theorem mark_keeps {e : Event} (hr : e.reported = true)
    (he : ∀ op, σ₀.ops pid = some op → EntryOk deps σ₀ ⟨op, e⟩)
    (ho : ∀ request, e = .createIssue request → Origin deps σ₀ pid request) :
    Keeps (machine deps) (spec deps) pid σ₀ (mark e) fun _ σ => ∀ op, σ.ops pid = some op →
      ⟨op, e⟩ ∈ σ.trace := by
  refine stmt_keeps (fun _ => nofun) fun σ g _ => ⟨⟨hr, fun op hop => ?_, fun request h => ?_⟩, ?_⟩
  · exact (he op (g.op ▸ hop)).grow g
  · exact (ho request h).grow g
  · intro c a σ' hx _ op hop
    cases hx
    exact mem_log hop

theorem clock_keeps : Keeps (machine deps) (spec deps) pid σ₀ clock fun t _ => σ₀.now ≤ t := by
  refine stmt_keeps (fun _ => nofun) fun σ g _ => ⟨trivial, fun c t σ' hx _ => ?_⟩
  cases hx
  exact g.now

theorem getDraft_keeps (draftId : UUID) :
    Keeps (machine deps) (spec deps) pid σ₀ (getDraft draftId) fun draft σ => σ.Has draft ∧
      draft.id = draftId := by
  have hload : Keeps (machine deps) (spec deps) pid σ₀ (loadDraft draftId) fun draft? σ =>
      ∀ draft, draft? = some draft → σ.Has draft ∧ draft.id = draftId := by
    refine stmt_keeps (fun _ => nofun) fun σ _ hi => ⟨trivial, fun c a σ' hx hi' draft ha => ?_⟩
    clear hi'
    simp only [perform] at hx
    split at hx <;> cases hx <;> cases ha
    · next hl => exact ⟨(hi.loaded _ _ _ hl).2, (hi.loaded _ _ _ hl).1⟩
    · next hd =>
      obtain rfl := hi.draftId _ _ hd
      exact ⟨⟨draft.status, hd⟩, rfl⟩
  refine Keeps.bind hload fun draft? σ _ h => ?_
  cases draft? with
  | none => exact Keeps.raise _
  | some draft => exact Keeps.ret (h draft rfl)

theorem setDraftStatus_keeps (draftId : UUID) (status : IssueDraftStatus) :
    Keeps (machine deps) (spec deps) pid σ₀ (setDraftStatus draftId status) fun _ _ => True := by
  refine Keeps.bind (free_keeps (fun _ => nofun) fun _ => trivial) fun draft? σ _ _ => ?_
  cases draft? with
  | none => exact Keeps.raise _
  | some draft => exact Keeps.ret trivial

theorem saveConfirmation_keeps {receipt : ToolConfirmationReceipt}
    (hr : ReceiptOk deps σ₀ receipt) :
    Keeps (machine deps) (spec deps) pid σ₀ (saveConfirmation receipt) fun _ _ => True := by
  refine Keeps.bind (free_keeps (fun _ => nofun) fun _ => trivial) fun existing σ g _ => ?_
  cases existing with
  | some existing => exact Keeps.ret trivial
  | none =>
    refine Keeps.bind (Q := fun _ _ => True) (stmt_keeps (fun _ => nofun) fun σ₁ g₁ _ => ?_)
      fun _ _ _ _ => Keeps.ret trivial
    exact ⟨hr.grow (g.trans g₁), fun _ _ _ _ _ => trivial⟩

theorem getConfirmation_keeps (confirmationId : UUID) :
    Keeps (machine deps) (spec deps) pid σ₀ (getConfirmation confirmationId) fun receipt σ =>
      receipt ∈ σ.confirmations.view pid ∧ receipt.id = confirmationId := by
  have hfind : Keeps (machine deps) (spec deps) pid σ₀ (findConfirmation confirmationId)
    fun receipt? σ =>
      ∀ receipt, receipt? = some receipt →
        receipt ∈ σ.confirmations.view pid ∧ receipt.id = confirmationId := by
    refine stmt_keeps (fun _ => nofun) fun σ _ _ => ⟨trivial, fun c a σ' hx _ receipt ha => ?_⟩
    cases hx
    exact ⟨List.mem_of_find?_eq_some ha, by simpa using List.find?_some ha⟩
  refine Keeps.bind hfind fun receipt? σ _ h => ?_
  cases receipt? with
  | none => exact Keeps.raise _
  | some receipt => exact Keeps.ret (h receipt rfl)

theorem getRecord_keeps (requestId : UUID) :
    Keeps (machine deps) (spec deps) pid σ₀ (getRecord IDEMPOTENCY_NAMESPACE requestId) fun r? σ =>
      ∀ r, r? = some r → RecordOk σ requestId r := by
  refine stmt_keeps (fun _ => nofun) fun σ _ hi => ⟨trivial, fun c a σ' hx _ r ha => ?_⟩
  cases hx
  exact hi.records requestId r ha

/-- A reservation this session makes is reported for its operation; one it meets was for another. -/
theorem reserve_keeps {op : Op} {draft : IssueDraft} {receipt : ToolConfirmationReceipt}
    (hop : σ₀.ops pid = some op) (hd : σ₀.Has draft) (hv : receipt ∈ σ₀.confirmations.view pid)
    (hc : Cleared σ₀.trace op draft receipt) :
    Keeps (machine deps) (spec deps) pid σ₀ (reserve IDEMPOTENCY_NAMESPACE draft.id draft.projectId)
      fun r σ =>
      RecordOk σ draft.id r.1 ∧ (r.2 = true → ⟨op, .reserved draft.id⟩ ∈ σ.trace) := by
  have hinsert : Keeps (machine deps) (spec deps) pid σ₀
    (insertIdempotency IDEMPOTENCY_NAMESPACE draft.id draft.projectId)
      fun created σ => created = true → ⟨op, .reserved draft.id⟩ ∈ σ.trace := by
    refine stmt_keeps (fun _ => nofun) fun σ g _ =>
      ⟨⟨rfl, op, draft, receipt, g.op.trans hop, g.has hd, rfl, rfl,
      g.receipts _ hv, hc.mono fun e => g.mem_trace⟩, fun c created σ' hx _ ha => ?_⟩
    simp only [perform] at hx
    split at hx <;> cases hx
    · cases ha
    · exact mem_log (g.op.trans hop)
  refine Keeps.bind hinsert fun created σ _ hcr => ?_
  refine Keeps.bind (getRecord_keeps draft.id) fun r? σ' g' hr => ?_
  cases r? with
  | none => exact Keeps.raise _
  | some r =>
    dsimp only
    split
    · exact Keeps.raise _
    · exact Keeps.ret ⟨hr r rfl, fun h => g'.mem_trace (hcr h)⟩

/-! ## Authorization -/

theorem activeMemberships_project {dir : Directory} {userId projectId : UUID} {t : Nat}
    {m : MembershipAccessRecord} (h : m ∈ dir.activeMemberships userId projectId t) :
    m.projectId = projectId ∧ ∃ row ∈ dir.memberships, row.userId = userId ∧
      row.projectId = projectId ∧
      row.role = m.role ∧ row.activeAt t := by
  simp only [Directory.activeMemberships, List.mem_flatMap, List.mem_filterMap, List.mem_filter,
    beq_iff_eq,
    Option.ite_none_right_eq_some, Option.some.injEq] at h
  obtain ⟨row, hrow, p, ⟨-, hp⟩, ⟨hu, hpr, ha, -⟩, rfl⟩ := h
  exact ⟨hp.trans hpr, row, hrow, hu, hpr, rfl, ha⟩

theorem authorizeProject_keeps (userId projectId : UUID) {op : Op} (hop : σ₀.ops pid = some op)
    (hle : op.openedAt ≤ σ₀.now) :
    Keeps (machine deps) (spec deps) pid σ₀ (authorizeProject userId projectId) fun context σ =>
      ∃ at_ m, ⟨op, .membership userId projectId at_ (some m)⟩ ∈ σ.trace ∧ op.openedAt ≤ at_ ∧
        context.userId = userId ∧ context.allowedProjectIds = [projectId] ∧
        context.roleIds = [m.role.value] := by
  refine Keeps.bind clock_keeps fun t σ g ht => ?_
  have hfind : Keeps (machine deps) (spec deps) pid σ (findActiveMembership userId projectId t)
    fun found σ' =>
      ∀ m, found = some m → ⟨op, .membership userId projectId t (some m)⟩ ∈ σ'.trace ∧
        m.projectId = projectId := by
    refine stmt_keeps (fun _ => nofun) fun σ₁ g₁ _ => ⟨trivial, fun c a σ' hx _ m ha => ?_⟩
    cases hx
    refine ⟨?_, (activeMemberships_project (pickFrom_mem ha)).1⟩
    rw [← ha]
    exact mem_log ((g.trans g₁).op.trans hop)
  refine Keeps.bind hfind fun found σ₁ g₁ hm => ?_
  cases found with
  | none => exact Keeps.raise _
  | some m =>
    refine Keeps.bind (Keeps.bind (free_keeps (fun _ => nofun) fun _ => trivial) fun rows _ _ _ =>
      Keeps.ret (Q := fun _ _ => True) trivial) fun documents σ₂ g₂ _ => ?_
    refine Keeps.bind (free_keeps (fun _ => nofun) fun _ => trivial) fun spaces σ₃ g₃ _ =>
      Keeps.ret ?_
    obtain ⟨hmem, hp⟩ := hm m rfl
    exact ⟨t, m, (g₂.trans g₃).mem_trace hmem, hle.trans ht, rfl, by rw [hp], rfl⟩

/-- A role whose value is among the allowed roles' is one of them. -/
theorem role_allowed {r : ProjectRole}
    (h : (ALLOWED_ROLES.map ProjectRole.value).any ([r.value].contains ·)) :
    r ∈ ALLOWED_ROLES := by
  cases r <;> first | decide | exact absurd h (by decide)

theorem assertCanCreate_keeps {r : ProjectRole} {op : Op} (hop : σ₀.ops pid = some op)
    {roleIds : List String} (hr : roleIds = [r.value]) :
    Keeps (machine deps) (spec deps) pid σ₀ (assertCanCreate roleIds) fun _ σ =>
      r ∈ ALLOWED_ROLES ∧ ⟨op, .mayCreate roleIds⟩ ∈ σ.trace := by
  subst hr
  unfold assertCanCreate
  split
  · next h =>
    have hmark : Keeps (machine deps) (spec deps) pid σ₀ (mark (.mayCreate [r.value])) _ :=
      mark_keeps rfl (fun _ _ => trivial) fun _ => nofun
    exact hmark.weaken fun _ σ g hm => ⟨role_allowed h, hm op (g.op.trans hop)⟩
  · exact Keeps.raise _

/-! ## The tracker -/

theorem getIssueByRequestId_keeps (projectId requestId : UUID) :
    Keeps (machine deps) (spec deps) pid σ₀ (getIssueByRequestId projectId requestId)
      fun created? σ =>
      ∀ created, created? = some created → Found σ pid projectId requestId created := by
  have hselect : Keeps (machine deps) (spec deps) pid σ₀ (selectIssue projectId requestId)
    fun i? σ =>
      ∀ i, i? = some i → i ∈ σ.issues.view pid ∧ i.projectId = projectId ∧
        i.clientRequestId = some requestId := by
    refine stmt_keeps (fun _ => nofun) fun σ _ _ => ⟨trivial, fun c a σ' hx _ i ha => ?_⟩
    cases hx
    simpa using pickFrom_mem ha
  refine Keeps.bind hselect fun i? σ _ hi => Keeps.ret fun created hc => ?_
  obtain ⟨i, rfl, rfl⟩ := Option.map_eq_some_iff.mp hc
  obtain ⟨hv, hp, hr⟩ := hi i rfl
  exact ⟨i, hv, hp, hr, rfl⟩

theorem createIssue_keeps {request : CreateIssueRequest} (ho : Origin deps σ₀ pid request) :
    Keeps (machine deps) (spec deps) pid σ₀ (createIssue request) fun created σ =>
      Found σ pid request.projectId request.requestId created := by
  have hmark : Keeps (machine deps) (spec deps) pid σ₀ (mark (.createIssue request)) _ :=
    mark_keeps rfl (fun _ _ => trivial) fun request' h => by cases h; exact ho
  refine Keeps.bind hmark fun _ σ g hm => ?_
  refine Keeps.bind (getIssueByRequestId_keeps _ _) fun existing σ₁ g₁ hfound => ?_
  cases existing with
  | some existing => exact Keeps.ret (hfound existing rfl)
  | none =>
    refine Keeps.bind (free_keeps (fun _ => nofun) fun _ => trivial) fun projects σ₂ g₂ _ => ?_
    have hone : Keeps (machine deps) (spec deps) pid σ₂ (oneOrNone projects) fun _ _ => True := by
      unfold oneOrNone
      split
      · exact Keeps.ret trivial
      · exact Keeps.ret trivial
      · exact Keeps.raise _
    refine Keeps.bind hone fun project? σ₃ g₃ _ => ?_
    cases project? with
    | none => exact Keeps.raise _
    | some project =>
      refine Keeps.bind (free_keeps (fun _ => nofun) fun _ => trivial) fun modelId σ₄ g₄ _ => ?_
      have g' := g₁.trans (g₂.trans (g₃.trans g₄))
      have hinsert : Keeps (machine deps)
        (spec deps) pid σ₄ (insertIssue (issueRow project modelId request)) fun inserted σ =>
          ∀ i, inserted = some i → i ∈ σ.issues.view pid ∧
            i = issueRow project modelId request := by
        refine stmt_keeps (fun _ => nofun) fun σ₅ g₅ _ => ?_
        have hgrow := g.trans (g'.trans g₅)
        obtain ⟨op, -, hop, -⟩ := id ho
        refine ⟨⟨op, request, project, modelId, hgrow.op.trans hop, ?_, rfl, ho.grow hgrow⟩, ?_⟩
        · exact (g'.trans g₅).mem_trace (hm op (g.op.trans hop))
        · intro c inserted σ' hx _ i ha
          simp only [perform] at hx
          split at hx
          · cases hx
          · split at hx
            · cases hx; cases ha
            · split at hx <;> cases hx
              cases ha
              exact ⟨by simp [Store.log], rfl⟩
      refine Keeps.bind hinsert fun inserted σ₅ g₅ hins => ?_
      cases inserted with
      | some i =>
        obtain ⟨hv, rfl⟩ := hins i rfl
        exact Keeps.ret ⟨_, hv, rfl, rfl, rfl⟩
      | none =>
        refine Keeps.bind (getIssueByRequestId_keeps _ _) fun existing σ₆ _ hfound => ?_
        cases existing with
        | none => exact Keeps.raise _
        | some existing => exact Keeps.ret (hfound existing rfl)

/-! ## Creation -/

theorem outcomeFromRecord_keeps {record : IdempotencyRecord} {requestId : UUID}
    (hr : RecordOk σ₀ requestId record) (hc : record.status = .COMPLETED) (draftId : UUID)
    (status : IssueCreationStatus) :
    Keeps (machine deps) (spec deps) pid σ₀
      (outcomeFromRecord record.response draftId requestId status) fun outcome σ =>
      Answers σ outcome := by
  obtain ⟨response, hres, -, hk⟩ := hr.completed hc
  rw [hres]
  exact Keeps.ret (.inr ⟨_, rfl, hk⟩)

theorem complete_keeps {draft : IssueDraft} {created : CreatedIssue}
    (hop : ∃ op, σ₀.ops pid = some op) (hd : σ₀.Has draft)
    (hf : Found σ₀ pid draft.projectId draft.id created) (status : IssueCreationStatus) :
    Keeps (machine deps) (spec deps) pid σ₀ (complete draft.id draft.id created status)
      fun outcome σ => Answers σ outcome := by
  obtain ⟨op, hop⟩ := hop
  have hupdate : Keeps (machine deps) (spec deps) pid σ₀
    (updateRecord IDEMPOTENCY_NAMESPACE draft.id "sandbox_issue" created.issueKey
      ⟨created.projectId, created.requestId, created.issueKey, created.status⟩) fun r? σ =>
      ∀ r, r? = some r → Completed σ draft.id created.issueKey := by
    refine stmt_keeps (fun _ => nofun) fun σ g _ =>
      ⟨⟨rfl, rfl, ⟨op, g.op.trans hop⟩, draft, created, g.has hd, rfl,
      hf.grow g, rfl⟩, fun c r? σ' hx _ r ha => ?_⟩
    simp only [perform] at hx
    split at hx <;> cases hx
    · cases ha
    · exact ⟨op, mem_log (g.op.trans hop)⟩
  have hcomplete : Keeps (machine deps)
    (spec deps) pid σ₀ (completeRecord IDEMPOTENCY_NAMESPACE draft.id "sandbox_issue"
      created.issueKey ⟨created.projectId, created.requestId, created.issueKey, created.status⟩)
      fun _ σ => Completed σ draft.id created.issueKey := by
    refine Keeps.bind hupdate fun r? σ _ hr => ?_
    cases r? with
    | none => exact Keeps.raise _
    | some r => exact Keeps.ret (hr r rfl)
  refine Keeps.bind hcomplete fun _ σ _ hk => ?_
  exact Keeps.bind (setDraftStatus_keeps _ _) fun _ σ' g' _ => Keeps.ret (.inr ⟨_, rfl, hk.grow g'⟩)

theorem enqueue_keeps (request : Jobs.EnqueueJobRequest) :
    Keeps (machine deps) (spec deps) pid σ₀ (enqueue request) fun _ _ => True := by
  unfold enqueue
  split
  · exact Keeps.raise _
  · exact free_keeps (fun _ => nofun) fun _ => trivial

theorem pendingReconciliation_keeps (draftId requestId : UUID) :
    Keeps (machine deps) (spec deps) pid σ₀ (pendingReconciliation draftId requestId)
      fun outcome σ => Answers σ outcome := by
  exact Keeps.bind (enqueue_keeps _) fun _ σ _ _ => Keeps.ret (.inl ⟨rfl, rfl⟩)

/-! ## Operations -/

theorem acceptConfirmation_keeps {op : Op} {draft : IssueDraft} {confirmationId actorId : UUID}
    (hop : σ₀.ops pid = some op) (hcall : op.call = .execute draft.id confirmationId actorId)
    (hd : σ₀.Has draft) :
    Keeps (machine deps) (spec deps) pid σ₀ (acceptConfirmation deps draft confirmationId actorId)
      fun receipt σ => receipt ∈ σ.confirmations.view pid ∧ receipt.id = confirmationId ∧
        receipt.confirmedBy = actorId ∧ ⟨op, .accepted receipt⟩ ∈ σ.trace := by
  refine Keeps.bind (Keeps.handle (getConfirmation_keeps _) fun e σ _ => ?_)
    fun receipt σ g ⟨hv, hid⟩ => ?_
  · split <;> exact Keeps.raise _
  · split_ifs with hs hb hh hst
    · exact Keeps.raise _
    · exact Keeps.raise _
    · exact Keeps.raise _
    · exact Keeps.raise _
    · simp only [ne_eq, not_not] at hs hb hh
      have hentry : ∀ op', σ.ops pid = some op' → EntryOk deps σ ⟨op', .accepted receipt⟩ :=
        fun op' hop' => by
        obtain rfl := Option.some.inj ((g.op.trans hop).symm.trans hop')
        exact ⟨draft, g.has hd, by rw [hcall, hid, hb], hs, hh.symm⟩
      have hmark : Keeps (machine deps) (spec deps) pid σ (mark (.accepted receipt)) _ :=
        mark_keeps rfl hentry fun _ => nofun
      refine Keeps.bind hmark fun _ σ' g' hm => Keeps.ret ?_
      exact ⟨g'.receipts _ hv, hid, hb, hm op (g'.op.trans (g.op.trans hop))⟩

theorem afterReserve_keeps {op : Op} {draft : IssueDraft} {receipt : ToolConfirmationReceipt}
    (hop : σ₀.ops pid = some op) (hd : σ₀.Has draft) (hv : receipt ∈ σ₀.confirmations.view pid)
    (hc : Cleared σ₀.trace op draft receipt) {created : Bool}
    (hr : created = true → ⟨op, .reserved draft.id⟩ ∈ σ₀.trace) :
    Keeps (machine deps) (spec deps) pid σ₀
      (afterReserve draft (deps.buildCreateRequest draft) created)
      fun outcome σ => Answers σ outcome := by
  refine Keeps.bind (getIssueByRequestId_keeps _ _) fun existing σ g hfound => ?_
  cases existing with
  | some existing => exact complete_keeps ⟨op, g.op.trans hop⟩ (g.has hd) (hfound existing rfl) _
  | none =>
    dsimp only
    split
    · next hcr =>
      have hres := hr hcr
      have horigin : Origin deps σ₀ pid (deps.buildCreateRequest draft) :=
        ⟨op, draft, hop, hd, rfl, ⟨op, hres⟩, .inr ⟨hres, receipt, hv, hc⟩⟩
      have hcreate : Keeps (machine deps) (spec deps) pid σ
          (some <$> createIssue (deps.buildCreateRequest draft)) fun created? σ => ∀ created,
            created? = some created → Found σ pid draft.projectId draft.id created :=
        Keeps.bind (createIssue_keeps (horigin.grow g)) fun created σ' _ hf =>
          Keeps.ret fun _ h => by
          cases h; exact hf
      refine Keeps.bind (Keeps.handle hcreate fun e σ' _ => ?_) fun created? σ' g' hf => ?_
      · split
        · exact Keeps.ret fun _ => nofun
        · exact Keeps.ret fun _ => nofun
        · exact Keeps.raise _
      · have g'' := g.trans g'
        cases created? with
        | none => exact pendingReconciliation_keeps _ _
        | some created =>
          exact complete_keeps ⟨op, g''.op.trans hop⟩ (g''.has hd) (hf created rfl) _
    · exact pendingReconciliation_keeps _ _

theorem execute_keeps {op : Op} {draftId confirmationId actorId : UUID} (hop : σ₀.ops pid = some op)
    (hcall : op.call = .execute draftId confirmationId actorId) (hle : op.openedAt ≤ σ₀.now) :
    Keeps (machine deps) (spec deps) pid σ₀ (execute deps draftId confirmationId actorId)
      fun outcome σ => Answers σ outcome := by
  refine Keeps.bind (getDraft_keeps draftId) fun draft σ₁ g₁ ⟨hd, hid⟩ => ?_
  subst hid
  have hop₁ := g₁.op.trans hop
  refine Keeps.bind (acceptConfirmation_keeps hop₁ hcall hd)
    fun receipt σ₂ g₂ ⟨hv, hrid, hby, hacc⟩ => ?_
  have hop₂ := g₂.op.trans hop₁
  refine Keeps.bind (authorizeProject_keeps actorId draft.projectId hop₂
    (hle.trans (g₁.trans g₂).now))
    fun context σ₃ g₃ ⟨at_, m, hm, hat, hu, hp, hroles⟩ => ?_
  have hop₃ := g₃.op.trans hop₂
  have hmark : Keeps (machine deps) (spec deps) pid σ₃ (mark (.authorized context)) _ :=
    mark_keeps rfl (fun _ _ => trivial) fun _ => nofun
  refine Keeps.bind hmark fun _ σ₄ g₄ hauth => ?_
  have hop₄ := g₄.op.trans hop₃
  refine Keeps.bind (assertCanCreate_keeps hop₄ hroles) fun _ σ₅ g₅ ⟨hrole, hmay⟩ => ?_
  have hop₅ := g₅.op.trans hop₄
  have g₃₅ := g₃.trans (g₄.trans g₅)
  have hcleared : Cleared σ₅.trace op draft receipt :=
    { call := by rw [hcall, hrid, hby]
      accepted := g₃₅.mem_trace hacc
      authorized := ⟨at_, m, context, hby ▸ (g₄.trans g₅).mem_trace hm, hat, hrole,
        g₅.mem_trace (hauth op hop₄), hby ▸ hu, hp, hroles, hmay⟩ }
  refine Keeps.bind (getRecord_keeps draft.id) fun existing σ₆ g₆ hex => ?_
  split
  · next record hfilter =>
    obtain ⟨hsome, hcompleted⟩ := Option.filter_eq_some_iff.mp hfilter
    exact outcomeFromRecord_keeps (hex record hsome) (by simpa using hcompleted) _ _
  · refine Keeps.bind clock_keeps fun now σ₇ g₇ _ => ?_
    split_ifs
    · exact Keeps.raise _
    · have g₅₇ := g₆.trans g₇
      have g₂₇ := g₃₅.trans g₅₇
      refine Keeps.bind (reserve_keeps (g₅₇.op.trans hop₅) ((g₂.trans g₂₇).has hd)
        (g₂₇.receipts _ hv)
        (hcleared.mono fun e => g₅₇.mem_trace)) fun r σ₈ g₈ ⟨hok, hres⟩ => ?_
      obtain ⟨record, created⟩ := r
      dsimp only
      split_ifs with hcompleted
      · exact outcomeFromRecord_keeps hok hcompleted _ _
      · have g₂₈ := g₂₇.trans g₈
        exact afterReserve_keeps ((g₅₇.trans g₈).op.trans hop₅) ((g₂.trans g₂₈).has hd)
          (g₂₈.receipts _ hv)
          (hcleared.mono fun e => (g₅₇.trans g₈).mem_trace) hres

theorem reconcile_keeps {op : Op} {draftId : UUID} (hop : σ₀.ops pid = some op)
    (hcall : op.call = .reconcile draftId) :
    Keeps (machine deps) (spec deps) pid σ₀ (reconcile deps draftId) fun outcome σ =>
      Answers σ outcome := by
  refine Keeps.bind (getDraft_keeps draftId) fun draft σ₁ g₁ ⟨hd, hid⟩ => ?_
  subst hid
  refine Keeps.bind (getRecord_keeps draft.id) fun r? σ₂ g₂ hr => ?_
  cases r? with
  | none => exact Keeps.raise _
  | some record =>
    have hok := hr record rfl
    have hop₂ := (g₁.trans g₂).op.trans hop
    have hd₂ := g₂.has hd
    dsimp only
    split_ifs with hcompleted
    · exact outcomeFromRecord_keeps hok hcompleted _ _
    · refine Keeps.bind (getIssueByRequestId_keeps _ _) fun existing σ₃ g₃ hfound => ?_
      have hop₃ := g₃.op.trans hop₂
      cases existing with
      | some existing => exact complete_keeps ⟨op, hop₃⟩ (g₃.has hd₂) (hfound existing rfl) _
      | none =>
        have horigin : Origin deps σ₃ pid (deps.buildCreateRequest draft) :=
          ⟨op, draft, hop₃, g₃.has hd₂, rfl, hok.reserved.grow g₃, .inl hcall⟩
        refine Keeps.bind (createIssue_keeps horigin) fun created σ₄ g₄ hf => ?_
        exact complete_keeps ⟨op, g₄.op.trans hop₃⟩ ((g₃.trans g₄).has hd₂) hf _

theorem recordDecision_keeps (draftId actorId : UUID) (action : ConfirmationAction)
    (hash : String) :
    Keeps (machine deps) (spec deps) pid σ₀ (recordDecision deps draftId actorId action hash)
      fun _ _ => True := by
  have hprepare : Keeps (machine deps) (spec deps) pid σ₀ (prepare deps draftId) fun prepared σ =>
      ∃ draft, σ.Has draft ∧ draft.id = draftId ∧
        prepared.requestPayloadHash = deps.draftHash draft := by
    refine Keeps.bind (getDraft_keeps draftId) fun draft σ g ⟨hd, hid⟩ => ?_
    refine Keeps.bind (free_keeps (fun _ => nofun) fun _ => trivial) fun links σ' g' _ =>
      Keeps.ret ?_
    exact ⟨draft, g'.has hd, hid, rfl⟩
  refine Keeps.bind hprepare fun prepared σ₁ g₁ ⟨d, hd, hid, hhash⟩ => ?_
  refine Keeps.bind clock_keeps fun now σ₂ g₂ _ => ?_
  split_ifs
  · exact Keeps.raise _
  · exact Keeps.raise _
  · refine Keeps.bind (getDraft_keeps draftId) fun draft σ₃ g₃ ⟨hd', hid'⟩ => ?_
    refine Keeps.bind (free_keeps (fun _ => nofun) fun _ => trivial) fun receiptId σ₄ g₄ _ => ?_
    have hsame : ReceiptOk deps σ₄ ⟨receiptId, draft.runId, TOOL_NAME, prepared.requestPayloadHash,
        decisionStatus action, actorId, now, prepared.expiresAt⟩ := by
      -- two reads of one draft agree on everything but its status
      obtain ⟨s, hs⟩ := (g₂.trans g₃).has hd
      obtain ⟨s', hs'⟩ := hd'
      rw [hid, ← hid', hs'] at hs
      refine ⟨draft, g₄.has ⟨s', hs'⟩, rfl, rfl, ?_⟩
      have hdraft : d = { draft with status := d.status } := by
        have := Option.some.inj hs
        cases d; cases draft; simp_all
      rw [hhash, hdraft]
      rfl
    refine Keeps.bind (saveConfirmation_keeps hsame) fun receipt σ₅ _ _ => ?_
    exact Keeps.bind (setDraftStatus_keeps _ _) fun _ _ _ _ => Keeps.ret trivial

/-! ## Sessions -/

theorem runCall_safe (call : Call) :
    Safe (machine deps) (spec deps) pid (fun _ _ => True) (runCall deps call) σ₀ := by
  intro σ₁ _ _
  refine ⟨trivial, fun c r σ₂ hx hi => ?_⟩
  cases hx
  have hop : ({ σ₁ with
      opened := σ₁.opened + 1
      ops := Function.update σ₁.ops pid (some ⟨σ₁.opened, call, σ₁.now⟩) } : Store).ops pid =
      some ⟨σ₁.opened, call, σ₁.now⟩ := Function.update_self ..
  have hanswer {x : Session IssueCreationOutcome} {σ : Store}
      (hx : Keeps (machine deps) (spec deps) pid σ x fun outcome σ => Answers σ outcome) :
      Keeps (machine deps) (spec deps) pid σ (x.bind fun outcome => mark (.answered outcome))
        fun _ _ => True :=
    Keeps.bind hx fun outcome σ _ ha =>
      have hmark : Keeps (machine deps) (spec deps) pid σ (mark (.answered outcome)) _ :=
        mark_keeps rfl (fun _ _ => ha) fun _ => nofun
      hmark.weaken fun _ _ _ _ => trivial
  have hkeeps {x : Session Unit} {σ : Store}
    (hx : Keeps (machine deps) (spec deps) pid σ x fun _ _ => True) :
      Safe (machine deps) (spec deps) pid (fun _ _ => True) x σ := hx.mono fun _ _ _ => trivial
  cases call with
  | recordDecision draftId actorId action hash =>
    refine hkeeps (Keeps.handle (Keeps.bind (recordDecision_keeps draftId actorId action hash)
      fun _ _ _ _ => Keeps.ret trivial)
      fun e σ _ => ?_)
    split
    · exact Keeps.ret trivial
    · exact Keeps.ret trivial
    · exact Keeps.raise _
  | execute draftId confirmationId actorId =>
    refine hkeeps (Keeps.handle (hanswer (execute_keeps hop rfl (Nat.le_refl _))) fun e σ _ => ?_)
    split
    · exact Keeps.ret trivial
    · exact Keeps.raise _
  | reconcile draftId => exact hkeeps (hanswer (reconcile_keeps hop rfl))

theorem session_safe (calls : List Call) :
    Safe (machine deps) (spec deps) pid (fun _ _ => True) (session deps calls) σ₀ := by
  refine Safe.seq (Safe.each (fun call _ σ => runCall_safe call) σ₀) fun _ σ => ?_
  exact fun σ₁ _ _ => ⟨trivial, fun c r σ₂ _ _ => by cases r <;> trivial⟩

/-- **The specification fits the services.** -/
theorem fits : (spec deps).Fits (machine deps) (fun _ => True) fun _ _ _ => True where
  start calls pid σ p σ' _ hi hs := by
    cases hs
    exact ⟨hi, fun _ _ => Grows.refl, session_safe calls⟩
  exec pid s c σ r σ' hi hp _ hx := ⟨exec_inv hi hp hx, fun q hq => exec_grows hx (.inl hq)⟩
  finish pid r σ hi := ⟨hi.close, fun q hq => close_grows hq⟩
  kill pid σ hi := ⟨hi.close, fun q hq => close_grows hq⟩
  env e σ σ' hi h := ⟨outside_inv hi h, fun q => outside_grows h⟩

theorem Initial.good {w : IssueWorld} (h : Initial w) : (spec deps).Good (machine deps) w := by
  refine Spec.Good.of_idle ?_ h.idle
  obtain ⟨committed, hissues, hnone⟩ := h.issues
  exact {
    draftId := h.drafts
    loaded := fun pid id draft hl => by rw [h.loaded] at hl; cases hl
    unique := by
      rw [hissues]
      refine List.pairwise_of_forall_mem_list fun a ha b _ hc => ?_
      obtain ⟨k, hk, -⟩ := hc
      simp only [Table.rows, List.map_nil, List.append_nil] at ha
      simp [SandboxIssue.requestKey, hnone a ha] at hk
    records := fun requestId r hr => by rw [h.idempotency] at hr; cases hr
    receipts := fun r hr => by rw [h.confirmations] at hr; cases hr
    issues := fun i hi requestId hid => by
      rw [hissues] at hi
      simp only [Table.rows, List.map_nil, List.append_nil] at hi
      rw [hnone i hi] at hid
      cases hid
    trace := fun e he => by rw [h.trace] at he; cases he
    ops := fun pid op hop => by rw [h.ops] at hop; cases hop }

end ProjectAgent.Issue
