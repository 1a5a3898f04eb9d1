/-
Who may write, checked before every write: an `execute` authorizes its user in
the operation that writes, by the roles of that moment. A reconciliation does
not check again; it goes by a reservation, and it was an `execute`, checked,
that made it.
-/
import ProjectAgent.Issue.Backed

namespace ProjectAgent.Issue

open Interleave

variable {deps : Deps} {w w' : IssueWorld} {a : IssueAction} {σ σ' : Store} {pid q : Nat}
  {c : Choice}

/-- The operation, an `execute` of this draft by the user who confirmed it,
was authorized and allowed to create. -/
def Checked (deps : Deps) (t : List Entry) (op : Op) (draft : IssueDraft) : Prop :=
  ∃ receipt, Cleared t op draft receipt ∧ receipt.status = .CONFIRMED ∧
    receipt.requestPayloadHash = deps.draftHash draft

theorem Checked.of_status {t : List Entry} {op : Op} {draft : IssueDraft}
    {status : IssueDraftStatus} (h : Checked deps t op { draft with status := status }) :
    Checked deps t op draft :=
  let ⟨receipt, hc, hst, hhash⟩ := h
  ⟨receipt, ⟨hc.call, hc.accepted, hc.authorized⟩, hst, hhash⟩

/-- What comes before each call of `create_issue`, the trace's head being the
latest entry: in an `execute`, its own check; in a reconciliation, the
reservation of a checked `execute`. -/
def Rechecked (deps : Deps) (σ : Store) : Prop :=
  ∀ later op request earlier, σ.trace = later ++ ⟨op, .createIssue request⟩ :: earlier →
    ∃ draft, σ.Has draft ∧ request = deps.buildCreateRequest draft ∧
      (Checked deps earlier op draft ∨ op.call = .reconcile draft.id ∧
        ∃ op', ⟨op', .reserved draft.id⟩ ∈ earlier ∧ Checked deps earlier op' draft)

theorem Inv.checked (hi : Inv deps σ) {op : Op} {draft : IssueDraft}
    {receipt : ToolConfirmationReceipt} (hd : σ.Has draft) (hc : Cleared σ.trace op draft receipt) :
    Checked deps σ.trace op draft := by
  obtain ⟨d, hd', hcall, hst, hhash⟩ := hi.trace _ hc.accepted
  have hid : d.id = draft.id := (Call.execute.inj (hcall.symm.trans hc.call)).1
  refine ⟨receipt, hc, hst, ?_⟩
  rw [hhash, hd'.content hd hid]
  rfl

theorem Rechecked.step (hg : (spec deps).Good (machine deps) w) (hr : Rechecked deps w.shared)
    (h : (machine deps).step a w = some w') : Rechecked deps w'.shared := by
  obtain ⟨q, g⟩ := step_grows h
  have hold : ∀ later op request earlier, w.shared.trace = later ++
    ⟨op, .createIssue request⟩ :: earlier →
      ∃ draft, w'.shared.Has draft ∧ request = deps.buildCreateRequest draft ∧
        (Checked deps earlier op draft ∨ op.call = .reconcile draft.id ∧
          ∃ op', ⟨op', .reserved draft.id⟩ ∈ earlier ∧ Checked deps earlier op' draft) :=
    fun later op request earlier ht =>
      let ⟨draft, hd, hrest⟩ := hr later op request earlier ht
      ⟨draft, g.has hd, hrest⟩
  intro later op request earlier ht
  rcases step_trace hg h with hsame | ⟨pid, c, s, op₁, e, hd, hop, hlog, hcons⟩
  · exact hold later op request earlier (hsame ▸ ht)
  · rw [hcons] at ht
    cases later with
    | cons _ later => exact hold later op request earlier (List.cons.inj ht).2
    | nil =>
      -- the new entry is the call: its permit says where the request comes from
      obtain ⟨hentry, rfl⟩ := List.cons.inj ht
      cases hentry
      obtain rfl : s = .mark (.createIssue request) := hlog
      obtain ⟨op', draft, hop', hdraft, hreq, ⟨op₀, hres⟩, horigin⟩ :=
        (hd.permit hg).2.2 request rfl
      obtain rfl := Option.some.inj (hop.symm.trans hop')
      refine ⟨draft, g.has hdraft, hreq, ?_⟩
      rcases horigin with hcall | ⟨-, receipt, -, hcleared⟩
      · obtain ⟨-, d, receipt, hd₀, hid, hcleared⟩ := hg.inv.trace _ hres
        have hchecked := hg.inv.checked hd₀ hcleared
        rw [hd₀.content hdraft hid] at hchecked
        exact .inr ⟨hcall, op₀, hres, hchecked.of_status⟩
      · exact .inl (hg.inv.checked hdraft hcleared)

/-! ## A role taken away -/

/-- Every membership that lets the user write in the project has ended by `t`. -/
def Revoked (userId projectId : UUID) (t : Nat) (σ : Store) : Prop :=
  ∀ m ∈ σ.directory.memberships, m.userId = userId → m.projectId = projectId →
    m.role ∈ ALLOWED_ROLES →
    ∃ e, m.validTo = some e ∧ e ≤ t

/-- No `execute` of the user's that starts from operation `n` on calls `create_issue` in the
project. -/
def NoCreateFrom (n : Nat) (userId projectId : UUID) (σ : Store) : Prop :=
  ∀ op request draftId confirmationId, ⟨op, .createIssue request⟩ ∈ σ.trace →
    op.call = .execute draftId confirmationId userId → request.projectId = projectId → op.no < n

/-- Operations are numbered as they start. -/
structure Numbered (σ : Store) : Prop where
  ops : ∀ pid op, σ.ops pid = some op → op.no < σ.opened
  trace : ∀ e ∈ σ.trace, e.op.no < σ.opened

/-- A session stays in its operation, or starts the next one now, or is in none. -/
theorem step_ops (h : (machine deps).step a w = some w') :
    w.shared.opened ≤ w'.shared.opened ∧ ∀ p op, w'.shared.ops p = some op →
      w.shared.ops p = some op ∨
      op.no = w.shared.opened ∧ op.openedAt = w.shared.now ∧
        w'.shared.opened = w.shared.opened + 1 := by
  have hperform {pid : Nat} {c : Choice} {s : Stmt} {r : Except Exc s.Res} {σ σ' : Store}
      (h : perform pid c σ s = some (r, σ')) : (∃ call, s = .enter call) ∨ σ'.ops = σ.ops ∧
        σ'.opened = σ.opened := by
    cases s with
    | enter call => exact .inl ⟨call, rfl⟩
    | getDraft | insertIdempotency | completeIdempotency =>
      simp only [perform] at h
      split at h <;> cases h <;> exact .inr ⟨rfl, rfl⟩
    | setDraftStatus =>
      obtain ⟨locks, rfl | ⟨draft, -, rfl⟩⟩ := perform_setDraftStatus h <;> exact .inr ⟨rfl, rfl⟩
    | insertConfirmation =>
      simp only [perform] at h
      split at h
      · cases h
      · split at h <;> cases h <;> exact .inr ⟨rfl, rfl⟩
    | insertIssue =>
      simp only [perform] at h
      split at h
      · cases h
      · split at h
        · cases h; exact .inr ⟨rfl, rfl⟩
        · split at h <;> cases h <;> exact .inr ⟨rfl, rfl⟩
    | mark | clock | uuid4 | listCandidateLinks | selectConfirmation | getConfirmation
        | getActiveMembership |
      listPublishedVersions | listActiveKnowledgeSpaceIds | selectIdempotency | selectIssue |
      selectActiveSandboxProjects | enqueue | commit =>
      cases h; exact .inr ⟨rfl, rfl⟩
  rcases step_shared h with ⟨pid, c, s, hd⟩ | ⟨pid, hs⟩ | ⟨e, ho⟩ | hs
  · obtain ⟨r, hp⟩ := hd.done
    rcases hperform hp with ⟨call, rfl⟩ | ⟨hops, hopened⟩
    · simp only [perform, Option.some.injEq, Prod.mk.injEq] at hp
      rw [← hp.2]
      refine ⟨Nat.le_succ _, fun p op hop => ?_⟩
      simp only [Function.update_apply] at hop
      split at hop
      · cases hop; exact .inr ⟨rfl, rfl, rfl⟩
      · exact .inl hop
    · exact ⟨hopened.ge, fun p op hop => .inl (hops ▸ hop)⟩
  · rw [hs]
    refine ⟨Nat.le_refl _, fun p op hop => .inl ?_⟩
    simp only [Store.close, Function.update_apply] at hop
    split at hop
    · cases hop
    · exact hop
  · exact ⟨(outside_frame ho).opened.ge, fun p op hop => .inl ((outside_frame ho).ops ▸ hop)⟩
  · rw [hs]
    exact ⟨Nat.le_refl _, fun p op hop => .inl hop⟩

theorem Numbered.step (hg : (spec deps).Good (machine deps) w) (hn : Numbered w.shared)
    (h : (machine deps).step a w = some w') : Numbered w'.shared := by
  obtain ⟨hle, hops⟩ := step_ops h
  constructor
  · intro p op hop
    rcases hops p op hop with hop | ⟨hno, -, hopened⟩
    · exact (hn.ops p op hop).trans_le hle
    · omega
  · intro e he
    rcases step_entry hg h he with he | ⟨pid, c, s, -, hop, -⟩
    · exact (hn.trace e he).trans_le hle
    · exact (hn.ops pid e.op hop).trans_le hle

/-- What is so from some moment on for the operations that start after it,
while the user has no role to write by. -/
structure SinceRevoked (n t : Nat) (userId projectId : UUID) (σ : Store) : Prop where
  opened : n ≤ σ.opened
  now : t ≤ σ.now
  ops : ∀ pid op, σ.ops pid = some op → n ≤ op.no → t ≤ op.openedAt
  trace : ∀ e ∈ σ.trace, n ≤ e.op.no → t ≤ e.op.openedAt
  memberships : ∀ op t' m, ⟨op, .membership userId projectId t' (some m)⟩ ∈ σ.trace →
    n ≤ op.no → t ≤ t' →
    m.role ∉ ALLOWED_ROLES

theorem Numbered.sinceRevoked (hn : Numbered σ) (userId projectId : UUID) :
    SinceRevoked σ.opened σ.now userId projectId σ where
  opened := Nat.le_refl _
  now := Nat.le_refl _
  ops pid op hop hle := absurd (hn.ops pid op hop) (Nat.not_lt.mpr hle)
  trace e he hle := absurd (hn.trace e he) (Nat.not_lt.mpr hle)
  memberships _ _ _ he hle := absurd (hn.trace _ he) (Nat.not_lt.mpr hle)

variable {n t : Nat} {userId projectId : UUID}

theorem SinceRevoked.step (hg : (spec deps).Good (machine deps) w)
    (hs : SinceRevoked n t userId projectId w.shared) (hr : Revoked userId projectId t w.shared)
    (h : (machine deps).step a w = some w') : SinceRevoked n t userId projectId w'.shared := by
  obtain ⟨hle, hops⟩ := step_ops h
  obtain ⟨q, g⟩ := step_grows h
  refine ⟨hs.opened.trans hle, hs.now.trans g.now, fun p op hop hno => ?_, fun e he hno => ?_,
    fun op t' m he hno ht => ?_⟩
  · rcases hops p op hop with hop | ⟨-, hat, -⟩
    · exact hs.ops p op hop hno
    · exact hat ▸ hs.now
  · rcases step_entry hg h he with he | ⟨pid, c, s, -, hop, -⟩
    · exact hs.trace e he hno
    · exact hs.ops pid e.op hop hno
  · rcases step_entry hg h he with he | ⟨pid, c, s, -, -, -, hfound⟩
    · exact hs.memberships op t' m he hno ht
    · -- the row was read just now, and every row it can be has ended
      obtain ⟨-, row, hrow, hu, hp, hrole, -, hactive⟩ :=
        activeMemberships_project (pickFrom_mem hfound.symm)
      intro hallowed
      obtain ⟨e, he, hend⟩ := hr row hrow hu hp (hrole ▸ hallowed)
      exact absurd (hactive e he) (by omega)

theorem SinceRevoked.noCreate (hs : SinceRevoked n t userId projectId σ) (hr : Rechecked deps σ) :
    NoCreateFrom n userId projectId σ := by
  intro op request draftId confirmationId he hcall hproject
  by_contra hno
  obtain ⟨later, earlier, ht⟩ := List.append_of_mem he
  obtain ⟨draft, -, rfl, hchecked⟩ := hr later op request earlier ht
  rcases hchecked with ⟨receipt, hc, -⟩ | ⟨hcall', -⟩
  · obtain ⟨-, -, rfl⟩ := Call.execute.inj (hcall.symm.trans hc.call)
    obtain ⟨at_, m, context, hm, hat, hrole, -⟩ := hc.authorized
    have hm' : ⟨op, .membership receipt.confirmedBy projectId at_ (some m)⟩ ∈ σ.trace := by
      rw [ht, ← hproject]
      exact List.mem_append_right _ (List.mem_cons_of_mem _ hm)
    have hopen := hs.trace _ hm' (Nat.not_lt.mp hno)
    exact hs.memberships op at_ m hm' (Nat.not_lt.mp hno) (hopen.trans hat) hrole
  · rw [hcall'] at hcall
    cases hcall

/-- **The check before the write.** In every run each call of `create_issue`
in an `execute` comes after that operation's own check of the confirming user,
and each one in a reconciliation after the reservation of an `execute` so
checked. While a user's roles in a project are revoked, no `execute` of theirs
that starts then calls `create_issue` there. -/
theorem rechecked (hw : Initial w) (as : List IssueAction) :
    (machine deps).Always (fun w => Rechecked deps w.shared) as w ∧
    ∀ pre post w₁ userId projectId, as = pre ++ post → (machine deps).run pre w = some w₁ →
      (machine deps).Always (fun w => Revoked userId projectId w₁.shared.now w.shared) post w₁ →
      (machine deps).Always (fun w => NoCreateFrom w₁.shared.opened userId projectId w.shared)
        post w₁ := by
  have hall : (machine deps).Always (fun w => (spec deps).Good (machine deps) w ∧
      (Rechecked deps w.shared ∧ Numbered w.shared)) as w := by
    refine hw.always ⟨fun later op request earlier ht => ?_, fun pid op hop => ?_, fun e he => ?_⟩
      Machine.eachStep_true fun a w₁ w₂ hg _ hp _ h => ⟨hp.1.step hg h, hp.2.step hg h⟩
    · rw [hw.trace] at ht
      simp at ht
    · rw [hw.ops] at hop
      cases hop
    · rw [hw.trace] at he
      cases he
  refine ⟨hall.mono fun w h => h.2.1, fun pre post w₁ userId projectId has hr hrev => ?_⟩
  subst has
  obtain ⟨hg, hre, hnum⟩ := hall pre (List.prefix_append pre post) w₁ hr
  have hcond : (machine deps).EachStep (fun _ w =>
      Revoked userId projectId w₁.shared.now w.shared) post w₁ :=
    fun pre' a hpre w₂ w₃ hr' _ => hrev pre' ((List.prefix_append pre' [a]).trans hpre) w₂ hr'
  have hsince : (machine deps).Always (fun w => (spec deps).Good (machine deps) w ∧
    Rechecked deps w.shared ∧
      SinceRevoked w₁.shared.opened w₁.shared.now userId projectId w.shared) post w₁ :=
    Machine.always_of_step ⟨hg, hre, hnum.sinceRevoked userId projectId⟩ hcond
      fun a w₂ w₃ ⟨hg₂, hre₂, hs₂⟩ hrev₂ h =>
        ⟨hg₂.step fits (a.allowed_all w₂) h, hre₂.step hg₂ h, hs₂.step hg₂ hrev₂ h⟩
  exact hsince.mono fun w ⟨_, hre, hs⟩ => hs.noCreate hre

/-! ## A write nobody checked

The user confirms, `create_issue` times out, the user leaves the project, and
the reconciliation writes. -/

/-- Each call of `create_issue` comes after a check in its own operation. -/
def CheckedInPlace (σ : Store) : Prop :=
  ∀ later op request earlier, σ.trace = later ++ ⟨op, .createIssue request⟩ :: earlier →
    ∃ context, ⟨op, .authorized context⟩ ∈ earlier ∧ ⟨op, .mayCreate context.roleIds⟩ ∈ earlier

namespace Sample

def deserted : Directory := { directory with memberships := [] }

def leaves : List IssueAction :=
  decides .CONFIRM 0 ++ .start [executes] 1 :: steps 1 19 9 ++ [timesOut 1] ++ steps 1 3 9 ++
    [.finish 1, .env (.direct deserted), .start [.reconcile draft.id] 2] ++ steps 2 5 9

def isCreate : Event → Bool
  | .createIssue _ => true
  | _ => false

theorem leaves_run : ((machine services).run leaves world).map (fun w =>
    (w.shared.directory.memberships, w.shared.trace.head?.map fun e =>
      (e.op.no, e.op.call, isCreate e.event),
      w.shared.trace.tail.map (·.op.no))) =
    some ([], some (2, .reconcile draft.id, true), [1, 1, 1, 1, 1, 1, 1]) := by
  decide +kernel

end Sample

/-- The latest call of `create_issue` is a reconciliation's, and nothing else is
in the trace for that operation; the confirming user is no member any more. -/
theorem unchecked : Initial Sample.world ∧
    ¬ (machine Sample.services).Always (fun w =>
      CheckedInPlace w.shared) Sample.leaves Sample.world := by
  refine ⟨Sample.world_initial, fun h => ?_⟩
  obtain ⟨w, hr, hobs⟩ := Option.map_eq_some_iff.mp Sample.leaves_run
  simp only [Prod.mk.injEq, Option.map_eq_some_iff] at hobs
  obtain ⟨-, ⟨⟨op, event⟩, hhead, hno, -, hcreate⟩, htail⟩ := hobs
  have ht := (List.head?_eq_some_iff.mp hhead).choose_spec
  cases event with
  | createIssue request =>
    obtain ⟨context, hauth, -⟩ := h.last hr [] op request _ ht
    have hmem : op.no ∈ w.shared.trace.tail.map (·.op.no) := by
      rw [ht]
      exact List.mem_map.mpr ⟨_, hauth, rfl⟩
    rw [htail, hno] at hmem
    exact absurd hmem (by decide)
  | _ => cases hcreate

namespace Sample

/-- A first `execute` has made its check when the user's membership goes. -/
def checksThenDeserted : List IssueAction :=
  decides .CONFIRM 0 ++ .start [executes] 1 :: steps 1 14 9 ++ [.env (.direct deserted)]

/-- It goes on and creates the issue; a second one is refused. -/
def executesDeserted : List IssueAction := steps 1 2 9 ++ .start [executes] 2 :: steps 2 6 9

def creates (σ : Store) : List Nat := (σ.trace.filter fun e => isCreate e.event).map (·.op.no)

theorem executesDeserted_run : ((machine services).run checksThenDeserted world).map (fun w =>
    (w.shared.opened, executesDeserted.inits.all fun pre =>
        ((machine services).run pre w).all fun w' => w'.shared.directory.memberships.isEmpty,
      ((machine services).run executesDeserted w).map fun w' =>
        (w'.shared.opened, creates w'.shared))) =
    some (2, true, some (3, [1])) := by
  decide +kernel

end Sample

theorem rechecked_leaves :
    (machine Sample.services).Always (fun w =>
      Rechecked Sample.services w.shared) Sample.leaves Sample.world ∧
    ∃ w₁, (machine Sample.services).run Sample.checksThenDeserted Sample.world = some w₁ ∧
      ((machine Sample.services).run Sample.executesDeserted w₁).map (fun w =>
        Sample.creates w.shared) = some [1] ∧
      (machine Sample.services).Always
        (fun w => NoCreateFrom 2 Sample.draft.createdBy Sample.draft.projectId w.shared)
        Sample.executesDeserted w₁ := by
  refine ⟨(rechecked Sample.world_initial Sample.leaves).1, ?_⟩
  obtain ⟨w₁, hr, hobs⟩ := Option.map_eq_some_iff.mp Sample.executesDeserted_run
  simp only [Prod.mk.injEq] at hobs
  obtain ⟨hopened, hempty, hlast⟩ := hobs
  have hrevoked : (machine Sample.services).Always
      (fun w => Revoked Sample.draft.createdBy Sample.draft.projectId w₁.shared.now w.shared)
      Sample.executesDeserted w₁ := by
    refine Machine.always_of_inits (fun w h m hm => ?_) hempty
    rw [List.isEmpty_iff.mp h] at hm
    cases hm
  have hnone :=
    (rechecked Sample.world_initial (Sample.checksThenDeserted ++ Sample.executesDeserted)).2
    Sample.checksThenDeserted Sample.executesDeserted w₁ _ _ rfl hr hrevoked
  rw [hopened] at hnone
  obtain ⟨w₂, hr₂, hcreates⟩ := Option.map_eq_some_iff.mp hlast
  refine ⟨w₁, hr, ?_, hnone⟩
  rw [hr₂]
  exact congrArg some (Prod.mk.inj hcreates).2

end ProjectAgent.Issue
