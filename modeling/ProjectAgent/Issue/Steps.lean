/-
What a step of the running services can be, read off the machine once: a
statement is done, a session is closed, something happens outside, or the
store stays as it is. From it, what every step keeps and where each new entry
of the trace comes from.
-/
import ProjectAgent.Issue.Sessions

namespace ProjectAgent.Issue

open Interleave

variable {deps : Deps} {w w' : IssueWorld} {a : IssueAction} {σ σ' : Store} {pid : Nat} {c : Choice}

/-- The step is session `pid` doing `s`; its answer may still be lost. -/
structure Does (a : IssueAction) (w w' : IssueWorld) (pid : Nat) (c : Choice)
    (s : Stmt) : Prop where
  action : a = .exec pid c
  issues : ∃ k, w.procs pid = some (.stmt s k)
  done : ∃ r, perform pid c w.shared s = some (r, w'.shared)
  sent : s.remote = true → ∀ lost, c.fault ≠ some (.before lost)

theorem step_shared (h : (machine deps).step a w = some w') :
    (∃ pid c s, Does a w w' pid c s) ∨ (∃ pid, w'.shared = w.shared.close pid) ∨
    (∃ e, outside e w.shared = some w'.shared) ∨ w'.shared = w.shared := by
  rcases Machine.step_cases h with ⟨calls, pid, p, -, -, hs, -⟩ | ⟨pid, c, s, k, r, ha, hq, hx, -⟩ |
    ⟨pid, r, -, -, hs, -⟩ | ⟨pid, p, -, -, hs, -⟩ | ⟨e, -, hs, -⟩
  · exact .inr (.inr (.inr (congrArg Prod.snd (Option.some.inj hs)).symm))
  · rcases exec_cases hx with ⟨r₀, hp, -, hf⟩ | ⟨hσ, -⟩
    · exact .inl ⟨pid, c, s, ha, ⟨k, hq⟩, ⟨r₀, hp⟩, hf⟩
    · exact .inr (.inr (.inr hσ))
  · exact .inr (.inl ⟨pid, hs⟩)
  · exact .inr (.inl ⟨pid, hs⟩)
  · exact .inr (.inr (.inl ⟨e, hs⟩))

/-- A statement that is not lost on the way is done. -/
theorem does_of_step {s : Stmt} {k : Except Exc s.Res → Session Unit}
    (h : (machine deps).step (.exec pid c) w = some w') (hp : w.procs pid = some (.stmt s k))
    (hf : ∀ lost, c.fault ≠ some (.before lost)) :
    Does (.exec pid c) w w' pid c s := by
  refine ⟨rfl, ⟨k, hp⟩, ?_, fun _ => hf⟩
  simp only [Machine.step, hp] at h
  obtain ⟨⟨r, σ₁⟩, hx, rfl⟩ := Option.map_eq_some_iff.mp h
  simp only [machine, exec] at hx
  split at hx
  · next lost _ hb => exact absurd hb (hf lost)
  · obtain ⟨⟨r₀, σ₂⟩, hd, heq⟩ := Option.map_eq_some_iff.mp hx
    cases heq
    exact ⟨r₀, hd⟩
  · exact ⟨r, hx⟩

/-- What is the sessions' alone: nothing outside touches it. -/
structure Frame (σ σ' : Store) : Prop where
  confirmations : σ'.confirmations = σ.confirmations
  issues : σ'.issues = σ.issues
  idempotency : σ'.idempotency = σ.idempotency
  loaded : σ'.loaded = σ.loaded
  rowLocks : σ'.rowLocks = σ.rowLocks
  statusWrites : σ'.statusWrites = σ.statusWrites
  opened : σ'.opened = σ.opened
  ops : σ'.ops = σ.ops
  trace : σ'.trace = σ.trace

theorem outside_frame {e : Outside} (h : outside e σ = some σ') : Frame σ σ' := by
  cases e with
  | tick n => cases h; exact ⟨rfl, rfl, rfl, rfl, rfl, rfl, rfl, rfl, rfl⟩
  | direct directory => cases h; exact ⟨rfl, rfl, rfl, rfl, rfl, rfl, rfl, rfl, rfl⟩
  | createDraft draft =>
    simp only [outside] at h
    split at h <;> cases h
    exact ⟨rfl, rfl, rfl, rfl, rfl, rfl, rfl, rfl, rfl⟩

theorem step_grows (h : (machine deps).step a w = some w') : ∃ q, Grows q w.shared w'.shared := by
  rcases step_shared h with ⟨pid, c, s, hd⟩ | ⟨pid, hs⟩ | ⟨e, he⟩ | hs
  · obtain ⟨r, hp⟩ := hd.done
    exact ⟨pid + 1, perform_grows hp (.inl (Nat.succ_ne_self pid))⟩
  · exact ⟨pid + 1, hs ▸ close_grows (Nat.succ_ne_self pid)⟩
  · exact ⟨0, outside_grows he⟩
  · exact ⟨0, hs ▸ Grows.refl⟩

/-! ## New entries -/

/-- The statement that leaves this event in the trace. -/
def Logs (s : Stmt) (c : Choice) (σ : Store) : Event → Prop
  | .membership userId projectId t found => s = .getActiveMembership userId projectId t ∧
      found = pickFrom c (σ.directory.activeMemberships userId projectId t)
  | .reserved requestId => ∃ ns projectId, s = .insertIdempotency ns requestId projectId
  | .completed requestId key => ∃ ns resourceType response,
      s = .completeIdempotency ns requestId resourceType key response ∧ response.issueKey = key
  | .inserted issue => s = .insertIssue issue
  | e => s = .mark e

/-- What a statement may have done to the trace. -/
def Traced (pid : Nat) (s : Stmt) (c : Choice) (σ σ' : Store) : Prop :=
  σ'.trace = σ.trace ∨
    ∃ op e, σ.ops pid = some op ∧ Logs s c σ e ∧ σ'.trace = ⟨op, e⟩ :: σ.trace

theorem traced_log {s : Stmt} {e : Event} (hlog : Logs s c σ e) (htrace : σ'.trace = σ.trace)
    (hops : σ'.ops = σ.ops) : Traced pid s c σ (σ'.log pid e) := by
  unfold Traced
  simp only [Store.log, htrace, hops]
  cases hop : σ.ops pid with
  | none => exact .inl rfl
  | some op => exact .inr ⟨op, e, rfl, hlog, rfl⟩

theorem perform_trace {s : Stmt} (hperm : permit deps pid s σ) {r : Except Exc s.Res}
    (h : perform pid c σ s = some (r, σ')) : Traced pid s c σ σ' := by
  cases s with
  | mark e =>
    cases h
    refine traced_log ?_ rfl rfl
    have hrep := hperm.1
    cases e <;> first | rfl | cases hrep
  | getActiveMembership userId projectId t => cases h; exact traced_log ⟨rfl, rfl⟩ rfl rfl
  | insertIdempotency ns requestId projectId =>
    simp only [perform] at h
    split at h <;> cases h
    · exact .inl rfl
    · exact traced_log ⟨ns, projectId, rfl⟩ rfl rfl
  | completeIdempotency ns requestId resourceType resourceId response =>
    simp only [perform] at h
    split at h <;> cases h
    · exact .inl rfl
    · obtain rfl := hperm.2.1
      exact traced_log ⟨ns, resourceType, response, rfl, rfl⟩ rfl rfl
  | insertIssue issue =>
    simp only [perform] at h
    split at h
    · cases h
    · split at h
      · cases h; exact .inl rfl
      · split at h <;> cases h
        · exact .inl rfl
        · exact traced_log rfl rfl rfl
  | getDraft draftId =>
    simp only [perform] at h
    split at h <;> cases h <;> exact .inl rfl
  | setDraftStatus draftId status =>
    obtain ⟨locks, rfl | ⟨draft, -, rfl⟩⟩ := perform_setDraftStatus h <;> exact .inl rfl
  | insertConfirmation receipt =>
    simp only [perform] at h
    split at h
    · cases h
    · split at h <;> cases h <;> exact .inl rfl
  | enter | clock | uuid4 | listCandidateLinks | selectConfirmation | getConfirmation
      | listPublishedVersions |
    listActiveKnowledgeSpaceIds | selectIdempotency | selectIssue | selectActiveSandboxProjects |
      enqueue | commit =>
    cases h; exact .inl rfl

theorem Does.permit {s : Stmt} (hd : Does a w w' pid c s) (hg : (spec deps).Good (machine deps) w) :
    permit deps pid s w.shared :=
  let ⟨_, hk⟩ := hd.issues
  (hg.exec fits hk).1

/-- The trace stays, or a statement done in this step adds an entry for the operation its session is
in. -/
theorem step_trace (hg : (spec deps).Good (machine deps) w)
    (h : (machine deps).step a w = some w') :
    w'.shared.trace = w.shared.trace ∨ ∃ pid c s op e, Does a w w' pid c s ∧
      w.shared.ops pid = some op ∧
      Logs s c w.shared e ∧ w'.shared.trace = ⟨op, e⟩ :: w.shared.trace := by
  rcases step_shared h with ⟨pid, c, s, hd⟩ | ⟨pid, hs⟩ | ⟨e, ho⟩ | hs
  · obtain ⟨r, hp⟩ := hd.done
    exact (perform_trace (hd.permit hg) hp).imp_right fun ⟨op, e, h⟩ => ⟨pid, c, s, op, e, hd, h⟩
  · exact .inl (hs ▸ rfl)
  · exact .inl (outside_frame ho).trace
  · exact .inl (hs ▸ rfl)

theorem step_entry (hg : (spec deps).Good (machine deps) w) (h : (machine deps).step a w = some w')
    {entry : Entry} (he : entry ∈ w'.shared.trace) :
    entry ∈ w.shared.trace ∨ ∃ pid c s, Does a w w' pid c s ∧ w.shared.ops pid = some entry.op ∧
      Logs s c w.shared entry.event := by
  rcases step_trace hg h with hsame | ⟨pid, c, s, op, e, hd, hop, hlog, hcons⟩
  · exact .inl (hsame ▸ he)
  · rw [hcons] at he
    rcases List.mem_cons.mp he with rfl | he
    · exact .inr ⟨pid, c, s, hd, hop, hlog⟩
    · exact .inl he

/-! ## The two transactional tables -/

/-- The insert goes through: the key is free, for this session and every other. -/
def Inserts (pid : Nat) (c : Choice) (σ : Store) (issue : SandboxIssue) : Prop :=
  ∃ σ', perform pid c σ (.insertIssue issue) = some (.ok (some issue), σ')

theorem perform_issues {s : Stmt} {r : Except Exc s.Res} (h : perform pid c σ s = some (r, σ')) :
    σ'.issues = σ.issues ∨ s = .commit ∧ σ'.issues = σ.issues.commit pid ∨
    ∃ i, s = .insertIssue i ∧ σ'.issues = σ.issues.insert pid i ∧ Inserts pid c σ i := by
  cases s with
  | insertIssue issue =>
    have h' := h
    simp only [perform] at h
    split at h
    · cases h
    · split at h
      · cases h; exact .inl rfl
      · split at h <;> cases h
        · exact .inl rfl
        · exact .inr (.inr ⟨issue, rfl, rfl, _, h'⟩)
  | commit => cases h; exact .inr (.inl ⟨rfl, rfl⟩)
  | getDraft | insertIdempotency | completeIdempotency =>
    simp only [perform] at h
    split at h <;> cases h <;> exact .inl rfl
  | setDraftStatus =>
    obtain ⟨locks, rfl | ⟨draft, -, rfl⟩⟩ := perform_setDraftStatus h <;> exact .inl rfl
  | insertConfirmation =>
    simp only [perform] at h
    split at h
    · cases h
    · split at h <;> cases h <;> exact .inl rfl
  | enter | mark | clock | uuid4 | listCandidateLinks | selectConfirmation | getConfirmation
      | getActiveMembership |
    listPublishedVersions | listActiveKnowledgeSpaceIds | selectIdempotency | selectIssue |
    selectActiveSandboxProjects | enqueue =>
    cases h; exact .inl rfl

/-- An issue is there already, or this step inserts it. -/
theorem step_issue (h : (machine deps).step a w = some w') {i : SandboxIssue}
    (hi : i ∈ w'.shared.issues.rows) :
    i ∈ w.shared.issues.rows ∨ ∃ pid c, Does a w w' pid c (.insertIssue i) ∧
      Inserts pid c w.shared i := by
  rcases step_shared h with ⟨pid, c, s, hd⟩ | ⟨pid, hs⟩ | ⟨e, ho⟩ | hs
  · obtain ⟨r, hp⟩ := hd.done
    rcases perform_issues hp with hsame | ⟨-, hcommit⟩ | ⟨i', rfl, hins, hin⟩
    · exact .inl (hsame ▸ hi)
    · rw [hcommit] at hi
      exact .inl (Table.mem_rows_commit.mp hi)
    · rw [hins] at hi
      rcases List.mem_cons.mp (Table.rows_insert.mem_iff.mp hi) with rfl | hi
      · exact .inr ⟨pid, c, hd, hin⟩
      · exact .inl hi
  · rw [hs] at hi
    exact .inl (mem_rows_of_rollback hi)
  · exact .inl ((outside_frame ho).issues ▸ hi)
  · exact .inl (hs ▸ hi)

/-! ## Runs -/

/-- A property every step keeps holds of every world reached; the condition is the run's own. -/
theorem Initial.always {P : IssueWorld → Prop} {cond : IssueAction → IssueWorld → Prop}
    {as : List IssueAction} (hw : Initial w) (h₀ : P w) (hc : (machine deps).EachStep cond as w)
    (hstep : ∀ a w₁ w₂, (spec deps).Good (machine deps) w₁ → (spec deps).Good (machine deps) w₂ →
      P w₁ → cond a w₁ → (machine deps).step a w₁ = some w₂ → P w₂) :
    (machine deps).Always (fun w => (spec deps).Good (machine deps) w ∧ P w) as w :=
  hw.good.always fits h₀ (fun pre a hpre w₁ w₂ hr hs =>
    ⟨a.allowed_all w₁, hc pre a hpre w₁ w₂ hr hs⟩) hstep

theorem Initial.alwaysGood {as : List IssueAction} (hw : Initial w) :
    (machine deps).Always ((spec deps).Good (machine deps)) as w :=
  (hw.always (P := fun _ => True) trivial Machine.eachStep_true fun _ _ _ _ _ _ _ _ => trivial).mono
    fun _ h => h.1

/-- Two drafts in the store under one id differ at most in status. -/
theorem Store.Has.content {d d' : IssueDraft} (h : σ.Has d) (h' : σ.Has d') (hid : d.id = d'.id) :
    d = { d' with status := d.status } := by
  obtain ⟨s, hs⟩ := h
  obtain ⟨s', hs'⟩ := h'
  rw [hid, hs'] at hs
  have hcontent := Option.some.inj hs
  cases d
  cases d'
  simp_all

end ProjectAgent.Issue
