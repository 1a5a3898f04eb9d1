/-
Each step of the workers' machine is one of the four kinds, and an attempt
whose handler returns has settled its job before it completes it.
-/
import ProjectAgent.Runs.Attempts

namespace ProjectAgent.Runs

open Interleave
open Jobs (BackgroundJob QueuedJob Rewrites)

variable {settings : Jobs.Settings} {pid : Nat} {c : Choice} {σ σ' : WorkStore} {α : Type}
  {t : Transaction α}

structure WorkKept (σ : WorkStore) : Prop extends Kept σ.toRunStore where
  delivered : ∀ d ∈ σ.delivered, Owns σ.jobs d.job
  marked : ∀ pid runId, σ.marked pid = some runId → ∃ row, σ.runs runId = some row ∧
    row.status.terminal

/-- A step of the machine: one of the four kinds, which may hand out jobs of
the table and mark runs that have ended. -/
structure WorkStep (settings : Jobs.Settings) (ends : BackgroundJob → Prop) (fails : Bool)
    (σ σ' : WorkStore) :
    Prop where
  effect : Effect settings ends fails σ.toRunStore σ'.toRunStore
  delivered : ∀ d ∈ σ'.delivered, d ∈ σ.delivered ∨ Owns σ'.jobs d.job
  marked : ∀ pid runId, σ'.marked pid = some runId →
    σ.marked pid = some runId ∨ ∃ row, σ'.runs runId = some row ∧ row.status.terminal

theorem WorkKept.step {ends : BackgroundJob → Prop} {fails : Bool} (h : WorkKept σ)
    (hs : WorkStep settings ends fails σ σ') : WorkKept σ' := by
  refine { hs.effect.kept h.toKept with
    delivered := fun d hd => ?_, marked := fun q runId hq => ?_ }
  · rcases hs.delivered d hd with hd | ho
    · exact hs.effect.goes.owns _ (h.delivered d hd)
    · exact ho
  · rcases hs.marked q runId hq with hq | ht
    · obtain ⟨row, hrow, ht⟩ := h.marked q runId hq
      exact ⟨row, hs.effect.terminal hrow ht, ht⟩
    · exact ht

/-! ## Statements -/

/-- The transaction committed, or the store is as it was. -/
theorem transact_cases : (transact c σ t).2 = σ ∨
    ∃ a τ, t σ.toRunStore = .ok (a, τ) ∧ (transact c σ t).2 = { σ with toRunStore := τ } := by
  unfold transact
  split
  · exact .inl rfl
  · next a τ _ ht => exact .inr ⟨a, τ, ht, rfl⟩
  · next a τ _ ht => exact .inr ⟨a, τ, ht, rfl⟩
  · exact .inl rfl

theorem transact_ok {a : α} (h : transact c σ t = (.ok a, σ')) :
    ∃ τ, t σ.toRunStore = .ok (a, τ) ∧ σ' = { σ with toRunStore := τ } := by
  unfold transact at h
  split at h
  · cases h
  · cases h
  · next a' τ _ ht =>
    cases h
    exact ⟨τ, ht, rfl⟩
  · cases h

/-- Answered, it is noted; raised, it is as without the note. -/
theorem noting_cases {note : WorkStore → WorkStore} {r : Except RunError α}
    (h : noting note (transact c σ t) = (r, σ')) :
    (∃ a τ, r = .ok a ∧ t σ.toRunStore = .ok (a, τ) ∧ σ' = note { σ with toRunStore := τ }) ∨
      ∃ e, r = .error e ∧ transact c σ t = (.error e, σ') := by
  cases htransact : transact c σ t with
  | mk r₁ σ₁ =>
    rw [htransact] at h
    cases r₁ with
    | error e =>
      cases h
      exact .inr ⟨e, rfl, rfl⟩
    | ok a =>
      cases h
      obtain ⟨τ, hok, rfl⟩ := transact_ok htransact
      exact .inl ⟨a, τ, rfl, hok, rfl⟩

theorem noting_ok {note : WorkStore → WorkStore} {a : α}
    (h : noting note (transact c σ t) = (.ok a, σ')) :
    ∃ τ, t σ.toRunStore = .ok (a, τ) ∧ σ' = note { σ with toRunStore := τ } := by
  rcases noting_cases h with ⟨a', τ, ha, hok, rfl⟩ | ⟨e, he, -⟩
  · cases ha
    exact ⟨τ, hok, rfl⟩
  · cases he

theorem queueCall_ok {call : Jobs.JobTable → Except Jobs.QueueError Jobs.JobTable} {u : Unit}
    {τ τ' : RunStore} (h : queueCall call τ = .ok (u, τ')) :
    ∃ jobs', call τ.jobs = .ok jobs' ∧ τ' = { τ with jobs := jobs' } := by
  simp only [queueCall, bind_eq_ok, get_eq_ok] at h
  obtain ⟨_, τ₁, ⟨rfl, rfl⟩, h⟩ := h
  cases hcall : call τ₁.jobs with
  | error e =>
    rw [hcall] at h
    exact absurd h throw_eq_ok
  | ok jobs' =>
    rw [hcall] at h
    exact ⟨jobs', rfl, set_eq_ok.mp h⟩

theorem addArtifacts_moves {runId : UUID} {payloads : List Payload} {u : Unit} {τ τ' : RunStore}
    (h : addArtifacts runId payloads τ = .ok (u, τ')) : Moves false τ τ' := by
  induction payloads generalizing τ with
  | nil =>
    obtain ⟨-, rfl⟩ := pure_eq_ok.mp h
    exact .refl _
  | cons payload payloads ih =>
    simp only [addArtifacts, bind_eq_ok, appendEvent_ok] at h
    obtain ⟨_, τ₁, ⟨hrun, rfl, rfl⟩, h⟩ := h
    obtain ⟨row, hrow⟩ := Option.isSome_iff_exists.mp hrun
    exact (Moves.event hrow (.artifact payload)).trans (ih h)

theorem graphCall_moves {runId : UUID} {outcome : RunGraphOutcome} {τ τ' : RunStore}
    (h : graphCall runId c τ = .ok (outcome, τ')) : Moves false τ τ' := by
  unfold graphCall at h
  cases hgraph : c.graph with
  | error e =>
    rw [hgraph] at h
    exact absurd h throw_eq_ok
  | ok outcome' =>
    rw [hgraph] at h
    simp only [bind_eq_ok, pure_eq_ok] at h
    obtain ⟨_, τ₁, hadd, -, rfl⟩ := h
    exact addArtifacts_moves hadd

/-- The jobs a statement may end. -/
def Stmt.ends : Stmt → BackgroundJob → Prop
  | .complete jobId _ => fun row => row.id = jobId
  | .fail jobId _ _ => fun row => row.id = jobId ∧ row.spent
  | _ => fun _ => False

/-- Whether a statement may be a final failure. -/
def Stmt.fails : Stmt → Bool
  | .markFinalFailure _ _ => true
  | _ => false

/-- What is noted is no part of the runs. -/
theorem noting_toRunStore (note : WorkStore → WorkStore)
    (hnote : ∀ σ, (note σ).toRunStore = σ.toRunStore) (x : Except RunError α × WorkStore) :
    (noting note x).2.toRunStore = x.2.toRunStore := by
  obtain ⟨_ | _, σ⟩ := x
  · rfl
  · exact hnote σ

/-- A transaction all of whose commits move runs on. -/
theorem transact_moves {fails : Bool}
    (ht : ∀ a τ, t σ.toRunStore = .ok (a, τ) → Moves fails σ.toRunStore τ) :
    Moves fails σ.toRunStore (transact c σ t).2.toRunStore := by
  rcases transact_cases (c := c) (σ := σ) (t := t) with hsame | ⟨a, τ, hok, hτ⟩
  · rw [hsame]
    exact .refl _
  · rw [hτ]
    exact ht a τ hok

theorem noting_moves {fails : Bool} (note : WorkStore → WorkStore)
    (hnote : ∀ σ, (note σ).toRunStore = σ.toRunStore)
    (ht : ∀ a τ, t σ.toRunStore = .ok (a, τ) → Moves fails σ.toRunStore τ) :
    Moves fails σ.toRunStore (noting note (transact c σ t)).2.toRunStore := by
  rw [noting_toRunStore note hnote]
  exact transact_moves ht

theorem queueCall_rewrites {ends : BackgroundJob → Prop}
    {call : Jobs.JobTable → Except Jobs.QueueError Jobs.JobTable}
    (hcall : ∀ jobs', call σ.jobs = .ok jobs' → Rewrites σ.jobs jobs' ends) :
    Moves false σ.toRunStore (transact c σ (queueCall call)).2.toRunStore ∨
      ∃ jobs', (transact c σ (queueCall call)).2.toRunStore = { σ.toRunStore with jobs := jobs' } ∧
        Rewrites σ.jobs jobs' ends := by
  rcases transact_cases (c := c) (σ := σ) (t := queueCall call) with hsame | ⟨_, τ, hok, hτ⟩
  · rw [hsame]
    exact .inl (.refl _)
  · obtain ⟨jobs', hjobs, rfl⟩ := queueCall_ok hok
    rw [hτ]
    exact .inr ⟨jobs', rfl, hcall jobs' hjobs⟩

/-- **A statement of an attempt** moves runs on, or rewrites jobs. -/
theorem exec_moves (hk : WorkKept σ) {s : Stmt} {r : Except RunError s.Res}
    (h : exec settings pid s c σ = some (r, σ')) : Moves s.fails σ.toRunStore σ'.toRunStore ∨
      ∃ jobs', σ'.toRunStore = { σ.toRunStore with
        jobs := jobs' } ∧ Rewrites σ.jobs jobs' s.ends := by
  cases s with
  | prepareExecute runId =>
    obtain rfl : σ' = _ := (congrArg Prod.snd (Option.some.inj h)).symm
    exact .inl (noting_moves (notePrepared pid runId) (fun _ => rfl) fun _ _ hok =>
      (prepareExecute_ok (hk.order runId) hok).1)
  | prepareResume runId =>
    obtain rfl : σ' = _ := (congrArg Prod.snd (Option.some.inj h)).symm
    exact .inl (noting_moves (notePrepared pid runId) (fun _ => rfl) fun _ _ hok =>
      (prepareResume_ok (hk.order runId) hok).1)
  | graphExecute run | graphResume run =>
    obtain rfl : σ' = _ := (congrArg Prod.snd (Option.some.inj h)).symm
    exact .inl (transact_moves fun _ _ hok => graphCall_moves hok)
  | persistOutcome runId outcome =>
    obtain rfl : σ' = _ := (congrArg Prod.snd (Option.some.inj h)).symm
    exact .inl (transact_moves fun _ _ hok => (persistOutcome_ok hok).1)
  | markFinalFailure runId errorCode =>
    obtain rfl : σ' = _ := (congrArg Prod.snd (Option.some.inj h)).symm
    exact .inl (noting_moves (noteMarked pid runId) (fun _ => rfl) fun _ _ hok =>
      (markFinalFailure_ok hok).1)
  | otherHandler job =>
    obtain rfl : σ' = _ := (congrArg Prod.snd (Option.some.inj h)).symm
    exact .inl (.refl _)
  | complete jobId workerId =>
    obtain rfl : σ' = _ := (congrArg Prod.snd (Option.some.inj h)).symm
    exact queueCall_rewrites fun _ hjobs => Jobs.complete_rewrites hjobs
  | fail jobId workerId errorCode =>
    obtain rfl : σ' = _ := (congrArg Prod.snd (Option.some.inj h)).symm
    exact queueCall_rewrites fun _ hjobs => Jobs.fail_rewrites hjobs

@[simp] theorem transact_delivered : (transact c σ t).2.delivered = σ.delivered := by
  unfold transact
  split <;> rfl

@[simp] theorem transact_marked : (transact c σ t).2.marked = σ.marked := by
  unfold transact
  split <;> rfl

theorem noting_delivered (note : WorkStore → WorkStore)
    (hnote : ∀ σ, (note σ).delivered = σ.delivered) (x : Except RunError α × WorkStore) :
    (noting note x).2.delivered = x.2.delivered := by
  obtain ⟨_ | _, σ⟩ := x
  · rfl
  · exact hnote σ

@[simp] theorem noting_prepared_marked (runId : UUID) (x : Except RunError α × WorkStore) :
    (noting (notePrepared pid runId) x).2.marked = x.2.marked := by
  obtain ⟨_ | _, σ⟩ := x <;> rfl

theorem exec_delivered {s : Stmt} {r : Except RunError s.Res}
    (h : exec settings pid s c σ = some (r, σ')) :
    σ'.delivered = σ.delivered := by
  cases s with
  | prepareExecute runId | prepareResume runId =>
    obtain rfl : σ' = _ := (congrArg Prod.snd (Option.some.inj h)).symm
    exact (noting_delivered (notePrepared pid runId) (fun _ => rfl) _).trans transact_delivered
  | markFinalFailure runId =>
    obtain rfl : σ' = _ := (congrArg Prod.snd (Option.some.inj h)).symm
    exact (noting_delivered (noteMarked pid runId) (fun _ => rfl) _).trans transact_delivered
  | graphExecute | graphResume | persistOutcome | complete | fail =>
    obtain rfl : σ' = _ := (congrArg Prod.snd (Option.some.inj h)).symm
    exact transact_delivered
  | otherHandler =>
    obtain rfl : σ' = _ := (congrArg Prod.snd (Option.some.inj h)).symm
    rfl

/-- A run that is marked has ended. -/
theorem exec_marked {s : Stmt} {r : Except RunError s.Res}
    (h : exec settings pid s c σ = some (r, σ')) {q : Nat} {runId : UUID}
    (hq : σ'.marked q = some runId) :
    σ.marked q = some runId ∨ ∃ row, σ'.runs runId = some row ∧ row.status.terminal := by
  cases s with
  | markFinalFailure run errorCode =>
    rcases noting_cases (Option.some.inj h) with ⟨_, τ, -, hok, rfl⟩ | ⟨e, -, htransact⟩
    · by_cases hpid : q = pid
      · subst hpid
        simp only [noteMarked, Function.update_self, Option.some.injEq] at hq
        exact .inr (hq ▸ (markFinalFailure_ok hok).2.1)
      · simp only [noteMarked, Function.update_of_ne hpid] at hq
        exact .inl hq
    · have hsame := transact_marked (c := c) (σ := σ) (t := markFinalFailure run errorCode c.now)
      rw [htransact] at hsame
      exact .inl (hsame ▸ hq)
  | prepareExecute | prepareResume | graphExecute | graphResume | persistOutcome | complete | fail
      | otherHandler =>
    obtain rfl := (congrArg Prod.snd (Option.some.inj h)).symm
    exact .inl (by simpa using hq)

theorem exec_step (hk : WorkKept σ) {s : Stmt} {r : Except RunError s.Res}
    (h : exec settings pid s c σ = some (r, σ')) : WorkStep settings s.ends s.fails σ σ' where
  effect := (exec_moves hk h).elim .moves fun ⟨jobs', heq, hr⟩ => .rewrites jobs' heq hr
  delivered _ hd := .inl (exec_delivered h ▸ hd)
  marked _ _ hq := exec_marked h hq

/-! ## What happens next to the attempts -/

/-- The jobs a step of the queue may end. -/
def Outside.ends (σ : WorkStore) : Outside → BackgroundJob → Prop
  | .reap limit now locked =>
    fun row => row ∈ Jobs.expiredStatement σ.jobs limit now locked ∧ row.spent
  | _ => fun _ => False

theorem outsideRun_cases (h : outside.run t σ = some σ') :
    σ' = σ ∨ ∃ a τ, t σ.toRunStore = .ok (a, τ) ∧ σ' = { σ with toRunStore := τ } := by
  unfold outside.run at h
  split at h
  · next a τ hok =>
    cases h
    exact .inr ⟨a, τ, hok, rfl⟩
  · cases h
    exact .inl rfl

/-- A request whose commits are of one kind is a step of that kind. -/
theorem WorkStep.outside {ends : BackgroundJob → Prop} (h : outside.run t σ = some σ')
    (ht : ∀ a τ, t σ.toRunStore = .ok (a, τ) → Effect settings ends false σ.toRunStore τ) :
    WorkStep settings ends false σ σ' := by
  rcases outsideRun_cases h with rfl | ⟨a, τ, hok, rfl⟩
  · exact ⟨.moves (.refl _), fun _ hd => .inl hd, fun _ _ hq => .inl hq⟩
  · exact ⟨ht a τ hok, fun _ hd => .inl hd, fun _ _ hq => .inl hq⟩

theorem outside_step (hk : WorkKept σ) {e : Outside} (h : outside settings e σ = some σ') :
    WorkStep settings (e.ends σ) false σ σ' := by
  cases e with
  | createRun request command =>
    refine .outside h fun run τ hok => ?_
    obtain ⟨hnone, ho⟩ := createRun_ok hok
    exact .creates _ _ ho hnone
  | resumeRun request runId command =>
    refine .outside h fun run τ hok => ?_
    obtain ⟨⟨row, ha⟩, ho⟩ := resumeRun_ok (hk.ids runId) hok
    exact .resumes _ _ _ row ha ho
  | enqueue request id now =>
    simp only [Runs.outside] at h
    split at h
    · cases h
    next hother =>
    refine .outside h fun _ τ hok => ?_
    obtain ⟨hnew, rfl⟩ := enqueue_ok hok
    refine .job _ rfl hnew fun r => ?_
    exact Bool.eq_false_iff.mpr fun hjob => hother (isJobOf_iff.mp hjob).1
  | claim workerId limit now selectedAt locked =>
    cases h
    refine ⟨.rewrites _ rfl Jobs.claim_rewrites, fun d hd => ?_, fun _ _ hq => .inl hq⟩
    rcases List.mem_append.mp hd with hd | hd
    · obtain ⟨job, hjob, rfl⟩ := List.mem_map.mp hd
      obtain ⟨row, hrow, rfl⟩ := Jobs.mem_claim hjob
      refine .inr ((Goes.rewrites (σ := σ.toRunStore) Jobs.claim_rewrites).owns _ ⟨row,
        ?_, rfl, rfl⟩)
      exact hk.unique.find_of_mem hrow
    · exact .inl hd
  | heartbeat jobId workerId now =>
    refine .outside h fun _ τ hok => ?_
    obtain ⟨jobs', hjobs, rfl⟩ := queueCall_ok hok
    exact .rewrites jobs' rfl (Jobs.heartbeat_rewrites hjobs)
  | reap limit now locked =>
    cases h
    exact ⟨.rewrites _ rfl (Jobs.reap_rewrites hk.unique), fun _ hd => .inl hd,
      fun _ _ hq => .inl hq⟩

/-! ## The attempts -/

/-- A job is completed only once it is settled. -/
def spec : Spec Stmt WorkStore where
  inv := WorkKept
  rely _ σ σ' := Goes σ.toRunStore σ'.toRunStore
  permit _ s σ := match s with
    | .complete jobId _ => Settled σ.toRunStore jobId
    | _ => True
  refl _ _ := .refl _
  trans _ _ _ _ := .trans

section
variable {σ₀ : WorkStore} {job : QueuedJob} {runId : UUID}

/-- A statement other than `complete`. -/
theorem stmt_keeps {s : Stmt} {Q : s.Res → WorkStore → Prop}
    (hs : ∀ jobId workerId, s ≠ .complete jobId workerId)
    (h : ∀ σ c a σ', Goes σ₀.toRunStore σ.toRunStore → WorkKept σ → WorkKept σ' →
      exec settings pid s c σ = some (.ok a, σ') → Q a σ') :
    Keeps (machine settings) spec pid σ₀ (.exec s) Q := by
  refine Keeps.stmt (fun _ _ _ _ hi hx => (exec_step hi hx).effect.goes) fun σ hr hi =>
    ⟨?_, fun c a σ' hx hi' =>
    h σ c a σ' hr hi hi' hx⟩
  cases s with
  | complete jobId workerId => exact absurd rfl (hs jobId workerId)
  | _ => trivial

theorem requireUUID_keeps (text : String) :
    Keeps (machine settings) spec pid σ₀ (requireUUID text) fun id _ =>
      UUID.parse text = some id := by
  unfold requireUUID
  split
  · exact Keeps.raise _
  · next id h => exact Keeps.ret h

theorem handleFailure_keeps (e : RunError) :
    Keeps (machine settings) spec pid σ₀ (handleFailure job runId e) fun _ _ => True := by
  unfold handleFailure
  split
  · exact Keeps.bind (stmt_keeps (fun _ _ => nofun) (Q := fun _ _ => True)
      fun _ _ _ _ _ _ _ _ => trivial)
      fun _ _ _ _ => Keeps.ret trivial
  · exact Keeps.ret trivial

theorem guardGraph_keeps {graph : Work RunGraphOutcome}
    (hg : Keeps (machine settings) spec pid σ₀ graph fun _ _ => True) :
    Keeps (machine settings) spec pid σ₀ (guardGraph job runId graph) fun _ _ => True :=
  Keeps.handle hg fun e _ _ => Keeps.bind (handleFailure_keeps e) fun _ _ _ _ => Keeps.raise _

/-- Once an outcome is persisted the run is not underway, and its job settled. -/
theorem persist_keeps (ho : Owns σ₀.jobs job) (hparse : UUID.parse job.aggregateId = some runId)
    (outcome : RunGraphOutcome) : Keeps (machine settings) spec pid σ₀ (persist runId outcome)
      fun _ σ => Settled σ.toRunStore job.jobId := by
  refine Keeps.bind (stmt_keeps (fun _ _ => nofun) (Q := fun _ σ => Settled σ.toRunStore job.jobId)
    fun σ c run σ' hr hi hi' hx => ?_) fun _ _ _ h => Keeps.ret h
  obtain ⟨τ, hok, rfl⟩ := transact_ok (Option.some.inj hx)
  obtain ⟨hm, hclosed, -, -⟩ := persistOutcome_ok hok
  exact .of_run hi'.toKept ((Goes.moves hm).owns _ (hr.owns _ ho)) hparse fun _ _ _ => hclosed

theorem prepareExecute_keeps (ho : Owns σ₀.jobs job) (htype : job.jobType = EXECUTE_AGENT_RUN)
    (hparse : UUID.parse job.aggregateId = some runId) :
    Keeps (machine settings) spec pid σ₀ (Prog.exec (Stmt.prepareExecute runId))
      fun (preparation : RunExecutionPreparation) σ =>
        preparation.invoke = false → Settled σ.toRunStore job.jobId := by
  refine stmt_keeps (fun _ _ => nofun) fun σ c preparation σ' hr hi hi' hx hinvoke => ?_
  obtain ⟨τ, hok, rfl⟩ := noting_ok (Option.some.inj hx)
  obtain ⟨rfl, hnot⟩ := (prepareExecute_ok (hi.order runId) hok).2 hinvoke
  refine .of_run hi'.toKept (hr.owns _ ho) hparse fun row hrow hrowType => ?_
  rcases hnot with hclosed | hresume | hnone
  · exact hclosed
  · -- a resume is queued, and its job is newer than an execute
    have hresumeType := (hi.newest runId row hrow).mpr hresume
    rw [hrowType, htype] at hresumeType
    exact absurd hresumeType (by decide)
  · refine Bool.eq_false_iff.mpr fun hu => ?_
    obtain ⟨run, hrun, -⟩ := (Option.any_eq_true _ _).mp hu
    obtain ⟨e, he, het⟩ := hi.queued runId run hrun
    exact latestEvent_eq_none.mp hnone e he het

theorem prepareResume_keeps (ho : Owns σ₀.jobs job) (htype : job.jobType = RESUME_AGENT_RUN)
    (hparse : UUID.parse job.aggregateId = some runId) :
    Keeps (machine settings) spec pid σ₀ (Prog.exec (Stmt.prepareResume runId))
      fun (preparation : RunExecutionPreparation) σ =>
        preparation.invoke = false → Settled σ.toRunStore job.jobId := by
  refine stmt_keeps (fun _ _ => nofun) fun σ c preparation σ' hr hi hi' hx hinvoke => ?_
  obtain ⟨τ, hok, rfl⟩ := noting_ok (Option.some.inj hx)
  obtain ⟨rfl, hnot⟩ := (prepareResume_ok (hi.order runId) hok).2.1 hinvoke
  refine .of_run hi'.toKept (hr.owns _ ho) hparse fun row hrow hrowType => ?_
  rcases hnot with hclosed | hnone
  · exact hclosed
  · exact absurd ((hi.newest runId row hrow).mp (hrowType.trans htype)) hnone

theorem executeAgentRun_keeps (ho : Owns σ₀.jobs job) (htype : job.jobType = EXECUTE_AGENT_RUN) :
    Keeps (machine settings) spec pid σ₀ (executeAgentRun job) fun _ σ =>
      Settled σ.toRunStore job.jobId := by
  refine Keeps.bind (requireUUID_keeps _) fun runId σ₁ hr₁ hparse => ?_
  have ho₁ := hr₁.owns _ ho
  refine Keeps.bind (prepareExecute_keeps ho₁ htype hparse) fun preparation σ₂ hr₂ hprep => ?_
  split
  · refine Keeps.bind (guardGraph_keeps (stmt_keeps (fun _ _ => nofun)
      fun _ _ _ _ _ _ _ _ => trivial))
      fun outcome σ₃ hr₃ _ => persist_keeps ?_ hparse outcome
    exact hr₃.owns _ (hr₂.owns _ ho₁)
  · next hinvoke => exact Keeps.ret (hprep (Bool.eq_false_iff.mpr hinvoke))

theorem resumeAgentRun_keeps (ho : Owns σ₀.jobs job) (htype : job.jobType = RESUME_AGENT_RUN) :
    Keeps (machine settings) spec pid σ₀ (resumeAgentRun job) fun _ σ =>
      Settled σ.toRunStore job.jobId := by
  refine Keeps.bind (requireUUID_keeps _) fun runId σ₁ hr₁ hparse => ?_
  have ho₁ := hr₁.owns _ ho
  refine Keeps.bind (prepareResume_keeps ho₁ htype hparse) fun preparation σ₂ hr₂ hprep => ?_
  split
  · split
    · exact Keeps.raise _
    · refine Keeps.bind (guardGraph_keeps (stmt_keeps (fun _ _ => nofun)
        fun _ _ _ _ _ _ _ _ => trivial))
        fun outcome σ₃ hr₃ _ => persist_keeps ?_ hparse outcome
      exact hr₃.owns _ (hr₂.owns _ ho₁)
  · next hinvoke => exact Keeps.ret (hprep (Bool.eq_false_iff.mpr hinvoke))

/-- **A handler that returns has settled its job.** -/
theorem handler_keeps (ho : Owns σ₀.jobs job) :
    Keeps (machine settings) spec pid σ₀ (handler job) fun _ σ =>
      Settled σ.toRunStore job.jobId := by
  unfold handler
  by_cases hexecute : job.jobType = EXECUTE_AGENT_RUN
  · rw [if_pos hexecute]
    exact executeAgentRun_keeps ho hexecute
  rw [if_neg hexecute]
  by_cases hresume : job.jobType = RESUME_AGENT_RUN
  · rw [if_pos hresume]
    exact resumeAgentRun_keeps ho hresume
  · rw [if_neg hresume]
    -- not a run's job, so no run's newest
    refine stmt_keeps (fun _ _ => nofun) fun σ c a σ' hr hi hi' hx => ?_
    obtain rfl : σ = σ' := congrArg Prod.snd (Option.some.inj hx)
    obtain ⟨row, hrow, htype, -⟩ := hr.owns _ ho
    refine ⟨Option.isSome_of_eq_some hrow, fun runId newest hnewest hid => ?_⟩
    obtain ⟨hmem, hjob⟩ := newestJob_mem hnewest
    have hfound := hi.unique.find_of_mem hmem
    rw [hid, hrow] at hfound
    cases hfound
    rcases (isJobOf_iff.mp hjob).1 with h | h
    · exact absurd (htype.symm.trans h) hexecute
    · exact absurd (htype.symm.trans h) hresume

theorem invokeHandler_safe {delivery : Delivery} (ho : Owns σ₀.jobs delivery.job) :
    Safe (machine settings) spec pid (fun _ _ => True) (invokeHandler delivery) σ₀ := by
  have hbody : Keeps (machine settings) spec pid σ₀
      ((some <$> handler delivery.job).tryCatch fun e =>
        Prog.bind (invokeHandler.fail delivery e) fun _ => pure none)
      fun returned σ => returned = some () → Settled σ.toRunStore delivery.job.jobId := by
    refine Keeps.handle (Keeps.bind (handler_keeps ho) fun _ _ _ h => Keeps.ret fun _ => h)
      fun e σ₁ _ => ?_
    refine Keeps.bind (stmt_keeps (fun _ _ => nofun) fun _ _ _ _ _ _ _ _ => trivial)
      (Q := fun _ _ => True)
      fun _ _ _ _ => Keeps.ret fun hnone => by cases hnone
  refine Safe.bind (hbody.mono fun r σ₁ ⟨_, hr⟩ => ?_)
  cases r with
  | error e => trivial
  | ok returned =>
    cases returned with
    | none => trivial
    | some u =>
      exact fun σ₂ hr₂ hi => ⟨hr₂.settled _ (hr rfl), fun c r σ₃ _ _ => by cases r <;> trivial⟩

end

theorem start_step {delivery : Delivery} {p : Work Unit}
    (h : (machine settings).start delivery pid σ = some (p, σ')) :
    delivery ∈ σ.delivered ∧ p = invokeHandler delivery ∧
      WorkStep settings (fun _ => False) false σ σ' := by
  simp only [machine] at h
  split at h
  · next hmem =>
    obtain ⟨rfl, rfl⟩ := Prod.mk.inj (Option.some.inj h)
    refine ⟨hmem, rfl, .moves (.refl _), fun d hd => .inl (List.mem_of_mem_erase hd),
      fun q runId hq => .inl ?_⟩
    by_cases hpid : q = pid
    · subst hpid
      simp only [Function.update_self, reduceCtorEq] at hq
    · simpa only [Function.update_of_ne hpid] using hq
  · cases h

theorem fits : spec.Fits (machine settings) (fun _ => True) fun _ _ _ => True where
  start delivery pid σ₀ p σ₁ _ hi h := by
    obtain ⟨hmem, rfl, hstep⟩ := start_step h
    exact ⟨hi.step hstep, fun q _ => hstep.effect.goes,
      invokeHandler_safe (hstep.effect.goes.owns _ (hi.delivered delivery hmem))⟩
  exec pid s c σ₀ r σ₁ hi _ _ h :=
    have hstep := exec_step hi h
    ⟨hi.step hstep, fun _ _ => hstep.effect.goes⟩
  finish _ _ σ₀ hi := ⟨hi, fun _ _ => .refl _⟩
  kill _ σ₀ hi := ⟨hi, fun _ _ => .refl _⟩
  env e σ₀ σ₁ hi h :=
    have hstep := outside_step hi h
    ⟨hi.step hstep, fun _ => hstep.effect.goes⟩

/-! ## Every step of the machine -/

def endsOf (a : RunAction) (w : RunWorld) : BackgroundJob → Prop :=
  match a with
  | .exec pid _ =>
    match w.procs pid with
    | some (.stmt s _) => s.ends
    | _ => fun _ => False
  | .env e => e.ends w.shared
  | _ => fun _ => False

def failsOf (a : RunAction) (w : RunWorld) : Bool :=
  match a with
  | .exec pid _ =>
    match w.procs pid with
    | some (.stmt s _) => s.fails
    | _ => false
  | _ => false

theorem work_step {a : RunAction} {w w' : RunWorld} (hk : WorkKept w.shared)
    (h : (machine settings).step a w = some w') :
    WorkStep settings (endsOf a w) (failsOf a w) w.shared w'.shared := by
  rcases Machine.step_cases h with ⟨delivery, pid, p, rfl, -, hs, -⟩ |
    ⟨pid, c, s, k, r, rfl, hp, hx, -⟩ |
    ⟨pid, r, rfl, -, hs, -⟩ | ⟨pid, p, rfl, -, hs, -⟩ | ⟨e, rfl, hs, -⟩
  · exact (start_step hs).2.2
  · simp only [endsOf, failsOf, hp]
    exact exec_step hk hx
  · rw [hs]
    exact ⟨.moves (.refl _), fun _ hd => .inl hd, fun _ _ hq => .inl hq⟩
  · rw [hs]
    exact ⟨.moves (.refl _), fun _ hd => .inl hd, fun _ _ hq => .inl hq⟩
  · exact outside_step hk hs

theorem Initial.workKept {w : RunWorld} (h : Initial w) : WorkKept w.shared where
  unique := by
    rw [h.jobs]
    exact List.nodup_nil
  ids runId row hrow := by
    rw [h.runs] at hrow
    cases hrow
  queued runId row hrow := by
    rw [h.runs] at hrow
    cases hrow
  free runId _ := h.events runId
  order runId := by
    rw [h.events]
    exact ⟨.nil, nofun, nofun, nofun⟩
  newest runId row hrow := by
    rw [h.jobs] at hrow
    cases hrow
  delivered d hd := by
    rw [h.delivered] at hd
    cases hd
  marked pid runId hpid := by
    rw [h.marked] at hpid
    cases hpid

theorem Initial.good {w : RunWorld} (h : Initial w) : spec.Good (machine settings) w :=
  Spec.Good.of_idle h.workKept h.idle

/-- What every kind of step keeps holds all along any run. -/
theorem always_work {w : RunWorld} {as : List RunAction} {P : WorkStore → Prop}
    (hk : WorkKept w.shared) (h₀ : P w.shared)
    (hstep : ∀ {ends fails σ σ'}, WorkKept σ → P σ → WorkStep settings ends fails σ σ' → P σ') :
    (machine settings).Always (fun w' => WorkKept w'.shared ∧ P w'.shared) as w :=
  Machine.always_of_step (P := fun w' => WorkKept w'.shared ∧ P w'.shared)
    ⟨hk, h₀⟩ Machine.eachStep_true
    fun _ _ _ hw _ hs =>
      have hwork := work_step hw.1 hs
      ⟨hw.1.step hwork, hstep hw.1 hw.2 hwork⟩

end ProjectAgent.Runs
