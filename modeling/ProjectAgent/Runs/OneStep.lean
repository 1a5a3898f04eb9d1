/-
The worker's transactions, statement by statement, each of which begins by
locking its run: whatever the other sessions do meanwhile, what it commits is
what the transaction of the store makes, in one step, of the rows that are
committed then.
-/
import ProjectAgent.Runs.Transactions

namespace ProjectAgent.Runs.Sequence

open Interleave

variable {pid : Nat} {db : Store} {runId : UUID} {α : Type}

/-! ## The worker's transactions -/

def requireRun (runId : UUID) : Session RunRecord := do
  match ← getRun runId true with
  | none => throw (.lookupError runId)
  | some run => pure run

def prepareExecute (runId : UUID) (now : Nat) : Session RunExecutionPreparation := do
  let run ← requireRun runId
  if run.status = .WAITING_CONFIRMATION ∨ run.status.terminal then pure ⟨run, false, none⟩
  else
    match ← latestEventOfType runId .RUN_QUEUED with
    | none => pure ⟨run, false, none⟩
    | some queued =>
      let resumeQueued ← latestEventOfType runId .RUN_RESUME_QUEUED
      let resumed ← latestEventOfType runId .RUN_RESUMED
      if later resumeQueued queued || later resumed queued then pure ⟨run, false, none⟩
      else
        let started ← latestEventOfType runId .RUN_STARTED
        if run.status = .QUEUED then
          let run ← setLifecycle runId .RUNNING (run.startedAt.orElse fun _ => some now) none
          if started.all (·.sequenceNo < queued.sequenceNo) then
            let _ ← appendEvent runId .RUN_STARTED []
            pure ⟨run, true, none⟩
          else pure ⟨run, true, none⟩
        else if run.status ≠ .RUNNING then pure ⟨run, false, none⟩
        else pure ⟨run, true, none⟩

def beginResume (runId : UUID) (run : RunRecord) (resumeQueued : AgentEvent) :
    Session RunExecutionPreparation := do
  let resumed ← latestEventOfType runId .RUN_RESUMED
  let run ← if run.status = .QUEUED then setLifecycle runId .RUNNING run.startedAt none
    else pure run
  if resumed.all (·.sequenceNo < resumeQueued.sequenceNo) then
    let _ ← appendEvent runId .RUN_RESUMED []
    pure ⟨run, true, some resumeQueued.payload⟩
  else pure ⟨run, true, some resumeQueued.payload⟩

def prepareResume (runId : UUID) : Session RunExecutionPreparation := do
  let run ← requireRun runId
  if run.status = .WAITING_CONFIRMATION ∨ run.status.terminal then pure ⟨run, false, none⟩
  else if run.status ≠ .QUEUED ∧ run.status ≠ .RUNNING then pure ⟨run, false, none⟩
  else
    match ← latestEventOfType runId .RUN_RESUME_QUEUED with
    | none => pure ⟨run, false, none⟩
    | some resumeQueued =>
      let started ← latestEventOfType runId .RUN_STARTED
      if started.any (resumeQueued.sequenceNo ≤ ·.sequenceNo) then pure ⟨run, false, none⟩
      else beginResume runId run resumeQueued

def persistOutcome (runId : UUID) (outcome : RunGraphOutcome) (now : Nat) : Session RunRecord := do
  let run ← requireRun runId
  if run.status.terminal ∨ run.status = .WAITING_CONFIRMATION then pure run
  else if outcome.kind = .WAITING_CONFIRMATION then
    let payload ← ofExcept (waitingPayload outcome)
    let run ← setLifecycle runId .WAITING_CONFIRMATION run.startedAt none
    let _ ← appendEvent runId .WAITING_CONFIRMATION payload
    pure run
  else
    let (status, eventType) ← ofExcept (terminalProjection outcome.kind)
    let run ← setLifecycle runId status run.startedAt (some now)
    let _ ← appendEvent runId eventType (resultPayload outcome)
    pure run

def markFinalFailure (runId : UUID) (errorCode : String) (now : Nat) : Session RunRecord := do
  let run ← requireRun runId
  if run.status.terminal then pure run
  else
    let run ← setLifecycle runId .FAILED run.startedAt (some now)
    let _ ← appendEvent runId .RUN_FAILED [("error_code", .str errorCode)]
    pure run

/-- What the transaction makes of the run's committed rows the session has made of them, and commits
next; or the transaction raises what the session does, unless the connection or the database has. -/
def Begun (pid : Nat) (runId : UUID) (f : Transaction α) : Except RunError α → Store → Prop
  | .ok a, db => ∀ σ, rowsOf σ runId = db.committed.rows runId →
      ∃ σ', f σ = .ok (a, σ') ∧ rowsOf σ' runId = (db.commit Write.apply pid).committed.rows runId
  | .error e, db =>
    (∀ σ, rowsOf σ runId = db.committed.rows runId → f σ = .error e) ∨ ∃ text, e = .raised text

/-- What follows the lock. -/
def locked (runId : UUID) (q : RunRecord → Session α) : Option AgentRun → Session α
  | none => .raise (.lookupError runId)
  | some row =>
    (Prog.exec (Stmt.selectLatestEvent runId AgentEventType.terminal)).bind fun terminal =>
      q (toRun row terminal)

theorem requireRun_bind (q : RunRecord → Session α) :
    (requireRun runId).bind q = (Prog.exec (Stmt.lockRun runId)).bind (locked runId q) := by
  refine congrArg (Prog.stmt (Stmt.lockRun runId)) (funext fun r => ?_)
  cases r with
  | error e => rfl
  | ok row =>
    cases row with
    | none => rfl
    | some row =>
      refine congrArg (Prog.stmt (Stmt.selectLatestEvent runId AgentEventType.terminal))
        (funext fun r => ?_)
      cases r with
      | error e => rfl
      | ok terminal => rfl

/-- What the lock is granted on: no row, or the row that is committed. -/
def Granted (pid : Nat) (runId : UUID) : Option AgentRun → Store → Prop
  | none, db => db.committed.run runId = none
  | some row, db => ∃ base, Mine pid runId base base db ∧ base.row = some row

theorem lock_granted (hpending : db.pending pid = []) :
    SafeTo pid (Answered (Granted pid runId)) (.exec (Stmt.lockRun runId)) db := by
  refine Safe.stmt fun db₁ hstays hi => ⟨trivial, fun fault r db₂ hr _ => ?_⟩
  have hview : view pid db₁ = db₁.committed := by
    show (db₁.pending pid).foldl _ _ = _
    rw [hstays.pending, hpending]
    rfl
  cases fault with
  | some fault =>
    obtain ⟨rfl, rfl⟩ :=
      Prod.mk.inj (Option.some.inj ((exec_fault (.lockRun runId) fault (by simp)).symm.trans hr))
    exact ⟨_, rfl⟩
  | none =>
    have hr : perform pid db₁ (.lockRun runId) = some (r, db₂) := hr
    simp only [perform, hview] at hr
    split at hr
    · next hnone =>
      cases hr
      exact hnone
    · next row hrow =>
      obtain ⟨db₃, hlock, heq⟩ := Option.map_eq_some_iff.mp hr
      obtain ⟨hcommitted, hwritten, hlocked, -⟩ := Db.lock_eq_some hlock
      have hview₃ : view pid db₃ = db₁.committed := by
        show (db₃.pending pid).foldl _ _ = _
        rw [hwritten, hcommitted]
        exact hview
      obtain ⟨rfl, rfl⟩ := Prod.mk.inj heq
      rw [hview₃, hrow]
      refine ⟨db₁.committed.rows runId, ⟨hlocked, ?_, ?_, ?_⟩, hrow⟩
      · exact Option.isSome_iff_exists.mpr ⟨row, hrow⟩
      · rw [hcommitted]
      · rw [hview₃]

/-- **A transaction that begins by locking its run is one step**, whatever the others do until it
commits. -/
theorem one_step {q : RunRecord → Session α} {g : RunRecord → Transaction α}
    (hq : ∀ run, Does pid runId (q run) (g run)) (hpending : db.pending pid = []) :
    SafeTo pid (Begun pid runId (Runs.requireRun runId >>= g)) ((requireRun runId).bind q) db := by
  rw [requireRun_bind]
  refine (lock_granted hpending).andThen (fun row db₁ hgranted => ?_) fun e db₁ hraised =>
    .inr hraised
  cases row with
  | none =>
    refine .inl fun σ hσ => ?_
    have hnone : σ.runs runId = none := (congrArg Rows.row hσ).trans hgranted
    show (Runs.requireRun runId σ).bind _ = _
    have hraises : Runs.requireRun runId σ = .error (.lookupError runId) := by
      unfold Runs.requireRun
      rw [bind_of_ok (getRun_ok.mpr ⟨rfl, rfl⟩), hnone]
      rfl
    rw [hraises]
    rfl
  | some row =>
    obtain ⟨base, hmine, hrow⟩ := hgranted
    have hdoes : Does pid runId (locked runId q (some row))
        (readTerminal runId >>= fun terminal => g (toRun row terminal)) :=
      does_readTerminal.bind fun terminal => hq (toRun row terminal)
    have hsteps : ∀ σ, rowsOf σ runId = base → (Runs.requireRun runId >>= g) σ =
        (readTerminal runId >>= fun terminal => g (toRun row terminal)) σ := by
      intro σ hσ
      have hσrow : σ.runs runId = some row := (congrArg Rows.row hσ).trans hrow
      rw [bind_of_ok (requireRun_ok.mpr ⟨⟨row, hσrow, rfl⟩, rfl⟩)]
      rfl
    refine (hdoes base base db₁ hmine).mono fun r db₂ hdid => ?_
    cases r with
    | ok a =>
      obtain ⟨next, hnext, hf⟩ := hdid
      intro σ hσ
      rw [hnext.committed] at hσ
      obtain ⟨σ', hf, hσ'⟩ := hf σ hσ
      refine ⟨σ', (hsteps σ hσ).trans hf, ?_⟩
      rw [hσ', ← hnext.view]
      rfl
    | error e =>
      refine hdid.imp_left fun ⟨hcommitted, hf⟩ σ hσ => ?_
      rw [hcommitted] at hσ
      exact (hsteps σ hσ).trans (hf σ hσ)

/-! ## One lemma for each transaction -/

theorem prepareExecute_one_step (now : Nat) (hpending : db.pending pid = []) :
    SafeTo pid (Begun pid runId (Runs.prepareExecute runId now)) (prepareExecute runId now) db := by
  refine one_step (fun run => .ite (fun _ => .pure _) fun _ =>
    (does_latestEventOfType _).bind fun queued => ?_) hpending
  cases queued with
  | none => exact .pure _
  | some queued =>
    refine (does_latestEventOfType _).bind fun resumeQueued =>
      (does_latestEventOfType _).bind fun resumed => ?_
    refine .ite (fun _ => .pure _) fun _ => (does_latestEventOfType _).bind fun started => ?_
    refine .ite (fun _ => (does_setLifecycle _ _ _).bind fun run => ?_) fun _ =>
      .ite (fun _ => .pure _) fun _ => .pure _
    exact .ite (fun _ => (does_appendEvent _ _).bind fun _ => .pure _) fun _ => .pure _

theorem does_beginResume (run : RunRecord) (resumeQueued : AgentEvent) :
    Does pid runId (beginResume runId run resumeQueued)
      (Runs.beginResume runId run resumeQueued) := by
  refine (does_latestEventOfType _).bind fun resumed =>
    .ite (fun _ => (does_setLifecycle _ _ _).bind fun run => ?_)
    fun _ => (Does.pure run).bind fun run => ?_
  · exact .ite (fun _ => (does_appendEvent _ _).bind fun _ => .pure _) fun _ => .pure _
  · exact .ite (fun _ => (does_appendEvent _ _).bind fun _ => .pure _) fun _ => .pure _

theorem prepareResume_one_step (hpending : db.pending pid = []) :
    SafeTo pid (Begun pid runId (Runs.prepareResume runId)) (prepareResume runId) db := by
  refine one_step (fun run => .ite (fun _ => .pure _) fun _ => .ite (fun _ => .pure _) fun _ =>
    ?_) hpending
  refine (does_latestEventOfType _).bind fun resumeQueued => ?_
  cases resumeQueued with
  | none => exact .pure _
  | some resumeQueued =>
    refine (does_latestEventOfType _).bind fun started => ?_
    exact .ite (fun _ => .pure _) fun _ => does_beginResume run resumeQueued

theorem persistOutcome_one_step (outcome : RunGraphOutcome) (now : Nat)
    (hpending : db.pending pid = []) :
    SafeTo pid (Begun pid runId (Runs.persistOutcome runId outcome now))
      (persistOutcome runId outcome now) db := by
  refine one_step (fun run => .ite (fun _ => .pure _) fun _ => .ite (fun _ => ?_) fun _ =>
    ?_) hpending
  · refine (Does.ofExcept _).bind fun payload => (does_setLifecycle _ _ _).bind fun run => ?_
    exact (does_appendEvent _ _).bind fun _ => .pure _
  · refine (Does.ofExcept _).bind fun projection => (does_setLifecycle _ _ _).bind fun run => ?_
    exact (does_appendEvent _ _).bind fun _ => .pure _

theorem markFinalFailure_one_step (errorCode : String) (now : Nat)
    (hpending : db.pending pid = []) :
    SafeTo pid (Begun pid runId (Runs.markFinalFailure runId errorCode now))
      (markFinalFailure runId errorCode now) db := by
  refine one_step (fun run => .ite (fun _ => .pure _) fun _ =>
    (does_setLifecycle _ _ _).bind fun run => ?_) hpending
  exact (does_appendEvent _ _).bind fun _ => .pure _

end ProjectAgent.Runs.Sequence
