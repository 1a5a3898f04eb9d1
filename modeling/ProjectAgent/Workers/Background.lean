/-
The background worker: a batch of claimed jobs processed side by side, each
with a heartbeat task of its own, and the loop that goes from batch to batch.
What handlers and the queue answer, and in what order, is the run's. An
exception is known by its type's name.
-/
import Mathlib.Data.List.Induction
import ProjectAgent.Jobs.Queue

namespace ProjectAgent.Workers

open Jobs (QueuedJob)

/-- How a handler ends: it returns, or raises an `Exception`. That its task is
cancelled, or raises what is a `BaseException` only, is left out. -/
inductive HandlerResult where
  | returned
  | raised (typeName : String)
deriving DecidableEq

/-- The call of the queue a handler's end leads to. -/
inductive Report where
  | complete
  | fail (errorCode : String)
deriving DecidableEq

/-- Where `_process` is. -/
inductive Phase where
  /-- In `_invoke_handler`, at the handler. -/
  | handling
  /-- In `_invoke_handler`, at the queue. -/
  | reporting (report : Report)
  /-- In the `finally` block, with what it was entered with; the heartbeat task is cancelled and
  awaited. -/
  | unwinding (raised : Option String)
  | ended (raised : Option String)
deriving DecidableEq

structure Process where
  job : QueuedJob
  phase : Phase
  /-- What the heartbeat task has ended with, once it has. -/
  heartbeat : Option String
  /-- The report, and what the queue raised. -/
  reported : Option (Report × Option String)
deriving DecidableEq

def Process.start (job : QueuedJob) : Process := ⟨job, .handling, none, none⟩

inductive Event where
  | handler (result : HandlerResult)
  /-- The queue answers the heartbeat task. -/
  | heartbeat (raised : Option String)
  /-- The queue answers `complete` or `fail`. -/
  | report (raised : Option String)
  /-- The cancelled heartbeat task ends, with `CancelledError` or with what the queue raises as it
  is cancelled. -/
  | cancelled (raised : Option String)
deriving DecidableEq

def reportOf : HandlerResult → Report
  | .returned => .complete
  | .raised typeName => .fail typeName

def Process.next (event : Event) (process : Process) : Option Process :=
  match event, process.phase with
  | .handler result, .handling => some { process with phase := .reporting (reportOf result) }
  | .heartbeat raised, .handling | .heartbeat raised, .reporting _ =>
    -- the loop has ended with the first exception
    if process.heartbeat.isSome then none else some { process with heartbeat := raised }
  | .report raised, .reporting report =>
    some { process with phase := .unwinding raised, reported := some (report, raised) }
  | .cancelled raised, .unwinding entered =>
    match process.heartbeat, raised with
    -- it had ended before it was cancelled: `await` raises what it ended with
    | some heartbeat, none => some { process with phase := .ended (some heartbeat) }
    | some _, some _ => none
    -- `suppress(CancelledError)`
    | none, none => some { process with phase := .ended entered }
    | none, some heartbeat => some { process with phase := .ended (some heartbeat) }
  | _, _ => none

/-- The processes that `gather` awaits, and what `run_once` has ended with, once it has. -/
structure Batch where
  processes : List Process
  result : Option (Except String Nat)

def Batch.start (jobs : List QueuedJob) : Batch := ⟨jobs.map Process.start, none⟩

def Process.hasReturned (process : Process) : Bool := process.phase = .ended none

/-- `gather` raises what the first process raises; it returns when all have. -/
def gather (processes : List Process) (process : Process) : Option (Except String Nat) :=
  match process.phase with
  | .ended (some raised) => some (.error raised)
  | _ => if processes.all (·.hasReturned) then some (.ok processes.length) else none

def Batch.next (batch : Batch) (step : Nat × Event) : Option Batch :=
  match batch.result with
  | some _ => none
  | none => do
    let process ← (← batch.processes[step.1]?).next step.2
    let processes := batch.processes.set step.1 process
    pure ⟨processes, gather processes process⟩

/-- `run_once` over what it has claimed. -/
def runOnce (jobs : List QueuedJob) (steps : List (Nat × Event)) : Option Batch :=
  steps.foldlM Batch.next (Batch.start jobs)

/-! ## `serve_forever` -/

structure Round where
  jobs : List QueuedJob
  steps : List (Nat × Event)
  batch : Batch

structure Worker where
  stopped : Bool
  current : Option Round
  /-- The calls of `run_once` that have ended, the latest first. -/
  rounds : List Round
  /-- What `serve_forever` has raised. -/
  crashed : Option String

def Worker.initial : Worker := ⟨false, none, [], none⟩

inductive WorkerStep where
  | claim (jobs : List QueuedJob)
  | goOn (process : Nat) (event : Event)
  | stop

def Worker.next (worker : Worker) : WorkerStep → Option Worker
  | .stop => some { worker with stopped := true }
  | .claim jobs =>
    if worker.stopped || worker.current.isSome || worker.crashed.isSome then none
    -- it sleeps, and polls again
    else if jobs.isEmpty then some worker
    else some { worker with current := some ⟨jobs, [], .start jobs⟩ }
  | .goOn process event => do
    let round ← worker.current
    let batch ← round.batch.next (process, event)
    let round : Round := ⟨round.jobs, round.steps ++ [(process, event)], batch⟩
    match batch.result with
    | none => pure { worker with current := some round }
    | some (.ok _) => pure { worker with current := none, rounds := round :: worker.rounds }
    | some (.error raised) =>
      pure { worker with current := none, rounds := round :: worker.rounds, crashed := some raised }

def serveForever (steps : List WorkerStep) : Option Worker := steps.foldlM Worker.next .initial

/-! ## What is asked of a batch -/

/-- No call of the queue raises. -/
def Event.quiet : Event → Prop
  | .handler _ => True
  | .heartbeat raised | .report raised | .cancelled raised => raised = none

/-- The handler's outcome is reported, or the lease found lost. -/
def Process.Reported (process : Process) : Prop :=
  ∃ report raised, process.reported = some (report, raised) ∧
    (raised = none ∨ raised = some "JobOwnershipError")

/-- Every handler has run to its end and been reported, and `run_once` has not raised. -/
structure Round.Served (round : Round) : Prop where
  returned : round.batch.result = some (.ok round.jobs.length)
  jobs : round.batch.processes.map (·.job) = round.jobs
  reported : ∀ process ∈ round.batch.processes, process.Reported

def Round.Quiet (round : Round) : Prop := ∀ step ∈ round.steps, step.2.quiet

/-! ## One process -/

variable {process process' : Process} {event : Event} {batch batch' : Batch} {jobs : List QueuedJob}
  {steps : List (Nat × Event)}

/-- Some call has raised, and the process is to raise too. -/
def Process.Doomed (process : Process) : Prop :=
  process.heartbeat.isSome ∨ ∃ raised, process.phase = .unwinding (some raised) ∨
    process.phase = .ended (some raised)

/-- What is reported once the handler has ended, and what is raised if it ends. -/
structure Process.Ok (process : Process) : Prop where
  unwinding : ∀ raised, process.phase = .unwinding raised →
    ∃ report, process.reported = some (report, raised)
  ended : process.phase = .ended none → process.heartbeat = none ∧
    ∃ report, process.reported = some (report, none)

theorem Process.Ok.start (job : QueuedJob) : (Process.start job).Ok := ⟨nofun, nofun⟩

/-- **What one answer does to a process**: it stays a process of its job; a call that raises dooms
it, and only such a call does. -/
theorem Process.next_cases (h : process.Ok) (hn : process.next event = some process') :
    process'.Ok ∧ process'.job = process.job ∧
      (process'.Doomed ↔ process.Doomed ∨ ¬ event.quiet) := by
  obtain ⟨job, phase, heartbeat, reported⟩ := process
  cases event with
  | handler result =>
    cases phase with
    | handling =>
      cases hn
      refine ⟨⟨nofun, nofun⟩, rfl, ?_⟩
      simp [Doomed, Event.quiet]
    | reporting | unwinding | ended => cases hn
  | heartbeat raised =>
    cases phase with
    | handling | reporting =>
      cases heartbeat with
      | some e => cases hn
      | none =>
        cases hn
        refine ⟨⟨nofun, nofun⟩, rfl, ?_⟩
        cases raised <;> simp [Doomed, Event.quiet]
    | unwinding | ended => cases hn
  | report raised =>
    cases phase with
    | reporting report =>
      cases hn
      refine ⟨⟨fun raised' heq => ?_, nofun⟩, rfl, ?_⟩
      · cases heq
        exact ⟨report, rfl⟩
      · cases raised <;> simp [Doomed, Event.quiet]
    | handling | unwinding | ended => cases hn
  | cancelled raised =>
    cases phase with
    | unwinding entered =>
      obtain ⟨report, hreported⟩ := h.unwinding entered rfl
      cases heartbeat with
      | some e =>
        cases raised with
        | none =>
          cases hn
          refine ⟨⟨nofun, nofun⟩, rfl, ?_⟩
          simp [Doomed, Event.quiet]
        | some e' => cases hn
      | none =>
        cases raised with
        | none =>
          cases hn
          refine ⟨⟨nofun, fun heq => ?_⟩, rfl, ?_⟩
          · cases heq
            exact ⟨rfl, report, hreported⟩
          · simp [Doomed, Event.quiet]
        | some e =>
          cases hn
          refine ⟨⟨nofun, nofun⟩, rfl, ?_⟩
          simp [Doomed, Event.quiet]
    | handling | reporting | ended => cases hn

/-! ## One batch -/

/-- The batch is of these jobs, some call of it has raised exactly if some
process is doomed, and it has ended as its processes have. -/
structure BatchOk (jobs : List QueuedJob) (steps : List (Nat × Event)) (batch : Batch) : Prop where
  ofJobs : batch.processes.map (·.job) = jobs
  processes : ∀ process ∈ batch.processes, process.Ok
  doomed : (∃ process ∈ batch.processes, process.Doomed) ↔ ∃ step ∈ steps, ¬ step.2.quiet
  returned : ∀ n, batch.result = some (.ok n) → n = jobs.length ∧
    ∀ process ∈ batch.processes, process.phase = .ended none
  raised : ∀ e, batch.result = some (.error e) → ∃ process ∈ batch.processes, process.Doomed

theorem BatchOk.start (jobs : List QueuedJob) : BatchOk jobs [] (.start jobs) where
  ofJobs := by
    unfold Batch.start
    rw [List.map_map]
    exact List.map_id _
  processes process hp := by
    obtain ⟨job, -, rfl⟩ := List.mem_map.mp hp
    exact .start job
  doomed := by
    constructor
    · rintro ⟨process, hp, hdoomed⟩
      obtain ⟨job, -, rfl⟩ := List.mem_map.mp hp
      simp [Process.Doomed, Process.start] at hdoomed
    · rintro ⟨step, hs, -⟩
      cases hs
  returned n h := nomatch h
  raised e h := nomatch h

theorem BatchOk.next (h : BatchOk jobs steps batch) {step : Nat × Event}
    (hn : batch.next step = some batch') :
    BatchOk jobs (steps ++ [step]) batch' := by
  obtain ⟨i, event⟩ := step
  unfold Batch.next at hn
  split at hn
  · cases hn
  · obtain ⟨process, hget, hn⟩ := Option.bind_eq_some_iff.mp hn
    obtain ⟨process', hnext, hn⟩ := Option.bind_eq_some_iff.mp hn
    cases hn
    obtain ⟨hi, hget⟩ := List.getElem?_eq_some_iff.mp hget
    have hmem : process ∈ batch.processes := hget ▸ List.getElem_mem hi
    obtain ⟨hok, hjob, hdoomed⟩ := Process.next_cases (h.processes process hmem) hnext
    have hnew : process' ∈ batch.processes.set i process' := List.mem_set hi process'
    refine ⟨?_, fun p hp => ?_, ?_, fun n hresult => ?_, fun e hresult => ?_⟩
    · rw [List.map_set, hjob, ← hget, ← List.map_set, List.set_getElem_self]
      exact h.ofJobs
    · rcases List.mem_or_eq_of_mem_set hp with hp | rfl
      · exact h.processes p hp
      · exact hok
    · -- the process that moved is doomed now exactly if it was, or this call has raised
      constructor
      · rintro ⟨p, hp, hpd⟩
        rcases List.mem_or_eq_of_mem_set hp with hp | rfl
        · obtain ⟨step, hs, hloud⟩ := h.doomed.mp ⟨p, hp, hpd⟩
          exact ⟨step, List.mem_append_left _ hs, hloud⟩
        · rcases hdoomed.mp hpd with hwas | hloud
          · obtain ⟨step, hs, hloud⟩ := h.doomed.mp ⟨process, hmem, hwas⟩
            exact ⟨step, List.mem_append_left _ hs, hloud⟩
          · exact ⟨(i, event), List.mem_append_right _ (List.mem_singleton_self _), hloud⟩
      · rintro ⟨step, hs, hloud⟩
        rcases List.mem_append.mp hs with hs | hs
        · obtain ⟨p, hp, hpd⟩ := h.doomed.mpr ⟨step, hs, hloud⟩
          obtain ⟨j, hj, rfl⟩ := List.mem_iff_getElem.mp hp
          by_cases hji : j = i
          · subst hji
            rw [hget] at hpd
            exact ⟨process', hnew, hdoomed.mpr (.inl hpd)⟩
          · refine ⟨batch.processes[j], ?_, hpd⟩
            rw [List.mem_iff_getElem]
            exact ⟨j, by simpa using hj, by rw [List.getElem_set_ne (Ne.symm hji)]⟩
        · obtain rfl := List.mem_singleton.mp hs
          exact ⟨process', hnew, hdoomed.mpr (.inr hloud)⟩
    · dsimp only at hresult
      unfold gather at hresult
      split at hresult
      · cases hresult
      · split at hresult
        · next hall =>
          cases hresult
          refine ⟨?_, fun p hp => ?_⟩
          · rw [List.length_set, ← h.ofJobs, List.length_map]
          · exact of_decide_eq_true (List.all_eq_true.mp hall p hp)
        · cases hresult
    · dsimp only at hresult
      unfold gather at hresult
      split at hresult
      · next raised hphase => exact ⟨process', hnew, .inr ⟨raised, .inr hphase⟩⟩
      · split at hresult <;> cases hresult

theorem runOnce_snoc {step : Nat × Event} :
    runOnce jobs (steps ++ [step]) = (runOnce jobs steps).bind fun batch => batch.next step := by
  unfold runOnce
  rw [List.foldlM_append]
  cases List.foldlM Batch.next (Batch.start jobs) steps with
  | none => rfl
  | some batch =>
    show List.foldlM Batch.next batch [step] = batch.next step
    rw [List.foldlM_cons]
    exact bind_pure _

theorem BatchOk.run (hr : runOnce jobs steps = some batch) : BatchOk jobs steps batch := by
  induction steps using List.reverseRecOn generalizing batch with
  | nil =>
    cases hr
    exact .start jobs
  | append_singleton steps step ih =>
    rw [runOnce_snoc] at hr
    obtain ⟨batch₀, hr, hn⟩ := Option.bind_eq_some_iff.mp hr
    exact (ih hr).next hn

/-- **A batch that has ended is served exactly if no call of the queue has raised.** -/
theorem BatchOk.served_iff (h : BatchOk jobs steps batch) (hended : batch.result.isSome) :
    Round.Served ⟨jobs, steps, batch⟩ ↔ Round.Quiet ⟨jobs, steps, batch⟩ := by
  have hquiet : Round.Quiet ⟨jobs, steps, batch⟩ ↔
      ¬ ∃ process ∈ batch.processes, process.Doomed := by
    rw [h.doomed]
    unfold Round.Quiet
    simp only [not_exists, not_and, not_not]
  rw [hquiet]
  constructor
  · rintro hserved ⟨process, hp, hdoomed⟩
    have hphase := (h.returned _ hserved.returned).2 process hp
    have hnone := ((h.processes process hp).ended hphase).1
    rcases hdoomed with hheartbeat | ⟨raised, hraised | hraised⟩
    · rw [hnone] at hheartbeat
      cases hheartbeat
    · rw [hphase] at hraised
      cases hraised
    · rw [hphase] at hraised
      cases hraised
  · intro hnot
    obtain ⟨r, hr⟩ := Option.isSome_iff_exists.mp hended
    cases r with
    | error e => exact absurd (h.raised e hr) hnot
    | ok n =>
      obtain ⟨rfl, hall⟩ := h.returned n hr
      refine ⟨hr, h.ofJobs, fun process hp => ?_⟩
      obtain ⟨-, report, hreported⟩ := (h.processes process hp).ended (hall process hp)
      exact ⟨report, none, hreported, .inl rfl⟩

/-! ## The worker -/

/-- Its rounds are what `run_once` makes of their steps, and it has crashed exactly if one of them
has raised. -/
structure WorkerOk (steps : List WorkerStep) (worker : Worker) : Prop where
  current : ∀ round, worker.current = some round →
    runOnce round.jobs round.steps = some round.batch ∧ round.batch.result = none
  rounds : ∀ round ∈ worker.rounds, runOnce round.jobs round.steps = some round.batch ∧
    round.batch.result.isSome
  crashed : worker.crashed.isSome ↔ ∃ round ∈ worker.rounds, ∃ e,
    round.batch.result = some (.error e)
  stopped : worker.stopped = true → .stop ∈ steps

theorem WorkerOk.next {steps : List WorkerStep} {worker worker' : Worker} {step : WorkerStep}
    (h : WorkerOk steps worker) (hn : worker.next step = some worker') :
    WorkerOk (steps ++ [step]) worker' := by
  have hstopped : worker.stopped = true → .stop ∈ steps ++ [step] :=
    fun hs => List.mem_append_left _ (h.stopped hs)
  cases step with
  | stop =>
    cases hn
    exact ⟨h.current, h.rounds, h.crashed, fun _ =>
      List.mem_append_right _ (List.mem_singleton_self _)⟩
  | claim jobs =>
    unfold Worker.next at hn
    dsimp only at hn
    split at hn
    · cases hn
    · split at hn
      · cases hn
        exact ⟨h.current, h.rounds, h.crashed, hstopped⟩
      · cases hn
        refine ⟨fun round hround => ?_, h.rounds, h.crashed, hstopped⟩
        cases hround
        exact ⟨rfl, rfl⟩
  | goOn i event =>
    obtain ⟨round, hcurrent, hn⟩ := Option.bind_eq_some_iff.mp hn
    obtain ⟨batch, hbatch, hn⟩ := Option.bind_eq_some_iff.mp hn
    obtain ⟨hrun, hnone⟩ := h.current round hcurrent
    have hrun' : runOnce round.jobs (round.steps ++ [(i, event)]) = some batch := by
      rw [runOnce_snoc, hrun]
      exact hbatch
    have hcrashed : worker.crashed.isSome ↔ ∃ round ∈ worker.rounds, ∃ e,
        round.batch.result = some (.error e) := h.crashed
    cases hresult : batch.result with
    | none =>
      simp only [hresult] at hn
      cases hn
      refine ⟨fun round' hround => ?_, h.rounds, h.crashed, hstopped⟩
      cases hround
      exact ⟨hrun', hresult⟩
    | some r =>
      have hrounds : ∀ round' ∈ (⟨round.jobs, round.steps ++ [(i, event)], batch⟩ : Round) ::
        worker.rounds,
          runOnce round'.jobs round'.steps = some round'.batch ∧ round'.batch.result.isSome := by
        intro round' hround
        rcases List.mem_cons.mp hround with rfl | hround
        · exact ⟨hrun', by rw [hresult]; rfl⟩
        · exact h.rounds round' hround
      cases r with
      | ok n =>
        simp only [hresult] at hn
        cases hn
        refine ⟨(fun _ hround => nomatch hround), hrounds, hcrashed.trans ⟨?_, ?_⟩, hstopped⟩
        · rintro ⟨round', hround, e, he⟩
          exact ⟨round', List.mem_cons_of_mem _ hround, e, he⟩
        · rintro ⟨round', hround, e, he⟩
          rcases List.mem_cons.mp hround with rfl | hround
          · rw [hresult] at he
            cases he
          · exact ⟨round', hround, e, he⟩
      | error e =>
        simp only [hresult] at hn
        cases hn
        refine ⟨(fun _ hround => nomatch hround), hrounds, ⟨fun _ => ?_, fun _ => rfl⟩, hstopped⟩
        exact ⟨_, List.mem_cons_self, e, hresult⟩

theorem WorkerOk.run {steps : List WorkerStep} {worker : Worker}
    (hr : serveForever steps = some worker) :
    WorkerOk steps worker := by
  induction steps using List.reverseRecOn generalizing worker with
  | nil =>
    cases hr
    exact ⟨nofun, nofun, ⟨nofun, (fun ⟨_, hround, _⟩ => nomatch hround)⟩, nofun⟩
  | append_singleton steps step ih =>
    unfold serveForever at hr
    rw [List.foldlM_append] at hr
    obtain ⟨worker₀, hr, hn⟩ := Option.bind_eq_some_iff.mp hr
    rw [List.foldlM_cons] at hn
    exact (ih hr).next ((bind_pure _).symm.trans hn)

/-- **The worker serves on exactly if no call of the queue raises.** In every
run of `serve_forever`: each batch that has ended was served, and the loop has
not raised, exactly if no heartbeat, complete or fail of these batches has
raised; and the loop is told to stop only by `stop`. -/
theorem serves_iff {steps : List WorkerStep} {worker : Worker}
    (hr : serveForever steps = some worker) :
    ((worker.crashed = none ∧ ∀ round ∈ worker.rounds, round.Served) ↔
      ∀ round ∈ worker.rounds, round.Quiet) ∧
      (worker.stopped = true → .stop ∈ steps) := by
  have hok := WorkerOk.run hr
  have hserved : ∀ round ∈ worker.rounds, round.Served ↔ round.Quiet := fun round hround => by
    obtain ⟨hrun, hended⟩ := hok.rounds round hround
    exact (BatchOk.run hrun).served_iff hended
  refine ⟨⟨fun h round hround => (hserved round hround).mp (h.2 round hround), fun h =>
    ⟨?_, fun round hround =>
    (hserved round hround).mpr (h round hround)⟩⟩, hok.stopped⟩
  refine Option.not_isSome_iff_eq_none.mp fun hcrashed => ?_
  obtain ⟨round, hround, e, he⟩ := hok.crashed.mp hcrashed
  have hreturned := ((hserved round hround).mpr (h round hround)).returned
  rw [he] at hreturned
  cases hreturned

namespace Sample

def job (jobId : UUID) : QueuedJob :=
  ⟨jobId, "EXECUTE_AGENT_RUN", "00000000-0000-0000-0000-000000000011", .RUNNING, 1, 3,
    some "worker", none, 0, some 60, some 0⟩

def claimed : List QueuedJob :=
  [job (.ofNat 1), job (.ofNat 2)]

/-- The first handler raises and the second returns; both are reported. -/
def served : List WorkerStep :=
  [.claim claimed, .goOn 0 (.handler (.raised "TimeoutError")), .goOn 1 (.heartbeat none),
    .goOn 0 (.report none),
    .goOn 1 (.handler .returned), .goOn 0 (.cancelled none), .goOn 1 (.report none),
      .goOn 1 (.cancelled none), .claim []]

/-- The first job's lease is lost when it is completed; the second is at its handler. -/
def lost : List WorkerStep :=
  [.claim claimed, .goOn 0 (.handler .returned), .goOn 0 (.report (some "JobOwnershipError")),
    .goOn 0 (.cancelled none)]

end Sample

theorem serves_iff_sample :
    ∃ worker, serveForever Sample.served = some worker ∧ worker.rounds.length = 1 ∧
    ((worker.crashed = none ∧ ∀ round ∈ worker.rounds, round.Served) ↔
      ∀ round ∈ worker.rounds, round.Quiet) ∧
      (worker.stopped = true → .stop ∈ Sample.served) :=
  ⟨_, rfl, rfl, serves_iff rfl⟩

/-- A lost lease of one job stops the worker, and the other job's handler is not run to its end. -/
theorem worker_taken_down : ∃ worker, serveForever Sample.lost = some worker ∧
    ¬ (worker.crashed = none ∧ ∀ round ∈ worker.rounds, round.Served) ∧
    ∃ round ∈ worker.rounds, ∃ process ∈ round.batch.processes, process.phase = .handling := by
  refine ⟨_, rfl, ?_, _, List.mem_cons_self, _, List.mem_cons_of_mem _ List.mem_cons_self, rfl⟩
  rintro ⟨hcrashed, -⟩
  cases hcrashed

end ProjectAgent.Workers
