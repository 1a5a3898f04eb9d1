/-
Whether a run that is queued or running always has a job left to move it. It
has, as long as no last attempt at its newest job ends without the run: by a
lease that expires while the run is underway, or by a failure that has not
marked the run first.
-/
import ProjectAgent.Runs.Handlers

namespace ProjectAgent.Runs

open Interleave
open Jobs (JobTable BackgroundJob QueuedJob Rewrites)

/-- A run that is `QUEUED` or `RUNNING` has a job that is pending or running. -/
def NotStranded (w : RunWorld) : Prop :=
  ∀ runId, w.shared.underway runId → ∃ row ∈ w.shared.jobs, isJobOf runId row ∧
    row.status.unfinished

/-- The newest job of a run underway, at its last attempt. -/
def lastHope (σ : WorkStore) (row : BackgroundJob) : Bool :=
  row.spent && match UUID.parse row.aggregateId with
    | some runId => newestJob σ.jobs runId == some row && σ.underway runId
    | none => false

/-- The step leaves a run underway at its newest job's last attempt alone,
unless the attempt that fails has marked the run as failed. -/
def MarksFirst (a : RunAction) (w : RunWorld) : Prop :=
  match a with
  | .env (.reap limit now locked) =>
    ∀ row ∈ Jobs.expiredStatement w.shared.jobs limit now locked, lastHope w.shared row = false
  | .exec pid _ =>
    ∀ jobId workerId errorCode k, w.procs pid = some (.stmt (.fail jobId workerId errorCode) k) →
    ∀ row, w.shared.jobs.find jobId = some row → lastHope w.shared row →
      ∃ runId, w.shared.marked pid = some runId ∧ row.aggregateId = runId.str
  | _ => True

/-! ## The newest job of a run underway is unfinished -/

def Manned (σ : RunStore) : Prop :=
  ∀ runId, σ.underway runId → ∃ row, newestJob σ.jobs runId = some row ∧ row.status.unfinished

section
variable {settings : Jobs.Settings} {σ σ' : RunStore} {ends : BackgroundJob → Prop} {fails : Bool}

theorem Manned.opens {runId : UUID} {type : AgentEventType} {payload : Payload} {jobType : String}
    (h : Manned σ) (ho : Opens settings σ σ' runId type payload jobType)
    (hjobType : jobType = EXECUTE_AGENT_RUN ∨ jobType = RESUME_AGENT_RUN) : Manned σ' := by
  obtain ⟨row, -, hjobs, hjob, hpending⟩ := ho.newest hjobType
  intro r hu
  rw [hjobs, newestJob_cons]
  by_cases hr : r = runId
  · subst hr
    exact ⟨row, if_pos hjob, by rw [hpending]; rfl⟩
  · rw [if_neg fun hjob' => hr (isJobOf_unique hjob' hjob)]
    exact h r (by rwa [ho.underway hr] at hu)

theorem Manned.effect (h : Manned σ) (he : Effect settings ends fails σ σ')
    (hno : ∀ runId row, newestJob σ.jobs runId = some row → ends row → σ.underway runId = false) :
    Manned σ' := by
  cases he with
  | moves hm =>
    intro runId hu
    rw [hm.jobs]
    exact h runId (hm.underway hu)
  | rewrites jobs' heq hr =>
    subst heq
    obtain ⟨selected, f, rfl, hf, hkeeps⟩ := hr
    intro runId hu
    obtain ⟨row, hrow, hunfinished⟩ := h runId hu
    refine ⟨_, by rw [newestJob_update hf, hrow, Option.map_some], ?_⟩
    split
    · next hsel =>
      refine hkeeps row (newestJob_mem hrow).1 hsel hunfinished fun hends => ?_
      exact Bool.eq_false_iff.mp (hno runId row hrow hends) hu
    · exact hunfinished
  | creates runId payload ho _ => exact h.opens ho (.inl rfl)
  | resumes runId request command row _ ho => exact h.opens ho (.inr rfl)
  | job row heq _ hother =>
    subst heq
    intro runId hu
    rw [newestJob_cons, hother runId]
    exact h runId hu

end

theorem lastHope_of_newest {σ : WorkStore} {runId : UUID} {row : BackgroundJob}
    (hrow : newestJob σ.jobs runId = some row) (hspent : row.spent) (hu : σ.underway runId) :
    lastHope σ row = true := by
  have haggregate := (isJobOf_iff.mp (newestJob_mem hrow).2).2
  simp [lastHope, hspent, haggregate, UUID.parse_str, hrow, hu]

variable {settings : Jobs.Settings}

/-- What a statement that is permitted and marks first may end is no run's last hope. -/
theorem exec_spares {w : RunWorld} {pid : Nat} {c : Choice} {s : Stmt}
    {k : Except RunError s.Res → Prog Stmt Stmt.Res RunError Unit} (hk : WorkKept w.shared)
    (hpermit : spec.permit pid s w.shared) (hp : w.procs pid = some (.stmt s k))
    (hc : MarksFirst (.exec pid c) w) (runId : UUID) (row : BackgroundJob)
    (hrow : newestJob w.shared.jobs runId = some row) (hends : s.ends row) :
    w.shared.underway runId = false := by
  cases s with
  | complete jobId workerId => exact hpermit.closed runId row hrow hends
  | fail jobId workerId errorCode =>
    obtain ⟨rfl, hspent⟩ := hends
    refine Bool.eq_false_iff.mpr fun hu => ?_
    have hfind := hk.unique.find_of_mem (newestJob_mem hrow).1
    obtain ⟨r, hmarked, haggregate⟩ :=
      hc _ _ _ k hp row hfind (lastHope_of_newest hrow hspent hu)
    obtain rfl : r = runId :=
      UUID.str_inj (haggregate.symm.trans (isJobOf_iff.mp (newestJob_mem hrow).2).2)
    -- what the attempt has marked has ended
    obtain ⟨run, hrun, hterminal⟩ := hk.marked pid r hmarked
    rw [underway_eq hrun, RunStatus.underway_eq_false.mpr (.inr hterminal)] at hu
    cases hu
  | prepareExecute | prepareResume | graphExecute | graphResume | persistOutcome | markFinalFailure
  | otherHandler => exact hends.elim

theorem manned_step {a : RunAction} {w w' : RunWorld} (hg : spec.Good (machine settings) w)
    (hm : Manned w.shared.toRunStore) (hc : MarksFirst a w)
    (h : (machine settings).step a w = some w') :
    Manned w'.shared.toRunStore := by
  refine hm.effect (work_step hg.inv h).effect fun runId row hrow hends => ?_
  cases a with
  | exec pid c =>
    cases hp : w.procs pid with
    | none => simp [endsOf, hp] at hends
    | some p =>
      cases p with
      | ret | raise => simp [endsOf, hp] at hends
      | stmt s k =>
        simp only [endsOf, hp] at hends
        exact exec_spares hg.inv (hg.exec fits hp).1 hp hc runId row hrow hends
  | env e =>
    cases e with
    | reap limit now locked =>
      refine Bool.eq_false_iff.mpr fun hu => ?_
      have hhope := hc row hends.1
      rw [lastHope_of_newest hrow hends.2 hu] at hhope
      cases hhope
    | createRun | resumeRun | enqueue | claim | heartbeat => exact hends.elim
  | start | finish | kill => exact hends.elim

/-- **No run is stranded** where last attempts mark their runs first. -/
theorem not_stranded {w : RunWorld} (h : Initial w) {as : List RunAction}
    (hc : (machine settings).EachStep MarksFirst as w) :
    (machine settings).Always NotStranded as w := by
  have hmanned : Manned w.shared.toRunStore := by
    intro runId hu
    rw [RunStore.underway, h.runs] at hu
    cases hu
  have halways := Spec.Good.always fits (P := fun w => Manned w.shared.toRunStore)
    h.good hmanned
    (fun pre a hpre w₁ w₂ hr hs => ⟨a.allowed_all w₁, hc pre a hpre w₁ w₂ hr hs⟩)
    fun a w₁ w₂ hg _ hm hca hs => manned_step hg hm hca hs
  refine halways.mono fun w' hw' runId hu => ?_
  obtain ⟨row, hrow, hunfinished⟩ := hw'.2 runId hu
  exact ⟨row, (newestJob_mem hrow).1, (newestJob_mem hrow).2, hunfinished⟩

/-! ## A run whose worker is lost three times

The worker that claims the job dies before it starts, three times; the third
lease that expires fails the job for good, and the run stays `QUEUED`. -/

namespace Sample

theorem lease_pos : 0 < 60000000 := by decide

def queue : Jobs.Settings := ⟨60000000, 0, 0, "project-agent", lease_pos⟩

def world : RunWorld where
  shared :=
    { threads := fun _ => none, runs := fun _ => none, events := fun _ => [], jobs := [], delivered := [],
              marked := fun _ => none, prepared := fun _ => none }
  procs _ := none

theorem world_initial : Initial world :=
  ⟨fun _ => rfl, fun _ => rfl, fun _ => rfl, rfl, rfl, fun _ => rfl, fun _ => rfl⟩

def run : UUID := .ofNat 3

def job : UUID := .ofNat 4

def creates : RunAction :=
  .env (.createRun ⟨.ofNat 1, fun _ => .ok (.ofNat 2), .ofNat 5, run, job, 0⟩
    ⟨.ofNat 6, .QA, "what was agreed?", none⟩)

def claims (now : Nat) : RunAction := .env (.claim "worker" 1 now now [])

def dies (now : Nat) : List RunAction := [claims now, .env (.reap 100 (now + 60000001) [])]

def diesThrice : List RunAction := creates :: (dies 0 ++ dies 100000000 ++ dies 200000000)

theorem diesThrice_run : ((machine queue).run diesThrice world).map (fun w =>
    (w.shared.underway run, w.shared.jobs.all fun row => !row.status.unfinished)) =
      some (true, true) := by
  decide +kernel

/-- What the worker is handed at an attempt. -/
def delivery (attempt now : Nat) : Delivery where
  workerId := "worker"
  job :=
    { jobId := job, jobType := EXECUTE_AGENT_RUN, aggregateId := run.str, state := .RUNNING, attempts := attempt,
           maxAttempts := 3, workerId := some "worker",
           lastErrorCode := if attempt = 1 then none else some "GraphError", availableAt := now,
           leaseExpiresAt := some (now + 60000000), heartbeatAt := some now }

def quietly (now : Nat) : Choice := ⟨now, none, .error "GraphError", []⟩

/-- The attempt is claimed, prepared, and fails in its graph call. -/
def fails (attempt now : Nat) : List RunAction :=
  [claims now, .start (delivery attempt now) 0, .exec 0 (quietly now), .exec 0 (quietly now)]

def failsThrice : List RunAction :=
  creates :: (fails 1 0 ++ [.exec 0 (quietly 0), .finish 0] ++ fails 2 0 ++
    [.exec 0 (quietly 0), .finish 0] ++
    fails 3 0 ++ [.exec 0 (quietly 0), .exec 0 (quietly 0), .finish 0])

/-- A failure at the last attempt is after the mark. -/
def marksFirst : RunAction → RunWorld → Bool
  | .env (.reap ..), _ => false
  | .exec pid _, w =>
    match w.procs pid with
    | some (.stmt (.fail jobId _ _) _) =>
      (w.shared.jobs.find jobId).all fun row =>
        !row.spent || (w.shared.marked pid == some run && row.aggregateId == run.str)
    | _ => true
  | _, _ => true

theorem failsThrice_checks : (machine queue).checks marksFirst failsThrice world = true := by
  decide +kernel

end Sample

/-- The run is underway and has no job left. -/
theorem stranded : Initial Sample.world ∧
    ¬ (machine Sample.queue).Always NotStranded Sample.diesThrice Sample.world := by
  obtain ⟨w, hr, hobs⟩ := Option.map_eq_some_iff.mp Sample.diesThrice_run
  simp only [Prod.mk.injEq] at hobs
  refine ⟨Sample.world_initial, fun h => ?_⟩
  obtain ⟨row, hrow, -, hunfinished⟩ := h.last hr Sample.run hobs.1
  have hfinished := List.all_eq_true.mp hobs.2 row hrow
  rw [hunfinished] at hfinished
  cases hfinished

theorem not_stranded_failed :
    (machine Sample.queue).Always NotStranded Sample.failsThrice Sample.world := by
  refine not_stranded Sample.world_initial
    (Machine.eachStep_of_checks (fun a w h => ?_) Sample.failsThrice_checks)
  cases a with
  | exec pid c =>
    intro jobId workerId errorCode k hp row hrow hhope
    simp only [Sample.marksFirst, hp, hrow, Option.all_some, Bool.or_eq_true, Bool.and_eq_true,
      beq_iff_eq,
      Bool.not_eq_true'] at h
    rcases h with hspent | ⟨hmarked, haggregate⟩
    · simp [lastHope, hspent] at hhope
    · exact ⟨Sample.run, hmarked, haggregate⟩
  | env e =>
    cases e with
    | reap => cases h
    | _ => trivial
  | start | finish | kill => trivial

end ProjectAgent.Runs
