/-
What an attempt knows when it completes its job: the job is settled, that is,
no run it is the newest job of is queued or running any more. Once settled, a
job stays so, whatever other attempts and requests do.
-/
import ProjectAgent.Runs.Kept
import ProjectAgent.Runs.Worker

namespace ProjectAgent.Runs

open Interleave
open Jobs (JobTable BackgroundJob QueuedJob SameJob Rewrites)

/-- The job handed out has a row of its type and aggregate. -/
def Owns (jobs : JobTable) (job : QueuedJob) : Prop :=
  ∃ row, jobs.find job.jobId = some row ∧ row.jobType = job.jobType ∧
    row.aggregateId = job.aggregateId

structure Settled (σ : RunStore) (jobId : UUID) : Prop where
  found : (σ.jobs.find jobId).isSome
  closed : ∀ runId row, newestJob σ.jobs runId = some row → row.id = jobId →
    σ.underway runId = false

/-- What others may do around an attempt. -/
structure Goes (σ σ' : RunStore) : Prop where
  owns : ∀ job, Owns σ.jobs job → Owns σ'.jobs job
  settled : ∀ jobId, Settled σ jobId → Settled σ' jobId

section
variable {settings : Jobs.Settings} {σ σ' σ'' : RunStore} {runId : UUID} {jobs' : JobTable}

namespace Goes

theorem refl (σ : RunStore) : Goes σ σ := ⟨fun _ h => h, fun _ h => h⟩

theorem trans (h : Goes σ σ') (h' : Goes σ' σ'') : Goes σ σ'' :=
  ⟨fun job ho => h'.owns job (h.owns job ho), fun jobId hs => h'.settled jobId (h.settled jobId hs)⟩

theorem moves {fails : Bool} (hm : Moves fails σ σ') : Goes σ σ' := by
  refine ⟨fun job ho => hm.jobs ▸ ho, fun jobId hs =>
    ⟨hm.jobs ▸ hs.found, fun runId row hrow hid => ?_⟩⟩
  rw [hm.jobs] at hrow
  exact Bool.eq_false_iff.mpr fun hu =>
    Bool.eq_false_iff.mp (hs.closed runId row hrow hid) (hm.underway hu)

theorem rewrites {ends : BackgroundJob → Prop} (hr : Rewrites σ.jobs jobs' ends) :
    Goes σ { σ with jobs := jobs' } := by
  obtain ⟨selected, f, rfl, hf, -⟩ := hr
  refine ⟨fun job ⟨row, hrow, htype, haggregate⟩ => ?_, fun jobId hs =>
    ⟨?_, fun runId row' hrow' hid => ?_⟩⟩
  · refine ⟨_, by rw [Jobs.JobTable.find_update hf.id, hrow, Option.map_some], ?_, ?_⟩
    · split
      · rw [hf.jobType, htype]
      · exact htype
    · split
      · rw [hf.aggregateId, haggregate]
      · exact haggregate
  · rw [Jobs.JobTable.find_update hf.id, Option.isSome_map]
    exact hs.found
  · dsimp only at hrow'
    rw [newestJob_update hf] at hrow'
    obtain ⟨row, hrow, rfl⟩ := Option.map_eq_some_iff.mp hrow'
    refine hs.closed runId row hrow (Eq.trans ?_ hid)
    split
    · exact (hf.id row).symm
    · rfl

/-- A new row, and other runs as they were. -/
theorem cons {row : BackgroundJob} (hnew : σ.jobs.find row.id = none)
    (hjobs : σ'.jobs = row :: σ.jobs)
    (hruns : ∀ runId, isJobOf runId row = false → σ'.underway runId = σ.underway runId) :
    Goes σ σ' := by
  have hold : ∀ {jobId}, (σ.jobs.find jobId).isSome → row.id ≠ jobId := by
    rintro jobId hfound rfl
    rw [hnew] at hfound
    cases hfound
  refine ⟨fun job ⟨old, hrow, htags⟩ => ⟨old, ?_, htags⟩, fun jobId hs =>
    ⟨?_, fun runId newest hrow hid => ?_⟩⟩
  · rw [hjobs, Jobs.JobTable.find_cons, if_neg (hold (Option.isSome_of_eq_some hrow)), hrow]
  · rw [hjobs, Jobs.JobTable.find_cons, if_neg (hold hs.found)]
    exact hs.found
  · rw [hjobs, newestJob_cons] at hrow
    by_cases hjob : isJobOf runId row
    · rw [if_pos hjob] at hrow
      cases hrow
      exact absurd hid (hold hs.found)
    · rw [if_neg hjob] at hrow
      rw [hruns runId (Bool.eq_false_iff.mpr hjob)]
      exact hs.closed runId newest hrow hid

end Goes

theorem Opens.newest {type : AgentEventType} {payload : Payload} {jobType : String}
    (ho : Opens settings σ σ' runId type payload jobType)
    (hjobType : jobType = EXECUTE_AGENT_RUN ∨ jobType = RESUME_AGENT_RUN) :
    ∃ row, σ.jobs.find row.id = none ∧ σ'.jobs = row :: σ.jobs ∧ isJobOf runId row ∧
      row.status = .PENDING := by
  obtain ⟨id, now, hnew, hjobs⟩ := ho.jobs
  exact ⟨_, hnew, hjobs, isJobOf_iff.mpr ⟨hjobType, rfl⟩, rfl⟩

theorem Opens.underway {type : AgentEventType} {payload : Payload} {jobType : String}
    (ho : Opens settings σ σ' runId type payload jobType)
    {r : UUID} (hr : r ≠ runId) : σ'.underway r = σ.underway r := by
  obtain ⟨row, -, -, -, hruns⟩ := ho.runs
  rw [RunStore.underway, hruns, Function.update_of_ne hr]
  rfl

theorem Goes.opens {type : AgentEventType} {payload : Payload} {jobType : String}
    (ho : Opens settings σ σ' runId type payload jobType)
    (hjobType : jobType = EXECUTE_AGENT_RUN ∨ jobType = RESUME_AGENT_RUN) : Goes σ σ' := by
  obtain ⟨row, hnew, hjobs, hjob, -⟩ := ho.newest hjobType
  refine Goes.cons hnew hjobs fun r hr => ho.underway ?_
  rintro rfl
  rw [hjob] at hr
  cases hr

/-- A handed-out job is settled once the run it names is not underway, or has a newer job. -/
theorem Settled.of_run {job : QueuedJob} (hk : Kept σ) (ho : Owns σ.jobs job)
    (hparse : UUID.parse job.aggregateId = some runId)
    (h : ∀ row, newestJob σ.jobs runId = some row → row.jobType = job.jobType →
      σ.underway runId = false) :
    Settled σ job.jobId := by
  obtain ⟨row, hrow, htype, haggregate⟩ := ho
  refine ⟨Option.isSome_of_eq_some hrow, fun r newest hnewest hid => ?_⟩
  obtain ⟨hmem, hjob⟩ := newestJob_mem hnewest
  have hfound := hk.unique.find_of_mem hmem
  rw [hid, hrow] at hfound
  cases hfound
  have haggregate' := (isJobOf_iff.mp hjob).2
  rw [← haggregate, haggregate', UUID.parse_str] at hparse
  obtain rfl := Option.some.inj hparse
  exact h row hnewest htype

/-! ## The four kinds of step -/

/-- What a step makes of the runs and the queue; `ends` says which jobs it may
end, `fails` whether it may be a final failure. -/
inductive Effect (settings : Jobs.Settings) (ends : BackgroundJob → Prop) (fails : Bool)
    (σ σ' : RunStore) :
    Prop where
  | moves (h : Moves fails σ σ')
  | rewrites (jobs' : JobTable) (h : σ' = { σ with
      jobs := jobs' }) (hr : Rewrites σ.jobs jobs' ends)
  | creates (runId : UUID) (payload : Payload)
      (ho : Opens settings σ σ' runId .RUN_QUEUED payload EXECUTE_AGENT_RUN)
        (hnone : σ.runs runId = none)
  | resumes (runId : UUID) (request : Request) (command : ResumeRunCommand) (row : AgentRun)
      (ha : Accepts request σ runId command row)
      (ho : Opens settings σ σ' runId .RUN_RESUME_QUEUED
        (acceptedPayload request command) RESUME_AGENT_RUN)
  | job (row : BackgroundJob) (h : σ' = { σ with
      jobs := row :: σ.jobs }) (hnew : σ.jobs.find row.id = none)
      (hother : ∀ runId, isJobOf runId row = false)

namespace Effect

variable {ends : BackgroundJob → Prop} {fails : Bool}

theorem kept (h : Effect settings ends fails σ σ') (hk : Kept σ) : Kept σ' := by
  cases h with
  | moves hm => exact hk.moves hm
  | rewrites jobs' h hr => exact h ▸ hk.rewrites hr
  | creates runId payload ho hnone => exact hk.opens ho (.inl ⟨rfl, rfl, hnone⟩)
  | resumes runId request command row ha ho =>
    exact hk.opens ho (.inr ⟨rfl, rfl, Option.isSome_of_eq_some ha.run⟩)
  | job row h hnew hother => exact h ▸ hk.job hnew hother

theorem goes (h : Effect settings ends fails σ σ') : Goes σ σ' := by
  cases h with
  | moves hm => exact .moves hm
  | rewrites jobs' h hr => exact h ▸ .rewrites hr
  | creates runId payload ho _ => exact .opens ho (.inl rfl)
  | resumes runId request command row _ ho => exact .opens ho (.inr rfl)
  | job row h hnew _ =>
    subst h
    exact .cons hnew rfl fun _ _ => rfl

/-- **A run that has ended stays as it is.** -/
theorem terminal (h : Effect settings ends fails σ σ') {row : AgentRun}
    (hrow : σ.runs runId = some row) (ht : row.status.terminal) : σ'.runs runId = some row := by
  cases h with
  | moves hm =>
    obtain ⟨row', hrow', hev⟩ := hm.runs runId row hrow
    rw [hrow', hev.rowMoves.terminal ht]
  | rewrites jobs' h _ => exact h ▸ hrow
  | creates r payload ho _ | resumes r request command old _ ho =>
    obtain ⟨new, -, -, -, hruns⟩ := ho.runs
    have hr : runId ≠ r := by
      rintro rfl
      exact ho.live row hrow ht
    rw [hruns, Function.update_of_ne hr, hrow]
  | job _ h _ _ => exact h ▸ hrow

end Effect

end

end ProjectAgent.Runs
