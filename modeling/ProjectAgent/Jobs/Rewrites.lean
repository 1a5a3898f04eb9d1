/-
The queue's steps by what they leave alone. Each rewrites some rows of the
table, and never a row's id, job type or aggregate (`SameJob`); what it may end
is said by `ends`, and any other row that is pending or running stays so.
-/
import ProjectAgent.Jobs.Rows

namespace ProjectAgent.Jobs

variable {settings : Settings} {jobs jobs' : JobTable} {jobId : UUID} {row : BackgroundJob}
  {selected : List BackgroundJob} {f : BackgroundJob → BackgroundJob} {workerId : String}
  {limit now selectedAt : Nat} {locked : List UUID} {ends : BackgroundJob → Prop}

/-- `PENDING` or `RUNNING`. -/
def JobState.unfinished : JobState → Bool
  | PENDING | RUNNING => true
  | _ => false

structure SameJob (f : BackgroundJob → BackgroundJob) : Prop where
  id : ∀ row, (f row).id = row.id
  jobType : ∀ row, (f row).jobType = row.jobType
  aggregateId : ∀ row, (f row).aggregateId = row.aggregateId

theorem sameJob_claimRow : SameJob (claimRow settings workerId now) :=
  ⟨fun _ => rfl, fun _ => rfl, fun _ => rfl⟩

theorem sameJob_heartbeatRow : SameJob (heartbeatRow settings now) :=
  ⟨fun _ => rfl, fun _ => rfl, fun _ => rfl⟩

theorem sameJob_completeRow : SameJob (completeRow now) :=
  ⟨fun _ => rfl, fun _ => rfl, fun _ => rfl⟩

theorem sameJob_failRow {errorCode : String} : SameJob (failRow settings now errorCode) := by
  constructor <;> intro row <;> unfold failRow <;> dsimp only <;> split <;> rfl

theorem sameJob_reapRow : SameJob (reapRow now) := by
  constructor <;> intro row <;> unfold reapRow <;> dsimp only <;> split <;> rfl

/-- A job at its last attempt. -/
def BackgroundJob.spent (row : BackgroundJob) : Bool :=
  !shouldRetry row.attemptCount row.maxAttempts

theorem failRow_unfinished {errorCode : String} (h : row.spent = false) :
    (failRow settings now errorCode row).status.unfinished := by
  have hretry : shouldRetry row.attemptCount row.maxAttempts = true := by
    simpa [BackgroundJob.spent] using h
  unfold failRow
  dsimp only [unlock]
  rw [if_pos hretry]
  rfl

theorem reapRow_unfinished (h : row.spent = false) : (reapRow now row).status.unfinished := by
  have hretry : shouldRetry row.attemptCount row.maxAttempts = true := by
    simpa [BackgroundJob.spent] using h
  unfold reapRow
  dsimp only [unlock]
  rw [if_pos hretry]
  rfl

/-- Some rows are rewritten; one that was pending or running and is none of `ends` still is. -/
def Rewrites (jobs jobs' : JobTable) (ends : BackgroundJob → Prop) : Prop :=
  ∃ selected f, jobs' = jobs.update selected f ∧ SameJob f ∧
    ∀ row ∈ jobs, selected.any (·.id == row.id) → row.status.unfinished → ¬ ends row →
      (f row).status.unfinished

theorem JobTable.Unique.mem_selected (hu : jobs.Unique) (hs : ∀ row ∈ selected, row ∈ jobs)
    (hrow : row ∈ jobs) (h : selected.any (·.id == row.id)) : row ∈ selected := by
  obtain ⟨row', hrow', hid⟩ := List.any_eq_true.mp h
  have hfound := hu.find_of_mem (hs row' hrow')
  rw [beq_iff_eq.mp hid, hu.find_of_mem hrow] at hfound
  cases hfound
  exact hrow'

theorem claim_rewrites :
    Rewrites jobs (claim settings jobs workerId limit now selectedAt locked).2 fun _ => False := by
  unfold claim
  split
  · refine ⟨[], claimRow settings workerId now, ?_, sameJob_claimRow, fun _ _ _ _ _ => rfl⟩
    simp [JobTable.update]
  · exact ⟨_, _, rfl, sameJob_claimRow, fun _ _ _ _ _ => rfl⟩

/-- What a claim hands out are rows of the table. -/
theorem mem_claim {job : QueuedJob}
    (h : job ∈ (claim settings jobs workerId limit now selectedAt locked).1) :
    ∃ row ∈ jobs, job = toJob (claimRow settings workerId now row) := by
  unfold claim at h
  split at h
  · cases h
  · obtain ⟨row, hrow, rfl⟩ := List.mem_map.mp h
    exact ⟨row, (mem_claimStatement hrow).1, rfl⟩

theorem heartbeat_rewrites (h : heartbeat settings jobs jobId workerId now = .ok jobs') :
    Rewrites jobs jobs' fun _ => False := by
  unfold heartbeat at h
  cases howned : ownedRunning jobs jobId workerId with
  | error e => rw [howned] at h; cases h
  | ok row =>
    rw [howned] at h
    cases h
    exact ⟨_, _, rfl, sameJob_heartbeatRow, fun _ _ _ hs _ => hs⟩

theorem complete_rewrites (h : complete jobs jobId workerId now = .ok jobs') :
    Rewrites jobs jobs' fun row => row.id = jobId := by
  unfold complete at h
  cases howned : ownedRunning jobs jobId workerId with
  | error e => rw [howned] at h; cases h
  | ok row =>
    rw [howned] at h
    cases h
    have hid := JobTable.find_id (ownedRunning_eq_ok.mp howned).1
    refine ⟨_, _, rfl, sameJob_completeRow, fun row' _ hsel _ hne => ?_⟩
    simp only [List.any_cons, List.any_nil, Bool.or_false, beq_iff_eq] at hsel
    exact absurd (hsel.symm.trans hid) hne

theorem fail_rewrites {errorCode : String}
    (h : fail settings jobs jobId workerId errorCode now = .ok jobs') :
    Rewrites jobs jobs' fun row => row.id = jobId ∧ row.spent := by
  unfold fail at h
  cases howned : ownedRunning jobs jobId workerId with
  | error e => rw [howned] at h; cases h
  | ok row =>
    rw [howned] at h
    cases h
    have hid := JobTable.find_id (ownedRunning_eq_ok.mp howned).1
    refine ⟨_, _, rfl, sameJob_failRow, fun row' _ hsel _ hne => failRow_unfinished ?_⟩
    simp only [List.any_cons, List.any_nil, Bool.or_false, beq_iff_eq] at hsel
    exact Bool.eq_false_iff.mpr fun hspent => hne ⟨hsel.symm.trans hid, hspent⟩

theorem reap_rewrites (hu : jobs.Unique) :
    Rewrites jobs (reapExpired jobs limit now locked).2 fun row =>
    row ∈ expiredStatement jobs limit now locked ∧ row.spent := by
  refine ⟨_, _, rfl, sameJob_reapRow, fun row hrow hsel _ hne => reapRow_unfinished ?_⟩
  have hmem := hu.mem_selected (fun row' h => (mem_expiredStatement h).1) hrow hsel
  exact Bool.eq_false_iff.mpr fun hspent => hne ⟨hmem, hspent⟩

end ProjectAgent.Jobs
