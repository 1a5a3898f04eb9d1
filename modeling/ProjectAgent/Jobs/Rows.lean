/-
What the queue's transactions do to the row of one job, read through
`JobTable.find`. A job's id is its own (`JobTable.Unique`), so the row a
transaction selects is the row the job is found by.
-/
import ProjectAgent.Jobs.Queue

namespace ProjectAgent.Jobs

variable {settings : Settings} {jobs jobs' : JobTable} {jobId : UUID} {row : BackgroundJob}
  {selected : List BackgroundJob} {f : BackgroundJob → BackgroundJob} {workerId : String}
  {limit now selectedAt : Nat} {locked : List UUID}

def JobTable.Unique (jobs : JobTable) : Prop := (List.map BackgroundJob.id jobs).Nodup

namespace JobTable

theorem find_id (h : jobs.find jobId = some row) : row.id = jobId := by
  simpa using List.find?_some h

theorem find_cons (row : BackgroundJob) (jobs : JobTable) (jobId : UUID) :
    JobTable.find (row :: jobs) jobId = if row.id = jobId then some row else jobs.find jobId := by
  unfold JobTable.find
  by_cases h : row.id = jobId
  · simp [h]
  · simp [h]

theorem find_update (hf : ∀ row, (f row).id = row.id) :
    (jobs.update selected f).find jobId =
      (jobs.find jobId).map fun row => if selected.any (·.id == jobId) then f row else row := by
  induction jobs with
  | nil => rfl
  | cons row jobs ih =>
    have hid : (if selected.any (·.id == row.id) then f row else row).id = row.id := by
      split
      · exact hf row
      · rfl
    show JobTable.find (_ :: JobTable.update jobs selected f) jobId = _
    rw [find_cons, find_cons, hid, ih]
    by_cases h : row.id = jobId
    · simp only [h, if_true, Option.map_some]
    · rw [if_neg h, if_neg h]

theorem Unique.find_of_mem (hu : jobs.Unique) (h : row ∈ jobs) : jobs.find row.id = some row := by
  induction jobs with
  | nil => cases h
  | cons row' jobs ih =>
    have hnodup := List.nodup_cons.mp hu
    rw [find_cons]
    rcases List.mem_cons.mp h with rfl | h
    · simp
    · have hne : row'.id ≠ row.id := fun heq => hnodup.1 (by rw [heq]; exact List.mem_map_of_mem h)
      rw [if_neg hne]
      exact ih hnodup.2 h

theorem Unique.update (hu : jobs.Unique) (hf : ∀ row, (f row).id = row.id) :
    (jobs.update selected f).Unique := by
  have hids : List.map BackgroundJob.id (jobs.update selected f) =
      List.map BackgroundJob.id jobs := by
    unfold JobTable.update
    rw [List.map_map]
    refine List.map_congr_left fun row _ => ?_
    simp only [Function.comp_apply]
    split
    · exact hf row
    · rfl
  unfold JobTable.Unique
  rw [hids]
  exact hu

theorem Unique.cons (hu : jobs.Unique) (h : jobs.find row.id = none) :
    JobTable.Unique (row :: jobs) := by
  refine List.nodup_cons.mpr ⟨fun hmem => ?_, hu⟩
  obtain ⟨row', hrow, hid⟩ := List.mem_map.mp hmem
  have hfound := hu.find_of_mem hrow
  rw [hid, h] at hfound
  cases hfound

end JobTable

/-! ## The row functions keep the id -/

@[simp] theorem claimRow_id : (claimRow settings workerId now row).id = row.id := rfl
@[simp] theorem heartbeatRow_id : (heartbeatRow settings now row).id = row.id := rfl
@[simp] theorem completeRow_id : (completeRow now row).id = row.id := rfl

@[simp] theorem failRow_id {errorCode : String} :
    (failRow settings now errorCode row).id = row.id := by
  unfold failRow
  dsimp only
  split <;> rfl

@[simp] theorem reapRow_id : (reapRow now row).id = row.id := by
  unfold reapRow
  dsimp only
  split <;> rfl

/-! ## What is selected -/

theorem mem_claimStatement (h : row ∈ claimStatement jobs limit now locked) :
    row ∈ jobs ∧ row.status = .PENDING := by
  have hmem := (List.mem_insertionSort _).mp (List.mem_of_mem_take h)
  obtain ⟨hrow, hsel⟩ := List.mem_filter.mp hmem
  simp only [Bool.and_eq_true, beq_iff_eq] at hsel
  exact ⟨hrow, hsel.1.1⟩

theorem mem_expiredStatement (h : row ∈ expiredStatement jobs limit now locked) :
    row ∈ jobs ∧ row.status = .RUNNING := by
  have hmem := (List.mem_insertionSort _).mp (List.mem_of_mem_take h)
  obtain ⟨hrow, hsel⟩ := List.mem_filter.mp hmem
  simp only [Bool.and_eq_true, beq_iff_eq] at hsel
  exact ⟨hrow, hsel.1.1⟩

theorem enqueue_eq_ok {request : EnqueueJobRequest} {id : UUID} :
    enqueue settings jobs request id now = .ok jobs' ↔ validateEnqueueRequest request = .ok () ∧
      jobs.find id = none ∧ jobs' = buildJobModel request settings.ns id now :: jobs := by
  unfold enqueue
  cases hv : validateEnqueueRequest request with
  | error text => simp
  | ok u =>
    cases hfind : jobs.find id with
    | none => simp [eq_comm]
    | some row => simp

theorem ownedRunning_eq_ok :
    ownedRunning jobs jobId workerId = .ok row ↔
      jobs.find jobId = some row ∧ row.status = .RUNNING ∧ row.lockedBy = some workerId := by
  unfold ownedRunning
  cases hfind : jobs.find jobId with
  | none => simp
  | some row' =>
    by_cases h : row'.status = .RUNNING ∧ row'.lockedBy = some workerId
    · simp only [h.1, h.2, ne_eq, not_true_eq_false, or_self, if_false, Except.ok.injEq,
        Option.some.injEq]
      constructor
      · rintro rfl
        exact ⟨rfl, h⟩
      · exact fun hrow => hrow.1
    · have hor : row'.status ≠ .RUNNING ∨ row'.lockedBy ≠ some workerId := by
        by_cases hs : row'.status = .RUNNING
        · exact .inr fun hl => h ⟨hs, hl⟩
        · exact .inl hs
      simp only [if_pos hor, Option.some.injEq, reduceCtorEq, false_iff]
      rintro ⟨rfl, hrow⟩
      exact h hrow

/-- A row that is there and not owned is answered with the ownership error. -/
theorem ownedRunning_eq_error (h : jobs.find jobId = some row)
    (hno : ¬ (row.status = .RUNNING ∧ row.lockedBy = some workerId)) :
    ownedRunning jobs jobId workerId =
      .error (.jobOwnershipError "job is not owned by this worker") := by
  unfold ownedRunning
  simp only [h]
  split
  · rfl
  · next hor =>
    exact absurd (by simpa [not_or] using hor) hno

end ProjectAgent.Jobs
