/-
Whose a job is. The queue knows a claim by the worker that made it, so a call
made for an earlier claim is refused unless the job is running under a claim
of the same worker; among claims of different workers that singles out the
last one.

What the model adds to watch a run with, and no transaction reads: the workers
that have claimed each job, in order.
-/
import ProjectAgent.Jobs.Rows

namespace ProjectAgent.Jobs

structure QueueState where
  jobs : JobTable
  claims : UUID → List String

def QueueState.initial : QueueState := ⟨[], fun _ => []⟩

/-- A call by which a worker moves a job it has claimed. -/
inductive OwnerCall where
  | heartbeat (now : Nat)
  | complete (now : Nat)
  | fail (errorCode : String) (now : Nat)

def OwnerCall.perform (settings : Settings) (jobs : JobTable) (jobId : UUID) (workerId : String) :
    OwnerCall → Except QueueError JobTable
  | .heartbeat now => Jobs.heartbeat settings jobs jobId workerId now
  | .complete now => Jobs.complete jobs jobId workerId now
  | .fail errorCode now => Jobs.fail settings jobs jobId workerId errorCode now

inductive Step where
  | enqueue (request : EnqueueJobRequest) (id : UUID) (now : Nat)
  | claim (workerId : String) (limit now selectedAt : Nat) (locked : List UUID)
  | call (jobId : UUID) (workerId : String) (call : OwnerCall)
  | reap (limit now : Nat) (locked : List UUID)

/-- One transaction; one that raises leaves the table as it is. -/
def step (settings : Settings) (σ : QueueState) : Step → QueueState
  | .enqueue request id now =>
    match enqueue settings σ.jobs request id now with
    | .ok jobs => { σ with jobs := jobs }
    | .error _ => σ
  | .claim workerId limit now selectedAt locked =>
    let (claimed, jobs) := claim settings σ.jobs workerId limit now selectedAt locked
    { jobs := jobs
      claims := fun id => if claimed.any (·.jobId == id) then σ.claims id ++ [workerId]
        else σ.claims id }
  | .call jobId workerId call =>
    match call.perform settings σ.jobs jobId workerId with
    | .ok jobs => { σ with jobs := jobs }
    | .error _ => σ
  | .reap limit now locked => { σ with jobs := (reapExpired σ.jobs limit now locked).2 }

def run (settings : Settings) (steps : List Step) : QueueState :=
  steps.foldl (step settings) .initial

variable {settings : Settings} {σ : QueueState} {jobs jobs' : JobTable} {jobId : UUID}
  {workerId : String}
  {row : BackgroundJob} {selected : List BackgroundJob} {f : BackgroundJob → BackgroundJob}

/-- A row counts its claims, and a running one is the last claim's. -/
structure Claimed (jobs : JobTable) (claims : UUID → List String) : Prop where
  unique : jobs.Unique
  count : ∀ id row, jobs.find id = some row → row.attemptCount = (claims id).length
  owner : ∀ id row, jobs.find id = some row → row.status = .RUNNING →
    row.lockedBy = (claims id).getLast?
  free : ∀ id, jobs.find id = none → claims id = []

theorem Claimed.initial : Claimed QueueState.initial.jobs QueueState.initial.claims where
  unique := List.nodup_nil
  count _ _ h := by cases h
  owner _ _ h := by cases h
  free _ _ := rfl

/-- An update that starts no claim: it counts none, and what it leaves running was running for the
same worker. -/
theorem Claimed.update {claims : UUID → List String} (h : Claimed jobs claims)
    (hf : ∀ row, (f row).id = row.id) (hcount : ∀ row, (f row).attemptCount = row.attemptCount)
    (howner : ∀ row ∈ selected, (f row).status = .RUNNING → row.status = .RUNNING ∧
      (f row).lockedBy = row.lockedBy)
    (hsel : ∀ row ∈ selected, jobs.find row.id = some row) :
    Claimed (jobs.update selected f) claims where
  unique := h.unique.update hf
  count id row hrow := by
    rw [JobTable.find_update hf] at hrow
    obtain ⟨row₀, hrow₀, rfl⟩ := Option.map_eq_some_iff.mp hrow
    have hlen := h.count id row₀ hrow₀
    split
    · rw [hcount, hlen]
    · exact hlen
  owner id row hrow hrun := by
    rw [JobTable.find_update hf] at hrow
    obtain ⟨row₀, hrow₀, rfl⟩ := Option.map_eq_some_iff.mp hrow
    by_cases hany : selected.any (·.id == id) = true
    · simp only [hany, if_true] at hrun ⊢
      obtain ⟨row₁, hmem, hid⟩ := List.any_eq_true.mp hany
      obtain rfl : row₁.id = id := by simpa using hid
      obtain rfl : row₁ = row₀ := Option.some.inj ((hsel row₁ hmem).symm.trans hrow₀)
      obtain ⟨hrun₀, hlocked⟩ := howner row₁ hmem hrun
      rw [hlocked]
      exact h.owner _ _ hrow₀ hrun₀
    · simp only [hany, Bool.false_eq_true, if_false] at hrun ⊢
      exact h.owner id row₀ hrow₀ hrun
  free id hnone := by
    rw [JobTable.find_update hf, Option.map_eq_none_iff] at hnone
    exact h.free id hnone

/-- The rows of these functions run no longer. -/
theorem failRow_status {now : Nat} {errorCode : String} :
    (failRow settings now errorCode row).status ≠ .RUNNING := by
  unfold failRow
  dsimp only
  split <;> simp

theorem reapRow_status {now : Nat} : (reapRow now row).status ≠ .RUNNING := by
  unfold reapRow
  dsimp only
  split <;> simp

theorem failRow_count {now : Nat} {errorCode : String} :
    (failRow settings now errorCode row).attemptCount = row.attemptCount := by
  unfold failRow
  dsimp only
  split <;> rfl

theorem reapRow_count {now : Nat} : (reapRow now row).attemptCount = row.attemptCount := by
  unfold reapRow
  dsimp only
  split <;> rfl

/-- An owner's call goes through on the row it owns, which it updates. -/
theorem OwnerCall.perform_cases {call : OwnerCall}
    (h : call.perform settings jobs jobId workerId = .ok jobs') :
    ∃ row f, ownedRunning jobs jobId workerId = .ok row ∧ jobs' = jobs.update [row] f ∧
      (∀ row, (f row).id = row.id) ∧ (∀ row, (f row).attemptCount = row.attemptCount) ∧
      ∀ row, (f row).status = .RUNNING → (f row).lockedBy = row.lockedBy := by
  cases call with
  | heartbeat now =>
    cases howned : ownedRunning jobs jobId workerId with
    | error e => simp [perform, Jobs.heartbeat, howned, bind, Except.bind] at h
    | ok row =>
      simp only [perform, Jobs.heartbeat, howned, bind, Except.bind, pure, Except.pure,
        Except.ok.injEq] at h
      exact ⟨row, heartbeatRow settings now, rfl, h.symm, fun _ => rfl, fun _ => rfl,
        fun _ _ => rfl⟩
  | complete now =>
    cases howned : ownedRunning jobs jobId workerId with
    | error e => simp [perform, Jobs.complete, howned, bind, Except.bind] at h
    | ok row =>
      simp only [perform, Jobs.complete, howned, bind, Except.bind, pure, Except.pure,
        Except.ok.injEq] at h
      exact ⟨row, completeRow now, rfl, h.symm, fun _ => rfl, fun _ => rfl,
        fun _ hrun => by cases hrun⟩
  | fail errorCode now =>
    cases howned : ownedRunning jobs jobId workerId with
    | error e => simp [perform, Jobs.fail, howned, bind, Except.bind] at h
    | ok row =>
      simp only [perform, Jobs.fail, howned, bind, Except.bind, pure, Except.pure,
        Except.ok.injEq] at h
      exact ⟨row, failRow settings now errorCode, rfl, h.symm, fun _ => failRow_id, fun _ =>
        failRow_count,
        fun _ hrun => absurd hrun failRow_status⟩

theorem OwnerCall.perform_ok {call : OwnerCall} (h : ownedRunning jobs jobId workerId = .ok row) :
    ∃ jobs', call.perform settings jobs jobId workerId = .ok jobs' := by
  cases call with
  | heartbeat now =>
    exact ⟨jobs.update [row] (heartbeatRow settings now), by rw [perform, Jobs.heartbeat, h]; rfl⟩
  | complete now =>
    exact ⟨jobs.update [row] (completeRow now), by rw [perform, Jobs.complete, h]; rfl⟩
  | fail errorCode now =>
    exact ⟨jobs.update [row] (failRow settings now errorCode), by rw [perform, Jobs.fail, h]; rfl⟩

theorem OwnerCall.perform_error {call : OwnerCall} {e : QueueError}
    (h : ownedRunning jobs jobId workerId = .error e) :
    call.perform settings jobs jobId workerId = .error e := by
  cases call <;> simp only [perform, Jobs.heartbeat, Jobs.complete, Jobs.fail, h, bind, Except.bind]

/-! ## Every transaction keeps it -/

theorem Claimed.enqueue {claims : UUID → List String} (h : Claimed jobs claims)
    {request : EnqueueJobRequest} {id : UUID} {now : Nat}
    (hx : Jobs.enqueue settings jobs request id now = .ok jobs') : Claimed jobs' claims := by
  unfold Jobs.enqueue at hx
  split at hx
  · cases hx
  · split at hx
    · cases hx
    · next hfree =>
      have hnone : jobs.find id = none := Option.not_isSome_iff_eq_none.mp hfree
      cases hx
      constructor
      · exact h.unique.cons hnone
      · intro jobId row hrow
        rw [JobTable.find_cons] at hrow
        split at hrow
        · next hid =>
          obtain rfl : id = jobId := hid
          cases hrow
          simp [buildJobModel, h.free id hnone]
        · exact h.count jobId row hrow
      · intro jobId row hrow hrun
        rw [JobTable.find_cons] at hrow
        split at hrow
        · cases hrow
          cases hrun
        · exact h.owner jobId row hrow hrun
      · intro jobId hfind
        rw [JobTable.find_cons] at hfind
        split at hfind
        · cases hfind
        · exact h.free jobId hfind

theorem Claimed.claim (h : Claimed σ.jobs σ.claims) (workerId : String) (limit now selectedAt : Nat)
    (locked : List UUID) :
    Claimed (step settings σ (.claim workerId limit now selectedAt locked)).jobs
      (step settings σ (.claim workerId limit now selectedAt locked)).claims := by
  by_cases hlimit : limit < 1
  · simpa [step, Jobs.claim, hlimit] using h
  · set rows := claimStatement σ.jobs limit selectedAt locked
    have hany (id : UUID) : ((rows.map fun row => toJob (claimRow settings workerId now row)).any
      (·.jobId == id)) =
        rows.any (·.id == id) := by
      rw [List.any_map]
      rfl
    have hclaims : (step settings σ (.claim workerId limit now selectedAt locked)).claims =
        fun id => if rows.any (·.id == id) then σ.claims id ++ [workerId] else σ.claims id := by
      funext id
      simp only [step, Jobs.claim, if_neg hlimit]
      rw [hany]
    have hjobs : (step settings σ (.claim workerId limit now selectedAt locked)).jobs =
        σ.jobs.update rows (claimRow settings workerId now) := by
      simp only [step, Jobs.claim, if_neg hlimit]
      rfl
    have hid (row : BackgroundJob) : (claimRow settings workerId now row).id = row.id := rfl
    rw [hjobs, hclaims]
    constructor
    · exact h.unique.update hid
    · intro id row hrow
      rw [JobTable.find_update hid] at hrow
      obtain ⟨row₀, hrow₀, rfl⟩ := Option.map_eq_some_iff.mp hrow
      have hlen := h.count id row₀ hrow₀
      split
      · simp only [claimRow, List.length_append, List.length_singleton]
        omega
      · exact hlen
    · intro id row hrow hrun
      rw [JobTable.find_update hid] at hrow
      obtain ⟨row₀, hrow₀, rfl⟩ := Option.map_eq_some_iff.mp hrow
      split at hrun
      · next hsel => simp [hsel, claimRow]
      · next hsel =>
        have howner := h.owner id row₀ hrow₀ hrun
        simpa [hsel] using howner
    · intro id hnone
      rw [JobTable.find_update hid, Option.map_eq_none_iff] at hnone
      -- a job that is not in the table is not selected
      have hsel : rows.any (·.id == id) = false := by
        by_contra hany
        obtain ⟨row, hrow, hid⟩ := List.any_eq_true.mp (Bool.of_not_eq_false hany)
        have hfound := h.unique.find_of_mem (mem_claimStatement hrow).1
        rw [beq_iff_eq.mp hid, hnone] at hfound
        cases hfound
      simp only [hsel, h.free id hnone, Bool.false_eq_true, if_false]

theorem Claimed.step (h : Claimed σ.jobs σ.claims) (s : Step) :
    Claimed (step settings σ s).jobs (step settings σ s).claims := by
  cases s with
  | enqueue request id now =>
    simp only [Jobs.step]
    split
    · next hx => exact h.enqueue hx
    · exact h
  | claim workerId limit now selectedAt locked => exact h.claim workerId limit now selectedAt locked
  | call jobId workerId call =>
    simp only [Jobs.step]
    split
    · next hx =>
      obtain ⟨row, f, howned, rfl, hid, hcount, hlocked⟩ := call.perform_cases hx
      obtain ⟨hfind, hrun, -⟩ := ownedRunning_eq_ok.mp howned
      have hrow : σ.jobs.find row.id = some row := by
        rw [JobTable.find_id hfind]
        exact hfind
      refine h.update hid hcount (fun row' hmem hrun' => ?_) fun row' hmem => ?_
      · obtain rfl := List.mem_singleton.mp hmem
        exact ⟨hrun, hlocked row' hrun'⟩
      · obtain rfl := List.mem_singleton.mp hmem
        exact hrow
    · exact h
  | reap limit now locked =>
    refine h.update (fun _ => reapRow_id) (fun _ => reapRow_count) (fun row _ hrun => ?_)
      fun row hmem => ?_
    · exact absurd hrun reapRow_status
    · exact h.unique.find_of_mem (mem_expiredStatement hmem).1

theorem claimed_run (steps : List Step) :
    Claimed (run settings steps).jobs (run settings steps).claims := by
  suffices hfold : ∀ σ : QueueState, Claimed σ.jobs σ.claims →
      Claimed (steps.foldl (step settings) σ).jobs (steps.foldl (step settings) σ).claims from
    hfold _ Claimed.initial
  induction steps with
  | nil => exact fun σ h => h
  | cons s steps ih => exact fun σ h => ih _ (h.step s)

/-! ## Fencing -/

/-- The job is running, and the claim it is running under is this worker's. -/
def QueueState.CurrentFor (σ : QueueState) (jobId : UUID) (workerId : String) : Prop :=
  ∃ row, σ.jobs.find jobId = some row ∧ row.status = .RUNNING ∧
    (σ.claims jobId).getLast? = some workerId

/-- **Lease fencing.** Whatever the workers and the reaper have done, a
heartbeat, complete or fail made for the `k`-th claim of a job goes through
exactly while the job is running under a claim of that claim's worker;
otherwise it is refused with the ownership error and changes nothing. Where no
worker claims a job twice, it goes through only for the last claim. -/
theorem fenced (settings : Settings) (steps : List Step) (jobId : UUID) (k : Nat)
    (workerId : String) (hk : ((run settings steps).claims jobId)[k]? = some workerId)
    (call : OwnerCall) :
    ((∃ jobs, call.perform settings (run settings steps).jobs jobId workerId = .ok jobs) ↔
      (run settings steps).CurrentFor jobId workerId) ∧
    (¬ (run settings steps).CurrentFor jobId workerId →
      call.perform settings (run settings steps).jobs jobId workerId =
        .error (.jobOwnershipError "job is not owned by this worker") ∧
      step settings (run settings steps) (.call jobId workerId call) = run settings steps) ∧
    ((run settings steps).CurrentFor jobId workerId → ((run settings steps).claims jobId).Nodup →
      k + 1 = ((run settings steps).claims jobId).length) := by
  have hinv : Claimed (run settings steps).jobs (run settings steps).claims := claimed_run steps
  generalize run settings steps = σ at hk hinv ⊢
  have howned (row : BackgroundJob) (hfind : σ.jobs.find jobId = some row) :
      row.status = .RUNNING ∧ row.lockedBy = some workerId ↔ σ.CurrentFor jobId workerId := by
    constructor
    · rintro ⟨hrun, hlocked⟩
      exact ⟨row, hfind, hrun, (hinv.owner jobId row hfind hrun).symm.trans hlocked⟩
    · rintro ⟨row', hfind', hrun, hlast⟩
      obtain rfl : row = row' := Option.some.inj (hfind.symm.trans hfind')
      exact ⟨hrun, (hinv.owner jobId row hfind hrun).trans hlast⟩
  have hrefused (hno : ¬ σ.CurrentFor jobId workerId) :
    call.perform settings σ.jobs jobId workerId =
      .error (.jobOwnershipError "job is not owned by this worker") := by
    cases hfind : σ.jobs.find jobId with
    | none =>
      rw [hinv.free jobId hfind] at hk
      simp at hk
    | some row =>
      exact call.perform_error (ownedRunning_eq_error hfind fun h => hno ((howned row hfind).mp h))
  refine ⟨⟨fun ⟨jobs, hx⟩ => ?_, fun hcur => ?_⟩, fun hno => ⟨hrefused hno, ?_⟩,
    fun hcur hnodup => ?_⟩
  · by_contra hno
    rw [hrefused hno] at hx
    cases hx
  · obtain ⟨row, hfind, -⟩ := id hcur
    exact call.perform_ok (ownedRunning_eq_ok.mpr ⟨hfind, (howned row hfind).mpr hcur⟩)
  · simp only [Jobs.step, hrefused hno]
  · obtain ⟨row, -, -, hlast⟩ := hcur
    rw [List.getLast?_eq_getElem?] at hlast
    have hlt : k < (σ.claims jobId).length := (List.getElem?_eq_some_iff.mp hk).1
    have heq := (List.getElem?_inj hlt hnodup).mp (hk.trans hlast.symm)
    omega

/-! ## A worker that claims its job again

The lease of its first claim expires and is reaped, and the worker claims the
job once more while its first attempt still runs; the first attempt completes
the second claim. -/

namespace Sample

def queue : Settings := ⟨60000000, 5000000, 300000000, "project-agent", by decide⟩

def job : UUID := .ofNat 1

def worker : String := "worker-1:7"

def claimed : List Step :=
  [.enqueue ⟨"EXECUTE_AGENT_RUN", "00000000-0000-0000-0000-000000000002", 3⟩ job 0,
    .claim worker 4 10 10 []]

def reclaimed (workerId : String) : List Step :=
  claimed ++ [.reap 100 70000000 [], .claim workerId 4 70000001 70000002 []]

end Sample

/-- The call for the first of two claims goes through while the second is the current one. -/
theorem refenced :
    ((run Sample.queue (Sample.reclaimed Sample.worker)).claims Sample.job)[0]? =
      some Sample.worker ∧
    0 + 1 < ((run Sample.queue (Sample.reclaimed Sample.worker)).claims Sample.job).length ∧
    ∃ jobs, (OwnerCall.complete 70000003).perform Sample.queue
      (run Sample.queue (Sample.reclaimed Sample.worker)).jobs Sample.job Sample.worker =
        .ok jobs := by
  refine ⟨by decide +kernel, by decide +kernel, ?_⟩
  have hok : ((OwnerCall.complete 70000003).perform Sample.queue
      (run Sample.queue (Sample.reclaimed Sample.worker)).jobs Sample.job Sample.worker).isOk =
        true := by
    decide +kernel
  cases hx : (OwnerCall.complete 70000003).perform Sample.queue
      (run Sample.queue (Sample.reclaimed Sample.worker)).jobs Sample.job Sample.worker with
  | ok jobs => exact ⟨jobs, rfl⟩
  | error e =>
    rw [hx] at hok
    cases hok

/-- Reclaimed by another worker, the job is not the first one's any more. -/
theorem fenced_reclaimed : (OwnerCall.complete 70000003).perform Sample.queue
      (run Sample.queue (Sample.reclaimed "worker-2:7")).jobs Sample.job Sample.worker =
        .error (.jobOwnershipError "job is not owned by this worker") := by
  have hclaims : ((run Sample.queue (Sample.reclaimed "worker-2:7")).claims Sample.job) =
      [Sample.worker, "worker-2:7"] := by decide +kernel
  refine ((fenced Sample.queue (Sample.reclaimed "worker-2:7") Sample.job 0 Sample.worker
    (by rw [hclaims]; rfl) (.complete 70000003)).2.1 fun ⟨_, _, _, hlast⟩ => ?_).1
  rw [hclaims] at hlast
  exact absurd hlast (by decide)

end ProjectAgent.Jobs
