/-
The job queue: one table of rows that short transactions move. Each of them
holds the row locks it needs from its read to its commit, so each is one step;
a transaction that another one's locks let skip rows (`skip_locked`) is told
which. Times are microseconds, as naturals.
-/
import Mathlib.Data.List.Sort
import ProjectAgent.Basic

namespace ProjectAgent.Jobs

inductive JobState where
  | PENDING | RUNNING | SUCCEEDED | FAILED
deriving DecidableEq

structure EnqueueJobRequest where
  jobType : String
  aggregateId : String
  maxAttempts : Nat
deriving DecidableEq

/-- A row of `background_jobs`. -/
structure BackgroundJob where
  id : UUID
  ns : String
  jobType : String
  aggregateId : String
  status : JobState
  attemptCount : Nat
  maxAttempts : Nat
  availableAt : Nat
  lockedBy : Option String
  lockedAt : Option Nat
  heartbeatAt : Option Nat
  leaseExpiresAt : Option Nat
  lastError : Option String
  createdAt : Nat
  updatedAt : Nat
deriving DecidableEq

/-- What a worker is handed. -/
structure QueuedJob where
  jobId : UUID
  jobType : String
  aggregateId : String
  state : JobState
  attempts : Nat
  maxAttempts : Nat
  workerId : Option String
  lastErrorCode : Option String
  availableAt : Nat
  leaseExpiresAt : Option Nat
  heartbeatAt : Option Nat
deriving DecidableEq

inductive QueueError where
  | valueError (text : String)
  | lookupError (jobId : UUID)
  | jobOwnershipError (text : String)
  /-- The primary key is taken. -/
  | integrityError
deriving DecidableEq

/-- The queue's settings, as its constructor checks them. -/
structure Settings where
  lease : Nat
  retryBase : Nat
  retryMax : Nat
  ns : String
  lease_pos : 0 < lease

abbrev JobTable := List BackgroundJob

def toJob (row : BackgroundJob) : QueuedJob where
  jobId := row.id
  jobType := row.jobType
  aggregateId := row.aggregateId
  state := row.status
  attempts := row.attemptCount
  maxAttempts := row.maxAttempts
  workerId := row.lockedBy
  lastErrorCode := row.lastError
  availableAt := row.availableAt
  leaseExpiresAt := row.leaseExpiresAt
  heartbeatAt := row.heartbeatAt

/-- It goes on from attempt 1025, of which `2.0 **` makes an `OverflowError`. -/
def computeRetryDelay (settings : Settings) (attemptCount : Nat) : Nat :=
  if settings.retryBase = 0 then 0
  else min (settings.retryBase * 2 ^ (attemptCount - 1)) settings.retryMax

def shouldRetry (attemptCount maxAttempts : Nat) : Bool := attemptCount < maxAttempts

def validateEnqueueRequest (request : EnqueueJobRequest) : Except String Unit :=
  if blank request.aggregateId then .error "aggregate_id is required"
  else if request.maxAttempts < 1 then .error "max_attempts must be >= 1"
  else .ok ()

/-- The new row; its id is drawn and its times are the transaction's. -/
def buildJobModel (request : EnqueueJobRequest) (ns : String) (id : UUID) (now : Nat) :
    BackgroundJob where
  id := id
  ns := ns
  jobType := request.jobType
  aggregateId := request.aggregateId
  status := .PENDING
  attemptCount := 0
  maxAttempts := request.maxAttempts
  availableAt := now
  lockedBy := none
  lockedAt := none
  heartbeatAt := none
  leaseExpiresAt := none
  lastError := none
  createdAt := now
  updatedAt := now

namespace JobTable

def find (jobs : JobTable) (jobId : UUID) : Option BackgroundJob := List.find? (·.id == jobId) jobs

/-- `UPDATE` of the rows that were selected. -/
def update (jobs : JobTable) (selected : List BackgroundJob)
    (f : BackgroundJob → BackgroundJob) : JobTable :=
  List.map (fun row => if selected.any (·.id == row.id) then f row else row) jobs

end JobTable

section
variable (settings : Settings)

def enqueue (jobs : JobTable) (request : EnqueueJobRequest) (id : UUID) (now : Nat) :
    Except QueueError JobTable :=
  match validateEnqueueRequest request with
  | .error text => .error (.valueError text)
  | .ok () =>
    if (jobs.find id).isSome then .error .integrityError
    else .ok (buildJobModel request settings.ns id now :: jobs)

/-- `ORDER BY available_at, created_at, id`. -/
def ClaimsBefore (a b : BackgroundJob) : Prop :=
  a.availableAt < b.availableAt ∨ a.availableAt = b.availableAt ∧
    (a.createdAt < b.createdAt ∨ a.createdAt = b.createdAt ∧ a.id.int ≤ b.id.int)

instance (a b : BackgroundJob) : Decidable (ClaimsBefore a b) := by
  unfold ClaimsBefore; infer_instance

/-- The rows `build_claim_statement` selects, those locked by others skipped. -/
def claimStatement (jobs : JobTable) (limit now : Nat) (locked : List UUID) : List BackgroundJob :=
  ((jobs.filter fun row => row.status == .PENDING && row.availableAt ≤ now &&
    !locked.contains row.id).insertionSort
    ClaimsBefore).take limit

def claimRow (workerId : String) (now : Nat) (row : BackgroundJob) : BackgroundJob :=
  { row with
    status := .RUNNING
    attemptCount := row.attemptCount + 1
    lockedBy := some workerId
    lockedAt := some now
    heartbeatAt := some now
    leaseExpiresAt := some (now + settings.lease)
    updatedAt := now }

/-- `claim`: its clock is read once for the rows and once more, later, for the selection. -/
def claim (jobs : JobTable) (workerId : String) (limit now selectedAt : Nat) (locked : List UUID) :
    List QueuedJob × JobTable :=
  if limit < 1 then ([], jobs)
  else
    let rows := claimStatement jobs limit selectedAt locked
    (rows.map fun row => toJob (claimRow settings workerId now row),
      jobs.update rows (claimRow settings workerId now))

def ownedRunning (jobs : JobTable) (jobId : UUID) (workerId : String) :
    Except QueueError BackgroundJob :=
  match jobs.find jobId with
  | none => .error (.lookupError jobId)
  | some row =>
    if row.status ≠ .RUNNING ∨ row.lockedBy ≠ some workerId then
      .error (.jobOwnershipError "job is not owned by this worker")
    else .ok row

def heartbeatRow (now : Nat) (row : BackgroundJob) : BackgroundJob :=
  { row with
    heartbeatAt := some now, leaseExpiresAt := some (now + settings.lease), updatedAt := now }

/-- The lease's columns are cleared. -/
def unlock (now : Nat) (row : BackgroundJob) : BackgroundJob :=
  { row with
    lockedBy := none, lockedAt := none, heartbeatAt := none, leaseExpiresAt :=
      none, updatedAt := now }

def completeRow (now : Nat) (row : BackgroundJob) : BackgroundJob :=
  { unlock now row with status := .SUCCEEDED }

def failRow (now : Nat) (errorCode : String) (row : BackgroundJob) : BackgroundJob :=
  let row := { unlock now row with lastError := some errorCode }
  if shouldRetry row.attemptCount row.maxAttempts then
    { row with
      status := .PENDING, availableAt := now + computeRetryDelay settings row.attemptCount }
  else { row with status := .FAILED }

def heartbeat (jobs : JobTable) (jobId : UUID) (workerId : String) (now : Nat) :
    Except QueueError JobTable := do
  let row ← ownedRunning jobs jobId workerId
  pure (jobs.update [row] (heartbeatRow settings now))

def complete (jobs : JobTable) (jobId : UUID) (workerId : String) (now : Nat) :
    Except QueueError JobTable := do
  let row ← ownedRunning jobs jobId workerId
  pure (jobs.update [row] (completeRow now))

def fail (jobs : JobTable) (jobId : UUID) (workerId errorCode : String) (now : Nat) :
    Except QueueError JobTable := do
  let row ← ownedRunning jobs jobId workerId
  pure (jobs.update [row] (failRow settings now errorCode))

/-- `ORDER BY lease_expires_at, id`. -/
def ExpiresBefore (a b : BackgroundJob) : Prop :=
  a.leaseExpiresAt.getD 0 < b.leaseExpiresAt.getD 0 ∨
    a.leaseExpiresAt.getD 0 = b.leaseExpiresAt.getD 0 ∧ a.id.int ≤ b.id.int

instance (a b : BackgroundJob) : Decidable (ExpiresBefore a b) := by
  unfold ExpiresBefore; infer_instance

def expiredStatement (jobs : JobTable) (limit now : Nat) (locked : List UUID) :
    List BackgroundJob :=
  ((jobs.filter fun row => row.status == .RUNNING && row.leaseExpiresAt.any (· < now) &&
    !locked.contains row.id).insertionSort ExpiresBefore).take limit

def reapRow (now : Nat) (row : BackgroundJob) : BackgroundJob :=
  let row := unlock now row
  if shouldRetry row.attemptCount row.maxAttempts then
    { row with status := .PENDING, availableAt := now, lastError := some "LEASE_EXPIRED" }
  else
    -- `last_error or ..`: an empty text counts as none
    { row with
      status := .FAILED
      lastError := (row.lastError.filter (· ≠ "")).orElse fun _ =>
        some "LEASE_EXPIRED_MAX_ATTEMPTS" }

def reapExpired (jobs : JobTable) (limit now : Nat) (locked : List UUID) : Nat × JobTable :=
  let rows := expiredStatement jobs limit now locked
  (rows.length, jobs.update rows (reapRow now))

end

end ProjectAgent.Jobs
