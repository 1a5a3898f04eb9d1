/-
What holds of every job in every state the queues reach: how often it has been
claimed, when it is running, when it has failed, and that it is handed out
again only once it has been given back. All of it is read off what one step can
do to a job's row (`RowStep`).
-/
import Mathlib.Data.List.Induction
import ProjectAgent.Jobs.Fencing

namespace ProjectAgent.Jobs

variable {settings : Settings} {σ : QueueState} {jobId : UUID} {row row' : BackgroundJob} {s : Step}

/-- A queue's step; each queue has its own settings. -/
structure QueueStep where
  settings : Settings
  step : Step

def QueueStep.apply (σ : QueueState) (s : QueueStep) : QueueState := Jobs.step s.settings σ s.step

/-- Any number of queues over one table. -/
def runAll (steps : List QueueStep) : QueueState := steps.foldl QueueStep.apply .initial

/-- The step hands the job out. -/
def Step.claims (settings : Settings) (σ : QueueState) (jobId : UUID) : Step → Prop
  | .claim workerId limit now selectedAt locked =>
    ∃ job ∈ (Jobs.claim settings σ.jobs workerId limit now selectedAt locked).1, job.jobId = jobId
  | _ => False

/-- The step completes the job. -/
def Step.completes (σ : QueueState) (jobId : UUID) : Step → Prop
  | .call id workerId (.complete _) => id = jobId ∧ ∃ row, ownedRunning σ.jobs id workerId = .ok row
  | _ => False

/-- The step fails the job or reaps it. -/
def Step.returns (σ : QueueState) (jobId : UUID) : Step → Prop
  | .call id workerId (.fail _ _) => id = jobId ∧ ∃ row, ownedRunning σ.jobs id workerId = .ok row
  | .reap limit now locked => ∃ row ∈ expiredStatement σ.jobs limit now locked, row.id = jobId
  | _ => False

/-- What a step can do to a job's row. -/
inductive RowStep (settings : Settings) (σ : QueueState) (jobId : UUID) (s : Step)
    (row : BackgroundJob) :
    BackgroundJob → Prop where
  | kept (hclaims : ¬ s.claims settings σ jobId) (hcompletes : ¬ s.completes σ jobId)
      (hreturns : ¬ s.returns σ jobId) :
      RowStep settings σ jobId s row row
  | claimed (workerId : String) (now : Nat) (hclaims : s.claims settings σ jobId)
      (hreturns : ¬ s.returns σ jobId)
      (hpending : row.status = .PENDING) : RowStep settings σ jobId s row
        (claimRow settings workerId now row)
  | heartbeat (now : Nat) (hclaims : ¬ s.claims settings σ jobId)
      (hcompletes : ¬ s.completes σ jobId)
      (hreturns : ¬ s.returns σ jobId) (hrunning : row.status = .RUNNING)
        (hlocked : row.lockedBy.isSome) :
      RowStep settings σ jobId s row (heartbeatRow settings now row)
  | completed (now : Nat) (hclaims : ¬ s.claims settings σ jobId) (hcompletes : s.completes σ jobId)
      (hreturns : ¬ s.returns σ jobId) (hrunning : row.status = .RUNNING) :
      RowStep settings σ jobId s row (completeRow now row)
  | failed (errorCode : String) (now : Nat) (hclaims : ¬ s.claims settings σ jobId)
      (hreturns : s.returns σ jobId)
      (hrunning : row.status = .RUNNING) : RowStep settings σ jobId s row
        (failRow settings now errorCode row)
  | reaped (now : Nat) (hclaims : ¬ s.claims settings σ jobId) (hreturns : s.returns σ jobId)
      (hrunning : row.status = .RUNNING) : RowStep settings σ jobId s row (reapRow now row)

theorem mem_claim_iff {workerId : String} {limit now selectedAt : Nat} {locked : List UUID} :
    (∃ job ∈ (claim settings σ.jobs workerId limit now selectedAt locked).1, job.jobId = jobId) ↔
      ¬ limit < 1 ∧ ∃ row ∈ claimStatement σ.jobs limit selectedAt locked, row.id = jobId := by
  unfold claim
  split
  · next h => simp [h]
  · next h => simp [h, toJob]

theorem any_id {selected : List BackgroundJob} :
    selected.any (·.id == jobId) = true ↔ ∃ row ∈ selected, row.id = jobId := by
  simp [List.any_eq_true]

/-- **What one step does to the row of one job.** -/
theorem find_step (settings : Settings) (h : Claimed σ.jobs σ.claims)
    (hrow : σ.jobs.find jobId = some row) (s : Step) :
    ∃ row', (Jobs.step settings σ s).jobs.find jobId = some row' ∧
      RowStep settings σ jobId s row row' := by
  cases s with
  | enqueue request id now =>
    refine ⟨row, ?_, .kept (fun h => h) (fun h => h) fun h => h⟩
    simp only [Jobs.step]
    split
    · next jobs hx =>
      obtain ⟨-, hfree, rfl⟩ := enqueue_eq_ok.mp hx
      rw [JobTable.find_cons, if_neg]
      · exact hrow
      · rintro rfl
        rw [show (buildJobModel request settings.ns id now).id = id from rfl, hfree] at hrow
        cases hrow
    · exact hrow
  | claim workerId limit now selectedAt locked =>
    by_cases hclaims : Step.claims settings σ jobId (.claim workerId limit now selectedAt locked)
    · obtain ⟨hlimit, hsel⟩ := mem_claim_iff.mp hclaims
      refine ⟨_, ?_, .claimed workerId now hclaims (fun h => h) ?_⟩
      · simp only [Jobs.step, Jobs.claim, if_neg hlimit]
        rw [JobTable.find_update fun _ => claimRow_id, hrow, Option.map_some,
          if_pos (any_id.mpr hsel)]
      · obtain ⟨row₁, hmem, rfl⟩ := hsel
        obtain ⟨hmem, hpending⟩ := mem_claimStatement hmem
        rw [h.unique.find_of_mem hmem] at hrow
        cases hrow
        exact hpending
    · refine ⟨row, ?_, .kept hclaims (fun h => h) fun h => h⟩
      by_cases hlimit : limit < 1
      · simp only [Jobs.step, Jobs.claim, if_pos hlimit]
        exact hrow
      · have hnone : ¬ (claimStatement σ.jobs limit selectedAt locked).any (·.id == jobId) = true :=
          fun hany =>
          hclaims (mem_claim_iff.mpr ⟨hlimit, any_id.mp hany⟩)
        simp only [Jobs.step, Jobs.claim, if_neg hlimit]
        rw [JobTable.find_update fun _ => claimRow_id, hrow, Option.map_some, if_neg hnone]
  | call id workerId call =>
    cases howned : ownedRunning σ.jobs id workerId with
    | error e =>
      refine ⟨row, ?_, .kept (fun h => h) ?_ ?_⟩
      · simp only [Jobs.step, call.perform_error howned]
        exact hrow
      · cases call with
        | complete =>
          rintro ⟨_, row, hok⟩
          rw [howned] at hok
          cases hok
        | heartbeat | fail => exact fun h => h
      · cases call with
        | fail =>
          rintro ⟨_, row, hok⟩
          rw [howned] at hok
          cases hok
        | heartbeat | complete => exact fun h => h
    | ok owned =>
      obtain ⟨hfind, hrunning, hlocked⟩ := ownedRunning_eq_ok.mp howned
      by_cases hid : id = jobId
      · subst hid
        obtain rfl : owned = row := Option.some.inj (hfind.symm.trans hrow)
        have hself : [owned].any (·.id == id) = true :=
          any_id.mpr ⟨owned, List.mem_singleton_self _, JobTable.find_id hrow⟩
        cases call with
        | heartbeat now =>
          refine ⟨heartbeatRow settings now owned, ?_,
            .heartbeat now (fun h => h) (fun h => h) (fun h => h) hrunning (by rw [hlocked]; rfl)⟩
          simp only [Jobs.step, OwnerCall.perform, Jobs.heartbeat, howned, bind, Except.bind, pure,
            Except.pure]
          rw [JobTable.find_update fun _ => heartbeatRow_id, hrow, Option.map_some, if_pos hself]
        | complete now =>
          refine ⟨completeRow now owned, ?_,
            .completed now (fun h => h) ⟨rfl, owned, howned⟩ (fun h => h) hrunning⟩
          simp only [Jobs.step, OwnerCall.perform, Jobs.complete, howned, bind, Except.bind, pure,
            Except.pure]
          rw [JobTable.find_update fun _ => completeRow_id, hrow, Option.map_some, if_pos hself]
        | fail errorCode now =>
          refine ⟨failRow settings now errorCode owned, ?_,
            .failed errorCode now (fun h => h) ⟨rfl, owned, howned⟩ hrunning⟩
          simp only [Jobs.step, OwnerCall.perform, Jobs.fail, howned, bind, Except.bind, pure,
            Except.pure]
          rw [JobTable.find_update fun _ => failRow_id, hrow, Option.map_some, if_pos hself]
      · refine ⟨row, ?_, .kept (fun h => h) ?_ ?_⟩
        · obtain ⟨jobs, hx⟩ := @OwnerCall.perform_ok settings _ _ _ _ call howned
          obtain ⟨row₁, f, howned', rfl, hf, -, -⟩ := call.perform_cases hx
          cases howned.symm.trans howned'
          have hother : ¬ [owned].any (·.id == jobId) = true := fun hany => by
            obtain ⟨row₂, hmem, heq⟩ := any_id.mp hany
            rw [List.mem_singleton.mp hmem, JobTable.find_id hfind] at heq
            exact hid heq
          simp only [Jobs.step, hx]
          rw [JobTable.find_update hf, hrow, Option.map_some, if_neg hother]
        · cases call with
          | complete => exact fun h => hid h.1
          | heartbeat | fail => exact fun h => h
        · cases call with
          | fail => exact fun h => hid h.1
          | heartbeat | complete => exact fun h => h
  | reap limit now locked =>
    by_cases hreturns : Step.returns σ jobId (.reap limit now locked)
    · refine ⟨reapRow now row, ?_, .reaped now (fun h => h) hreturns ?_⟩
      · simp only [Jobs.step, Jobs.reapExpired]
        rw [JobTable.find_update fun _ => reapRow_id, hrow, Option.map_some,
          if_pos (any_id.mpr hreturns)]
      · obtain ⟨row₁, hmem, rfl⟩ := hreturns
        obtain ⟨hmem, hrunning⟩ := mem_expiredStatement hmem
        rw [h.unique.find_of_mem hmem] at hrow
        cases hrow
        exact hrunning
    · refine ⟨row, ?_, .kept (fun h => h) (fun h => h) hreturns⟩
      simp only [Jobs.step, Jobs.reapExpired]
      rw [JobTable.find_update fun _ => reapRow_id, hrow, Option.map_some, if_neg fun hany =>
        hreturns (any_id.mp hany)]

/-- A row that appears is a job just enqueued. -/
theorem find_new (hnone : σ.jobs.find jobId = none)
    (hrow : (Jobs.step settings σ s).jobs.find jobId = some row) :
    ∃ request now, s = .enqueue request jobId now ∧ validateEnqueueRequest request = .ok () ∧
      row = buildJobModel request settings.ns jobId now := by
  cases s with
  | enqueue request id now =>
    simp only [Jobs.step] at hrow
    split at hrow
    · next jobs hx =>
      obtain ⟨hvalid, -, rfl⟩ := enqueue_eq_ok.mp hx
      rw [JobTable.find_cons] at hrow
      split at hrow
      · next hid =>
        cases hrow
        obtain rfl : id = jobId := hid
        exact ⟨request, now, rfl, hvalid, rfl⟩
      · rw [hnone] at hrow
        cases hrow
    · rw [hnone] at hrow
      cases hrow
  | claim workerId limit now selectedAt locked =>
    simp only [Jobs.step, Jobs.claim] at hrow
    split at hrow
    · rw [hnone] at hrow
      cases hrow
    · rw [JobTable.find_update fun _ => claimRow_id, hnone] at hrow
      cases hrow
  | call id workerId call =>
    simp only [Jobs.step] at hrow
    split at hrow
    · next jobs hx =>
      obtain ⟨row₁, f, -, rfl, hf, -, -⟩ := call.perform_cases hx
      rw [JobTable.find_update hf, hnone] at hrow
      cases hrow
    · rw [hnone] at hrow
      cases hrow
  | reap limit now locked =>
    simp only [Jobs.step, Jobs.reapExpired] at hrow
    rw [JobTable.find_update fun _ => reapRow_id, hnone] at hrow
    cases hrow

/-! ## A job's row -/

/-- `PENDING` with an attempt left, `RUNNING` under a lease, or ended; `FAILED` when no attempt was
left. -/
structure JobOk (row : BackgroundJob) : Prop where
  attempts : row.attemptCount ≤ row.maxAttempts
  pending : row.status = .PENDING → row.attemptCount < row.maxAttempts
  failed : row.status = .FAILED → row.attemptCount = row.maxAttempts
  leased : row.status = .RUNNING → row.lockedBy.isSome ∧ row.leaseExpiresAt.isSome
  free : row.status ≠ .RUNNING → row.lockedBy = none ∧ row.leaseExpiresAt = none

theorem JobOk.enqueued {request : EnqueueJobRequest} {ns : String} {now : Nat}
    (h : validateEnqueueRequest request = .ok ()) : JobOk (buildJobModel request ns jobId now) := by
  have hpos : 0 < request.maxAttempts := by
    unfold validateEnqueueRequest at h
    split at h
    · cases h
    · split at h
      · cases h
      · omega
  exact ⟨Nat.zero_le _, fun _ => hpos, nofun, nofun, fun _ => ⟨rfl, rfl⟩⟩

/-- **Every step keeps it.** -/
theorem JobOk.step (h : JobOk row) (hs : RowStep settings σ jobId s row row') : JobOk row' := by
  have hle := h.attempts
  cases hs with
  | kept => exact h
  | claimed workerId now _ _ hpending =>
    have hlt := h.pending hpending
    exact ⟨hlt, nofun, nofun, fun _ => ⟨rfl, rfl⟩, fun hs => absurd rfl hs⟩
  | heartbeat now _ _ _ hrunning hlocked =>
    exact ⟨hle, h.pending, h.failed, fun _ => ⟨hlocked, rfl⟩, fun hs => absurd hrunning hs⟩
  | completed now => exact ⟨hle, nofun, nofun, nofun, fun _ => ⟨rfl, rfl⟩⟩
  | failed errorCode now =>
    unfold failRow
    dsimp only [unlock]
    split
    · next hretry =>
      exact ⟨hle, fun _ => by simpa [shouldRetry] using hretry, nofun, nofun,
        fun _ => ⟨rfl, rfl⟩⟩
    · next hspent =>
      have heq : row.attemptCount = row.maxAttempts := by
        simp only [shouldRetry, decide_eq_true_eq] at hspent
        omega
      exact ⟨hle, nofun, fun _ => heq, nofun, fun _ => ⟨rfl, rfl⟩⟩
  | reaped now =>
    unfold reapRow
    dsimp only [unlock]
    split
    · next hretry =>
      exact ⟨hle, fun _ => by simpa [shouldRetry] using hretry, nofun, nofun,
        fun _ => ⟨rfl, rfl⟩⟩
    · next hspent =>
      have heq : row.attemptCount = row.maxAttempts := by
        simp only [shouldRetry, decide_eq_true_eq] at hspent
        omega
      exact ⟨hle, nofun, fun _ => heq, nofun, fun _ => ⟨rfl, rfl⟩⟩

/-! ## Runs -/

/-- What is counted, and every row as it should be. -/
structure QueueOk (σ : QueueState) : Prop where
  claimed : Claimed σ.jobs σ.claims
  rows : ∀ jobId row, σ.jobs.find jobId = some row → JobOk row

theorem QueueOk.initial : QueueOk .initial := ⟨Claimed.initial, fun _ _ h => nomatch h⟩

theorem QueueOk.step (h : QueueOk σ) (s : Step) : QueueOk (Jobs.step settings σ s) := by
  refine ⟨h.claimed.step s, fun jobId row hrow => ?_⟩
  cases hwas : σ.jobs.find jobId with
  | none =>
    obtain ⟨request, now, -, hvalid, rfl⟩ := find_new hwas hrow
    exact .enqueued hvalid
  | some row₀ =>
    obtain ⟨row', hrow', hstep⟩ := find_step settings h.claimed hwas s
    cases hrow.symm.trans hrow'
    exact (h.rows jobId row₀ hwas).step hstep

theorem runAll_append (steps steps' : List QueueStep) :
    runAll (steps ++ steps') = steps'.foldl QueueStep.apply (runAll steps) := List.foldl_append

theorem QueueOk.run (steps : List QueueStep) : QueueOk (runAll steps) := by
  induction steps using List.reverseRecOn with
  | nil => exact .initial
  | append_singleton steps s ih =>
    rw [runAll_append]
    exact ih.step s.step

/-- A job's status is none but what ends it. -/
def JobState.ended : JobState → Bool
  | SUCCEEDED | FAILED => true
  | _ => false

/-- **A job that has ended stays as it is.** -/
theorem ended_step (h : QueueOk σ) (hrow : σ.jobs.find jobId = some row) (hended : row.status.ended)
    (s : Step) :
    (Jobs.step settings σ s).jobs.find jobId = some row := by
  obtain ⟨row', hrow', hstep⟩ := find_step settings h.claimed hrow s
  cases hstep with
  | kept => exact hrow'
  | claimed _ _ _ _ hs | heartbeat _ _ _ _ hs | completed _ _ _ _ hs | failed _ _ _ _ hs
      | reaped _ _ _ hs =>
    rw [hs] at hended
    cases hended

/-- A job that is there and not `PENDING` stays so until it is given back. -/
def HandedOut (σ : QueueState) (jobId : UUID) : Prop :=
  ∃ row, σ.jobs.find jobId = some row ∧ row.status ≠ .PENDING

theorem HandedOut.claimed (h : QueueOk σ) (hclaims : s.claims settings σ jobId) :
    HandedOut (Jobs.step settings σ s) jobId := by
  have hrow : ∃ row, σ.jobs.find jobId = some row := by
    cases s with
    | claim workerId limit now selectedAt locked =>
      obtain ⟨-, row, hmem, rfl⟩ := mem_claim_iff.mp hclaims
      exact ⟨row, h.claimed.unique.find_of_mem (mem_claimStatement hmem).1⟩
    | enqueue | call | reap => exact hclaims.elim
  obtain ⟨row, hrow⟩ := hrow
  obtain ⟨row', hrow', hstep⟩ := find_step settings h.claimed hrow s
  refine ⟨row', hrow', ?_⟩
  cases hstep with
  | claimed => exact fun hs => nomatch hs
  | kept hno | heartbeat _ hno | completed _ hno | failed _ _ hno | reaped _ hno =>
    exact absurd hclaims hno

theorem HandedOut.step (h : QueueOk σ) (hout : HandedOut σ jobId) (hreturns : ¬ s.returns σ jobId) :
    HandedOut (Jobs.step settings σ s) jobId := by
  obtain ⟨row, hrow, hstatus⟩ := hout
  obtain ⟨row', hrow', hstep⟩ := find_step settings h.claimed hrow s
  refine ⟨row', hrow', ?_⟩
  cases hstep with
  | kept => exact hstatus
  | claimed => exact fun hs => nomatch hs
  | heartbeat now _ _ _ hrunning => exact fun hs => hstatus hs
  | completed => exact fun hs => nomatch hs
  | failed _ _ _ hyes | reaped _ _ hyes => exact absurd hyes hreturns

/-- What is handed out is not handed out again. -/
theorem HandedOut.not_claims (h : QueueOk σ) (hout : HandedOut σ jobId) :
    ¬ s.claims settings σ jobId := by
  intro hclaims
  obtain ⟨row, hrow, hstatus⟩ := hout
  obtain ⟨row', -, hstep⟩ := find_step settings h.claimed hrow s
  cases hstep with
  | claimed _ _ _ _ hpending => exact hstatus hpending
  | kept hno | heartbeat _ hno | completed _ hno | failed _ _ hno | reaped _ hno =>
    exact hno hclaims

/-- Along steps none of which gives the job back it stays handed out. -/
theorem HandedOut.run {steps mid : List QueueStep} (hout : HandedOut (runAll steps) jobId)
    (hreturns : ∀ pre s, pre ++ [s] <+: mid → ¬ s.step.returns (runAll (steps ++ pre)) jobId) :
    HandedOut (runAll (steps ++ mid)) jobId := by
  induction mid using List.reverseRecOn with
  | nil =>
    rw [List.append_nil]
    exact hout
  | append_singleton mid s ih =>
    have hmid := ih fun pre s' hpre => hreturns pre s' (hpre.trans (List.prefix_append ..))
    rw [← List.append_assoc, runAll_append]
    exact hmid.step (QueueOk.run _) (hreturns mid s (List.prefix_refl _))

/-- A claim hands out no job twice. -/
theorem claim_nodup (h : QueueOk σ) (workerId : String) (limit now selectedAt : Nat)
    (locked : List UUID) :
    ((claim settings σ.jobs workerId limit now selectedAt locked).1.map (·.jobId)).Nodup := by
  unfold claim
  split
  · exact List.nodup_nil
  · have hsub : (List.map BackgroundJob.id (claimStatement σ.jobs limit selectedAt locked)).Nodup
        := by
      unfold claimStatement
      refine List.Nodup.sublist (List.Sublist.map _ (List.take_sublist ..)) ?_
      refine (List.Perm.map _ (List.perm_insertionSort ClaimsBefore _)).nodup_iff.mpr ?_
      exact h.claimed.unique.sublist (List.Sublist.map _ List.filter_sublist)
    rw [List.map_map]
    exact hsub

/-- **Job queue invariants.** In every state that any number of queues reach:
no job has more attempts than it may have, one is running exactly if it is
locked under a lease, its attempts are its claims, and a failed one has had all
its attempts; a job that has ended never changes; no claim hands a job out
twice, and between two claims of a job it has been failed or reaped. -/
theorem queue_invariants (steps : List QueueStep) :
    (∀ jobId row, (runAll steps).jobs.find jobId = some row →
      row.attemptCount ≤ row.maxAttempts ∧
      (row.status = .RUNNING ↔ row.lockedBy.isSome ∧ row.leaseExpiresAt.isSome) ∧
      row.attemptCount = ((runAll steps).claims jobId).length ∧
      (row.status = .FAILED → row.attemptCount = row.maxAttempts) ∧
      (row.status.ended → ∀ s : QueueStep, (s.apply (runAll steps)).jobs.find jobId = some row)) ∧
    (∀ (settings : Settings) (workerId : String) (limit now selectedAt : Nat) (locked : List UUID),
      ((claim settings (runAll steps).jobs workerId limit now selectedAt locked).1.map
        (·.jobId)).Nodup) ∧
    ∀ before (first : QueueStep) between (second : QueueStep) jobId,
      before ++ [first] ++ between ++ [second] <+: steps →
      first.step.claims first.settings (runAll before) jobId →
      second.step.claims second.settings (runAll (before ++ [first] ++ between)) jobId →
      ∃ pre s, pre ++ [s] <+: between ∧
        s.step.returns (runAll (before ++ [first] ++ pre)) jobId := by
  have hok := QueueOk.run steps
  refine ⟨fun jobId row hrow => ?_, fun _ => claim_nodup hok,
    fun before first between second jobId _ hfirst hsecond => ?_⟩
  · have hjob := hok.rows jobId row hrow
    refine ⟨hjob.attempts, ⟨hjob.leased, fun hleased => ?_⟩, hok.claimed.count jobId row hrow,
      hjob.failed,
      fun hended s => ended_step hok hrow hended s.step⟩
    by_contra hnot
    rw [(hjob.free hnot).1] at hleased
    exact Bool.false_ne_true hleased.1
  · by_contra hnone
    have hout : HandedOut (runAll (before ++ [first])) jobId := by
      rw [runAll_append]
      exact .claimed (QueueOk.run before) hfirst
    have hstill : HandedOut (runAll (before ++ [first] ++ between)) jobId :=
      hout.run fun pre s hpre hreturns => hnone ⟨pre, s, hpre, hreturns⟩
    exact hstill.not_claims (QueueOk.run _) hsecond

end ProjectAgent.Jobs
