/-
What can end a run's wait: the resume of its owner, and, against the guard
every other step of a worker has, the final failure of an attempt that began
before the run waited.
-/
import ProjectAgent.Runs.Stale

namespace ProjectAgent.Runs

open Interleave

variable {settings : Jobs.Settings} {pid : Nat} {c : Choice} {σ σ' : WorkStore} {runId : UUID}
  {row : AgentRun}
  {w w' : RunWorld}

/-- A run that waits stays as it is, unless the step is a resume its owner may ask for. -/
def WaitsForOwner (settings : Jobs.Settings) (a : RunAction) (w : RunWorld) : Prop :=
  ∀ w', (machine settings).step a w = some w' → ∀ runId row, w.shared.runs runId = some row →
    row.status = .WAITING_CONFIRMATION → w'.shared.runs runId = some row ∨
      ∃ request command, a = .env (.resumeRun request runId command) ∧
        Accepts request w.shared.toRunStore runId command row

/-- No `mark_final_failure` commits on a run that waits. -/
def SparesWaiting (a : RunAction) (w : RunWorld) : Prop :=
  ∀ pid c runId errorCode k, a = .exec pid c →
    w.procs pid = some (.stmt (.markFinalFailure runId errorCode) k) →
    ¬ c.rolledBack → ∀ row, w.shared.runs runId = some row → row.status ≠ .WAITING_CONFIRMATION

/-! ## The workers' steps -/

theorem Lifecycle.waiting {row' : AgentRun} {events events' : List AgentEvent}
    (h : Lifecycle false (row, events) (row', events'))
    (hrow : row.status = .WAITING_CONFIRMATION) : row' = row := by
  cases h with
  | runs startedAt hq =>
    rw [hrow] at hq
    cases hq
  | starts | resumes | artifact => rfl
  | waits payload hash hu | ends kind status type payload now hu =>
    rw [hrow] at hu
    cases hu
  | failure payload now hfails => cases hfails

theorem Moves.waiting {τ τ' : RunStore} (h : Moves false τ τ') (hrow : τ.runs runId = some row)
    (hwaiting : row.status = .WAITING_CONFIRMATION) : τ'.runs runId = some row := by
  obtain ⟨row', hrow', hev⟩ := h.runs runId row hrow
  have hsame : row' = row := hev.keeps (P := fun row' _ => row' = row)
    (fun heq hl => (hl.waiting (heq ▸ hwaiting)).trans heq) rfl
  rw [hrow', hsame]

/-- A final failure that commits is its own run's only. -/
theorem mark_others {errorCode : String} {r : Except RunError RunRecord}
    (h : exec settings pid (.markFinalFailure runId errorCode) c σ = some (r, σ')) {other : UUID}
    (hne : c.rolledBack ∨ other ≠ runId) : σ'.runs other = σ.runs other := by
  obtain ⟨t, heq, ht⟩ := exec_ofRun (s := .markFinalFailure runId errorCode) rfl h
  rcases ht with ⟨_, hs, -⟩ | ⟨_, hs, rfl⟩
  · cases hs
  cases hs
  show σ'.toRunStore.runs other = _
  rw [heq]
  rcases hne with hlost | hne
  · rw [transact_rolledBack hlost]
  rcases transact_cases (c := c) (σ := σ) (t := markFinalFailure runId errorCode c.now) with hsame |
    ⟨_, τ, hok, hτ⟩
  · rw [hsame]
  · rw [hτ]
    exact (markFinalFailure_ok hok).2.2.2 other hne

theorem exec_waiting (hk : WorkKept σ) {s : Stmt} {r : Except RunError s.Res}
    (h : exec settings pid s c σ = some (r, σ')) (hrow : σ.runs runId = some row)
    (hwaiting : row.status = .WAITING_CONFIRMATION)
    (hspares : ∀ errorCode, s = .markFinalFailure runId errorCode → c.rolledBack) :
    σ'.runs runId = some row := by
  cases s with
  | markFinalFailure marked errorCode =>
    refine (mark_others h ?_).trans hrow
    by_cases hne : runId = marked
    · exact .inl (hspares errorCode (by rw [hne]))
    · exact .inr hne
  | prepareExecute | prepareResume | graphExecute | graphResume | persistOutcome | complete | fail
      | otherHandler =>
    rcases exec_moves hk h with hm | ⟨jobs', heq, -⟩
    · exact hm.waiting hrow hwaiting
    · show σ'.toRunStore.runs runId = some row
      rw [heq]
      exact hrow

/-! ## The requests and the queue's steps -/

/-- A request puts no other run than its own to the queue. -/
theorem Opens.others {τ τ' : RunStore} {type : AgentEventType} {payload : Payload}
    {jobType : String} {opened : UUID} (ho : Opens settings τ τ' opened type payload jobType)
    (hne : runId ≠ opened) : τ'.runs runId = τ.runs runId := by
  obtain ⟨_, -, -, -, hruns⟩ := ho.runs
  rw [hruns, Function.update_of_ne hne]

theorem outside_waiting (hk : WorkKept σ) {e : Outside} (h : outside settings e σ = some σ')
    (hrow : σ.runs runId = some row) : σ'.runs runId = some row ∨
      ∃ request command row', e = .resumeRun request runId command ∧
        Accepts request σ.toRunStore runId command row' := by
  cases e with
  | createRun request command =>
    rcases outsideRun_cases h with rfl | ⟨run, τ, hok, rfl⟩
    · exact .inl hrow
    obtain ⟨hnone, ho⟩ := createRun_ok hok
    refine .inl ((ho.others ?_).trans hrow)
    rintro rfl
    rw [hnone] at hrow
    cases hrow
  | resumeRun request resumed command =>
    rcases outsideRun_cases h with rfl | ⟨run, τ, hok, rfl⟩
    · exact .inl hrow
    obtain ⟨⟨row', ha⟩, ho⟩ := resumeRun_ok (hk.ids resumed) hok
    by_cases hne : runId = resumed
    · subst hne
      exact .inr ⟨request, command, row', rfl, ha⟩
    · exact .inl ((ho.others hne).trans hrow)
  | enqueue request id now =>
    simp only [outside] at h
    split at h
    · cases h
    rcases outsideRun_cases h with rfl | ⟨_, τ, hok, rfl⟩
    · exact .inl hrow
    obtain ⟨-, rfl⟩ := enqueue_ok hok
    exact .inl hrow
  | heartbeat jobId workerId now =>
    rcases outsideRun_cases h with rfl | ⟨_, τ, hok, rfl⟩
    · exact .inl hrow
    obtain ⟨jobs', -, rfl⟩ := queueCall_ok hok
    exact .inl hrow
  | claim | reap =>
    cases h
    exact .inl hrow

/-! ## When a run waits for its owner -/

theorem waits_iff {a : RunAction} (hk : WorkKept w.shared)
    (hs : (machine settings).step a w = some w') :
    WaitsForOwner settings a w ↔ SparesWaiting a w := by
  constructor
  · rintro hwaits pid c runId errorCode k rfl hp hlost row hrow hwaiting
    rcases hwaits w' hs runId row hrow hwaiting with hsame | ⟨_, _, hact, -⟩
    · simp only [Machine.step, hp] at hs
      obtain ⟨⟨r, σ'⟩, hx, rfl⟩ := Option.map_eq_some_iff.mp hs
      have hexec : exec settings pid (.markFinalFailure runId errorCode) c w.shared =
          some (r, σ') := hx
      refine busy_writes rfl hexec hrow hlost ?_ (hsame.trans hrow.symm)
      rintro ⟨row', hrow', hterminal⟩
      obtain rfl : row = row' := Option.some.inj (hrow.symm.trans hrow')
      rw [hwaiting] at hterminal
      cases hterminal
    · cases hact
  · rintro hspares w₁ hs₁ runId row hrow hwaiting
    rcases Machine.step_cases hs₁ with ⟨delivery, pid, p, rfl, -, hx, -⟩ |
      ⟨pid, c, s, k, r, rfl, hp, hx, -⟩ |
      ⟨pid, r, rfl, -, hx, -⟩ | ⟨pid, p, rfl, -, hx, -⟩ | ⟨e, rfl, hx, -⟩
    · left
      simp only [machine] at hx
      split at hx
      · obtain ⟨-, hσ⟩ := Prod.mk.inj (Option.some.inj hx)
        rw [← hσ]
        exact hrow
      · cases hx
    · refine .inl (exec_waiting hk hx hrow hwaiting ?_)
      rintro errorCode rfl
      by_contra hlost
      exact hspares pid c runId errorCode k rfl hp hlost row hrow hwaiting
    · exact .inl (by rw [hx]; exact hrow)
    · exact .inl (by rw [hx]; exact hrow)
    · rcases outside_waiting hk hx hrow with hsame | ⟨request, command, row', rfl, ha⟩
      · exact .inl hsame
      · obtain rfl : row = row' := Option.some.inj (hrow.symm.trans ha.run)
        exact .inr ⟨request, command, rfl, ha⟩

/-- **A wait is ended by its owner alone** exactly where no final failure
commits on a run that waits. -/
theorem waits_for_owner_iff (h : Initial w) (as : List RunAction) :
    (machine settings).EachStep (WaitsForOwner settings) as w ↔
      (machine settings).EachStep SparesWaiting as w :=
  eachStep_iff h fun hk hs => waits_iff hk hs

/-! ## A run that waits and fails

The second attempt outlives its lease and has the run wait; the third and last
was prepared before that, and its graph raises. -/

namespace Sample

def handedLast : Delivery where
  workerId := "worker"
  job := { (delivery 3 200000000).job with
    lastErrorCode := some "LEASE_EXPIRED", availableAt := 160000001 }

def failsLast : List RunAction :=
  [createsIssue, claims 0, reaps 60000001, claims 100000000, .start handedAgain 0,
    .exec 0 (answers .SUCCEEDED),
    reaps 160000001, claims 200000000, .start handedLast 1, .exec 1 (answers .SUCCEEDED),
    .exec 0 (answers .WAITING_CONFIRMATION), .exec 0 (answers .WAITING_CONFIRMATION),
      .exec 1 (quietly 0)]

/-- The run waits, and after the step it does not; the step is an attempt's. -/
def endsWait (c : Choice) (w : RunWorld) : Bool :=
  (w.shared.runs run).any (·.status == .WAITING_CONFIRMATION) &&
    ((machine queue).step (.exec 1 c) w).any fun w' => w'.shared.runs run != w.shared.runs run

theorem failsLast_endsWait :
    ((machine queue).run failsLast world).any (endsWait (quietly 0)) = true := by
  decide +kernel

theorem not_waitsForOwner {c : Choice} {w : RunWorld} (h : endsWait c w = true) :
    (∃ w', (machine queue).step (.exec 1 c) w = some w') ∧ ¬ WaitsForOwner queue (.exec 1 c) w := by
  obtain ⟨hwaits, hstep⟩ := Bool.and_eq_true_iff.mp h
  obtain ⟨row, hrow, hwaiting⟩ := (Option.any_eq_true _ _).mp hwaits
  obtain ⟨w', hs, hne⟩ := (Option.any_eq_true _ _).mp hstep
  refine ⟨⟨w', hs⟩, fun hwaits => ?_⟩
  rcases hwaits w' hs run row hrow (beq_iff_eq.mp hwaiting) with hsame | ⟨_, _, hact, -⟩
  · rw [hsame, hrow] at hne
    exact absurd hne (by simp)
  · cases hact

end Sample

theorem wait_fails :
    Initial Sample.world ∧ ¬ (machine Sample.queue).EachStep (WaitsForOwner Sample.queue)
    (Sample.failsLast ++ [.exec 1 (Sample.quietly 0)]) Sample.world := by
  refine ⟨Sample.world_initial, fun hwaits => ?_⟩
  obtain ⟨w, hr, hends⟩ := (Option.any_eq_true _ _).mp Sample.failsLast_endsWait
  obtain ⟨⟨w', hs⟩, hnot⟩ := Sample.not_waitsForOwner hends
  exact hnot (hwaits Sample.failsLast _ (List.prefix_refl _) w w' hr hs)

/-- So for the sample's run before its final failure. -/
theorem waits_for_owner_failsLast :
    (machine Sample.queue).EachStep (WaitsForOwner Sample.queue) Sample.failsLast Sample.world ↔
      (machine Sample.queue).EachStep SparesWaiting Sample.failsLast Sample.world :=
  waits_for_owner_iff Sample.world_initial Sample.failsLast

end ProjectAgent.Runs
