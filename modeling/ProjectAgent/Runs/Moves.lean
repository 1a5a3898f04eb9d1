/-
What each transaction can do to the store, said once. An attempt's transaction
moves its run and the run's events on and leaves the queue alone (`Moves`); a
request puts a run to the queue, with the event and the job that say so (`Opens`).
-/
import ProjectAgent.Runs.Lifecycle

namespace ProjectAgent.Runs

variable {fails : Bool} {σ σ' σ'' : RunStore} {runId : UUID} {now : Nat}

def RunStore.underway (σ : RunStore) (runId : UUID) : Bool := (σ.runs runId).any (·.status.underway)

theorem underway_eq {row : AgentRun} (h : σ.runs runId = some row) :
    σ.underway runId = row.status.underway := by
  rw [RunStore.underway, h, Option.any_some]

/-- Runs move on and their events grow; the queue is as it was. -/
structure Moves (fails : Bool) (σ σ' : RunStore) : Prop where
  jobs : σ'.jobs = σ.jobs
  runs : ∀ runId row, σ.runs runId = some row →
    ∃ row', σ'.runs runId = some row' ∧ Evolves fails row (σ.events runId) row' (σ'.events runId)
  free : ∀ runId, σ.runs runId = none → σ'.runs runId = none ∧ σ'.events runId = σ.events runId

namespace Moves

theorem refl (σ : RunStore) : Moves fails σ σ :=
  ⟨rfl, fun _ row h => ⟨row, h, .refl row _⟩, fun _ h => ⟨h, rfl⟩⟩

theorem trans (h : Moves fails σ σ') (h' : Moves fails σ' σ'') : Moves fails σ σ'' := by
  refine ⟨h'.jobs.trans h.jobs, fun runId row hrow => ?_, fun runId hn => ?_⟩
  · obtain ⟨row', hrow', hev⟩ := h.runs runId row hrow
    obtain ⟨row'', hrow'', hev'⟩ := h'.runs runId row' hrow'
    exact ⟨row'', hrow'', hev.trans hev'⟩
  · obtain ⟨hn', hevents⟩ := h.free runId hn
    obtain ⟨hn'', hevents'⟩ := h'.free runId hn'
    exact ⟨hn'', hevents'.trans hevents⟩

/-- Backwards: a run that is there now was there before. -/
theorem back (h : Moves fails σ σ') {row' : AgentRun} (hrow' : σ'.runs runId = some row') :
    ∃ row, σ.runs runId = some row ∧ Evolves fails row (σ.events runId) row' (σ'.events runId) := by
  cases hrow : σ.runs runId with
  | none =>
    rw [(h.free runId hrow).1] at hrow'
    cases hrow'
  | some row =>
    obtain ⟨row'', hrow'', hev⟩ := h.runs runId row hrow
    obtain rfl : row'' = row' := Option.some.inj (hrow''.symm.trans hrow')
    exact ⟨row, rfl, hev⟩

theorem run_eq_none (h : Moves fails σ σ') : σ'.runs runId = none ↔ σ.runs runId = none := by
  constructor
  · intro hn
    by_contra hs
    obtain ⟨row, hrow⟩ := Option.ne_none_iff_exists'.mp hs
    obtain ⟨row', hrow', -⟩ := h.runs runId row hrow
    rw [hn] at hrow'
    cases hrow'
  · exact fun hn => (h.free runId hn).1

theorem events (h : Moves fails σ σ') (runId : UUID) :
    Relation.ReflTransGen Adds (σ.events runId) (σ'.events runId) := by
  cases hrow : σ.runs runId with
  | none =>
    rw [(h.free runId hrow).2]
  | some row =>
    obtain ⟨row', -, hev⟩ := h.runs runId row hrow
    exact hev.adds

theorem underway (h : Moves fails σ σ') (hu : σ'.underway runId) : σ.underway runId := by
  obtain ⟨row', hrow', hs⟩ := (Option.any_eq_true _ _).mp hu
  obtain ⟨row, hrow, hev⟩ := h.back hrow'
  exact (Option.any_eq_true _ _).mpr ⟨row, hrow, hev.rowMoves.underway hs⟩

/-- One run is written, its row and its events. -/
theorem write {row row' : AgentRun} {events : List AgentEvent} (hrow : σ.runs runId = some row)
    (hev : Evolves fails row (σ.events runId) row' events) (hjobs : σ'.jobs = σ.jobs)
    (hruns : σ'.runs = Function.update σ.runs runId (some row'))
    (hevents : σ'.events = Function.update σ.events runId events) : Moves fails σ σ' := by
  refine ⟨hjobs, fun r row₁ h₁ => ?_, fun r hn => ?_⟩
  · rw [hruns, hevents]
    by_cases hr : r = runId
    · subst hr
      obtain rfl : row = row₁ := Option.some.inj (hrow.symm.trans h₁)
      rw [Function.update_self, Function.update_self]
      exact ⟨row', rfl, hev⟩
    · rw [Function.update_of_ne hr, Function.update_of_ne hr]
      exact ⟨row₁, h₁, .refl row₁ _⟩
  · have hr : r ≠ runId := by
      rintro rfl
      rw [hrow] at hn
      cases hn
    rw [hruns, hevents, Function.update_of_ne hr, Function.update_of_ne hr]
    exact ⟨hn, rfl⟩

theorem row {row row' : AgentRun} (hrow : σ.runs runId = some row)
    (h : Lifecycle fails (row, σ.events runId) (row', σ.events runId)) :
    Moves fails σ { σ with runs := Function.update σ.runs runId (some row') } :=
  write hrow (.single h) rfl rfl (Function.update_eq_self runId σ.events).symm

theorem event {row : AgentRun} {events : List AgentEvent} (hrow : σ.runs runId = some row)
    (h : Lifecycle fails (row, σ.events runId) (row, events)) :
    Moves fails σ { σ with events := Function.update σ.events runId events } := by
  refine write hrow (.single h) rfl ?_ rfl
  rw [← hrow, Function.update_eq_self]

theorem rowEvent {row row' : AgentRun} {events : List AgentEvent} (hrow : σ.runs runId = some row)
    (h : Lifecycle fails (row, σ.events runId) (row', events)) :
    Moves fails σ { σ with
      runs := Function.update σ.runs runId (some row')
      events := Function.update σ.events runId events } :=
  write hrow (.single h) rfl rfl rfl

end Moves

/-! ## The attempts' transactions -/

section
variable {preparation : RunExecutionPreparation} {run : RunRecord}

/-- Why an execute attempt may have nothing to do. -/
def NotExecuted (σ : RunStore) (runId : UUID) : Prop :=
  σ.underway runId = false ∨ ResumeQueued (σ.events runId) ∨ σ.latestEvent runId .RUN_QUEUED = none

/-- Nothing queued after the run itself was: no resume is. -/
theorem not_resumeQueued (hin : InOrder (σ.events runId)) {queued : AgentEvent}
    (hq : σ.latestEvent runId .RUN_QUEUED = some queued)
    (hl : later (σ.latestEvent runId .RUN_RESUME_QUEUED) queued = false) :
    ¬ ResumeQueued (σ.events runId) := by
  rintro ⟨r, hr, ht⟩
  obtain ⟨hqm, hqt⟩ := mem_of_latestEvent hq
  cases hlast : σ.latestEvent runId .RUN_RESUME_QUEUED with
  | none => exact latestEvent_eq_none.mp hlast r hr ht
  | some last =>
    obtain ⟨hm, hlt⟩ := mem_of_latestEvent hlast
    have hlt' := hin.queued queued hqm hqt last hm (by rw [hlt]; decide)
    rw [hlast] at hl
    simp [later] at hl
    omega

/-- Nothing starts a run earlier than it was queued. -/
theorem not_started (hin : InOrder (σ.events runId)) {queued : AgentEvent}
    (hq : σ.latestEvent runId .RUN_QUEUED = some queued)
    (hl : (σ.latestEvent runId .RUN_STARTED).all (·.sequenceNo < queued.sequenceNo)) :
    ∀ e ∈ σ.events runId, e.eventType ≠ .RUN_STARTED := by
  cases hlast : σ.latestEvent runId .RUN_STARTED with
  | none => exact latestEvent_eq_none.mp hlast
  | some started =>
    obtain ⟨hm, ht⟩ := mem_of_latestEvent hlast
    obtain ⟨hqm, hqt⟩ := mem_of_latestEvent hq
    have hlt := hin.queued queued hqm hqt started hm (by rw [ht]; decide)
    rw [hlast] at hl
    simp at hl
    omega

theorem resumeQueued_of_later {queued : AgentEvent} (hin : InOrder (σ.events runId))
    (h : (later (σ.latestEvent runId .RUN_RESUME_QUEUED) queued ||
      later (σ.latestEvent runId .RUN_RESUMED) queued) = true) : ResumeQueued (σ.events runId) := by
  rcases (Bool.or_eq_true _ _).mp h with h | h
  · obtain ⟨r, hr, -⟩ := (Option.any_eq_true _ _).mp h
    obtain ⟨hm, ht⟩ := mem_of_latestEvent hr
    exact ⟨r, hm, ht⟩
  · obtain ⟨r, hr, -⟩ := (Option.any_eq_true _ _).mp h
    obtain ⟨hm, ht⟩ := mem_of_latestEvent hr
    exact hin.resumed r hm ht

theorem prepareExecute_ok (hin : InOrder (σ.events runId))
    (h : prepareExecute runId now σ = .ok (preparation, σ')) :
    Moves false σ σ' ∧ (preparation.invoke = false → σ' = σ ∧ NotExecuted σ runId) := by
  simp only [prepareExecute, bind_eq_ok, requireRun_ok] at h
  obtain ⟨run, σ₁, ⟨⟨row, hrow, rfl⟩, rfl⟩, h⟩ := h
  split at h
  · next hs =>
    obtain ⟨rfl, rfl⟩ := pure_eq_ok.mp h
    exact ⟨.refl _, fun _ =>
      ⟨rfl, .inl ((underway_eq hrow).trans (RunStatus.underway_eq_false.mpr hs))⟩⟩
  next hs =>
  have hunderway : row.status.underway := RunStatus.underway_of_not hs
  simp only [bind_eq_ok, latestEventOfType_ok] at h
  obtain ⟨queued?, σ₁, ⟨hqueued, rfl⟩, h⟩ := h
  split at h
  · obtain ⟨rfl, rfl⟩ := pure_eq_ok.mp h
    exact ⟨.refl _, fun _ => ⟨rfl, .inr (.inr hqueued.symm)⟩⟩
  next queued =>
  simp only [bind_eq_ok, latestEventOfType_ok] at h
  obtain ⟨_, σ₁, ⟨rfl, rfl⟩, _, σ₁, ⟨rfl, rfl⟩, h⟩ := h
  split at h
  · next hlater =>
    obtain ⟨rfl, rfl⟩ := pure_eq_ok.mp h
    exact ⟨.refl _, fun _ => ⟨rfl, .inr (.inl (resumeQueued_of_later hin hlater))⟩⟩
  next hlater =>
  have hnone : ¬ ResumeQueued _ := not_resumeQueued hin hqueued.symm
    ((Bool.or_eq_false_iff.mp (Bool.eq_false_iff.mpr hlater)).1)
  simp only [bind_eq_ok, latestEventOfType_ok] at h
  obtain ⟨_, σ₁, ⟨rfl, rfl⟩, h⟩ := h
  split at h
  · next hq =>
    simp only [bind_eq_ok, setLifecycle_ok] at h
    obtain ⟨run, σ₂, ⟨row', hrow', rfl, rfl⟩, h⟩ := h
    obtain rfl : row = row' := Option.some.inj (hrow.symm.trans hrow')
    have hrunning : Moves false _ _ := Moves.row hrow
      (.runs (row.startedAt.orElse fun _ => some now) hq)
    split at h
    · next hstarted =>
      simp only [bind_eq_ok, appendEvent_ok, pure_eq_ok] at h
      obtain ⟨_, σ₂, ⟨-, rfl, rfl⟩, rfl, rfl⟩ := h
      refine ⟨hrunning.trans (.event (Function.update_self ..) (.starts [] rfl hnone ?_)),
        fun hf => by cases hf⟩
      exact not_started hin hqueued.symm hstarted
    · obtain ⟨rfl, rfl⟩ := pure_eq_ok.mp h
      exact ⟨hrunning, fun hf => by cases hf⟩
  · next hnot =>
    split at h
    · next hrunning =>
      rcases RunStatus.underway_iff.mp hunderway with hs' | hs'
      · exact absurd hs' hnot
      · exact absurd hs' hrunning
    · obtain ⟨rfl, rfl⟩ := pure_eq_ok.mp h
      exact ⟨.refl _, fun hf => by cases hf⟩

/-- The end of `beginResume`, with its test for the event as `due`. -/
theorem appendResumed_ok {row : AgentRun} {due : Bool} {payload : Option Payload}
    (h : (if due then do
        let _ ← appendEvent runId .RUN_RESUMED []
        pure ⟨run, true, payload⟩
      else pure ⟨run, true, payload⟩ : Transaction RunExecutionPreparation) σ =
        .ok (preparation, σ'))
    (hrow : σ.runs runId = some row) (hunderway : row.status.underway)
    (hresume : ResumeQueued (σ.events runId))
    (hdue : due = true → ∀ e ∈ σ.events runId, e.eventType = .RUN_RESUMED →
      ∃ r ∈ σ.events runId, r.eventType = .RUN_RESUME_QUEUED ∧ e.sequenceNo < r.sequenceNo) :
    Moves false σ σ' ∧ preparation = ⟨run, true, payload⟩ := by
  split at h
  · next hd =>
    simp only [bind_eq_ok, appendEvent_ok, pure_eq_ok] at h
    obtain ⟨_, σ₁, ⟨-, rfl, rfl⟩, rfl, rfl⟩ := h
    exact ⟨.event hrow (.resumes [] hunderway hresume (hdue hd)), rfl⟩
  · obtain ⟨rfl, rfl⟩ := pure_eq_ok.mp h
    exact ⟨.refl _, rfl⟩

theorem beginResume_ok (hin : InOrder (σ.events runId)) {row : AgentRun} {event : Option AgentEvent}
    {resumeQueued : AgentEvent} (hrow : σ.runs runId = some row) (hunderway : row.status.underway)
    (hqueued : σ.latestEvent runId .RUN_RESUME_QUEUED = some resumeQueued)
    (h : beginResume runId (toRun row event) resumeQueued σ = .ok (preparation, σ')) :
    Moves false σ σ' ∧ preparation.run.id = row.id ∧ preparation.invoke = true ∧
      preparation.resumePayload = some resumeQueued.payload := by
  obtain ⟨hmem, htype⟩ := mem_of_latestEvent hqueued
  -- every earlier resumption is earlier than the latest, which is earlier than the resume
  have hdue : (σ.latestEvent runId .RUN_RESUMED).all (·.sequenceNo < resumeQueued.sequenceNo) =
    true →
      ∀ e ∈ σ.events runId, e.eventType = .RUN_RESUMED →
        ∃ r ∈ σ.events runId, r.eventType = .RUN_RESUME_QUEUED ∧ e.sequenceNo < r.sequenceNo := by
    intro hall e he het
    cases hlast : σ.latestEvent runId .RUN_RESUMED with
    | none => exact absurd het (latestEvent_eq_none.mp hlast e he)
    | some last =>
      have hle := le_latestEvent hin hlast he het
      rw [hlast, Option.all_some, decide_eq_true_eq] at hall
      exact ⟨resumeQueued, hmem, htype, by omega⟩
  have hresume : ResumeQueued (σ.events runId) := ⟨resumeQueued, hmem, htype⟩
  simp only [beginResume, bind_eq_ok, latestEventOfType_ok] at h
  obtain ⟨_, σ₁, ⟨rfl, rfl⟩, h⟩ := h
  split at h
  · next hq =>
    simp only [bind_eq_ok, setLifecycle_ok] at h
    obtain ⟨_, σ₂, ⟨row', hrow', rfl, rfl⟩, h⟩ := h
    obtain rfl : row = row' := Option.some.inj (hrow.symm.trans hrow')
    obtain ⟨hm, rfl⟩ := appendResumed_ok h (Function.update_self ..) rfl hresume hdue
    exact ⟨(Moves.row hrow (.runs row.startedAt hq)).trans hm, rfl, rfl, rfl⟩
  · simp only [bind_eq_ok, pure_eq_ok] at h
    obtain ⟨_, σ₂, ⟨rfl, rfl⟩, h⟩ := h
    obtain ⟨hm, rfl⟩ := appendResumed_ok h hrow hunderway hresume hdue
    exact ⟨hm, rfl, rfl, rfl⟩

theorem prepareResume_ok (hin : InOrder (σ.events runId))
    (h : prepareResume runId σ = .ok (preparation, σ')) :
    Moves false σ σ' ∧ (preparation.invoke = false →
      σ' = σ ∧ (σ.underway runId = false ∨ ¬ ResumeQueued (σ.events runId))) ∧
    (preparation.invoke = true → ∃ row resumeQueued, σ.runs runId = some row ∧
      preparation.run.id = row.id ∧
      σ.latestEvent runId .RUN_RESUME_QUEUED = some resumeQueued ∧
      preparation.resumePayload = some resumeQueued.payload) := by
  simp only [prepareResume, bind_eq_ok, requireRun_ok] at h
  obtain ⟨run, σ₁, ⟨⟨row, hrow, rfl⟩, rfl⟩, h⟩ := h
  split at h
  · next hs =>
    obtain ⟨rfl, rfl⟩ := pure_eq_ok.mp h
    exact ⟨.refl _, fun _ =>
      ⟨rfl, .inl ((underway_eq hrow).trans (RunStatus.underway_eq_false.mpr hs))⟩,
      fun h => by cases h⟩
  next hs =>
  have hunderway : row.status.underway := RunStatus.underway_of_not hs
  split at h
  · next hs' =>
    rcases RunStatus.underway_iff.mp hunderway with hq | hq
    · exact absurd hq hs'.1
    · exact absurd hq hs'.2
  simp only [bind_eq_ok, latestEventOfType_ok] at h
  obtain ⟨queued?, σ₁, ⟨hqueued, rfl⟩, h⟩ := h
  split at h
  · obtain ⟨rfl, rfl⟩ := pure_eq_ok.mp h
    refine ⟨.refl _, fun _ => ⟨rfl, .inr ?_⟩, fun h => by cases h⟩
    rintro ⟨r, hr, ht⟩
    exact latestEvent_eq_none.mp hqueued.symm r hr ht
  next resumeQueued =>
  obtain ⟨hmem, htype⟩ := mem_of_latestEvent hqueued.symm
  simp only [bind_eq_ok, latestEventOfType_ok] at h
  obtain ⟨_, σ₁, ⟨rfl, rfl⟩, h⟩ := h
  split at h
  · next hstarted =>
    -- a start is earlier than the resume
    obtain ⟨started, hs, hle⟩ := (Option.any_eq_true _ _).mp hstarted
    obtain ⟨hm, ht⟩ := mem_of_latestEvent hs
    have hlt := hin.started started hm ht resumeQueued hmem htype
    simp only [decide_eq_true_eq] at hle
    omega
  · obtain ⟨hm, hid, hi, hpayload⟩ := beginResume_ok hin hrow hunderway hqueued.symm h
    refine ⟨hm, fun hf => ?_, fun _ => ⟨row, resumeQueued, hrow, hid, hqueued.symm, hpayload⟩⟩
    rw [hi] at hf
    cases hf

/-- An outcome that waits without naming its hash. -/
def RunGraphOutcome.malformed (outcome : RunGraphOutcome) : Bool :=
  outcome.kind = .WAITING_CONFIRMATION ∧
    (outcome.waitingPayload.bind (·.text "request_payload_hash")).isNone

/-- A waiting outcome that is accepted names its hash. -/
theorem waitingPayload_ok {outcome : RunGraphOutcome} {payload : Payload}
    (h : waitingPayload outcome = .ok payload) :
    (∃ hash, payload.text "request_payload_hash" = some hash) ∧ outcome.malformed = false := by
  unfold waitingPayload at h
  split at h
  · cases h
  · next payload' hpayload =>
    split at h
    · cases h
    · next hash hhash =>
      cases h
      refine ⟨⟨hash, hhash⟩, ?_⟩
      simp [RunGraphOutcome.malformed, hpayload, hhash]

theorem persistOutcome_ok {outcome : RunGraphOutcome}
    (h : persistOutcome runId outcome now σ = .ok (run, σ')) :
    Moves false σ σ' ∧ σ'.underway runId = false ∧ (σ.underway runId = false → σ' = σ) ∧
      (outcome.malformed → σ.underway runId = false) := by
  simp only [persistOutcome, bind_eq_ok, requireRun_ok] at h
  obtain ⟨run, σ₁, ⟨⟨row, hrow, rfl⟩, rfl⟩, h⟩ := h
  split at h
  · next hs =>
    obtain ⟨rfl, rfl⟩ := pure_eq_ok.mp h
    have hclosed := (underway_eq hrow).trans (RunStatus.underway_eq_false.mpr hs.symm)
    exact ⟨.refl _, hclosed, fun _ => rfl, fun _ => hclosed⟩
  next hs =>
  have hunderway : row.status.underway := RunStatus.underway_of_not fun hs' => hs hs'.symm
  have hopen : ∀ {P : Prop}, σ₁.underway runId = false → P := by
    intro P hclosed
    rw [underway_eq hrow, hunderway] at hclosed
    cases hclosed
  split at h
  · next hkind =>
    simp only [bind_eq_ok, lift_eq_ok, setLifecycle_ok, appendEvent_ok, pure_eq_ok] at h
    obtain ⟨payload, σ₁, ⟨hpayload, rfl⟩, _, σ₂, ⟨row', hrow', rfl, rfl⟩, _, σ₃, ⟨-, rfl, rfl⟩,
        rfl, rfl⟩ := h
    obtain rfl : row = row' := Option.some.inj (hrow.symm.trans hrow')
    obtain ⟨⟨hash, hhash⟩, hformed⟩ := waitingPayload_ok hpayload
    exact ⟨.rowEvent hrow (.waits payload hash hunderway hhash), by
      simp [RunStore.underway, RunStatus.underway],
      hopen, fun hm => by rw [hformed] at hm; cases hm⟩
  · next hkind =>
    simp only [bind_eq_ok, lift_eq_ok, setLifecycle_ok, appendEvent_ok, pure_eq_ok] at h
    obtain ⟨⟨status, type⟩, σ₁, ⟨hproj, rfl⟩, _, σ₂, ⟨row', hrow', rfl, rfl⟩, _, σ₃, ⟨-, rfl, rfl⟩,
        rfl, rfl⟩ := h
    obtain rfl : row = row' := Option.some.inj (hrow.symm.trans hrow')
    exact ⟨.rowEvent hrow (.ends _ status type _ now hunderway hproj), by
      simpa [RunStore.underway] using RunStatus.underway_eq_false.mpr
        (.inr (terminalProjection_terminal hproj).1),
      hopen, fun hm => by simp [RunGraphOutcome.malformed, hkind] at hm⟩

theorem markFinalFailure_ok {errorCode : String}
    (h : markFinalFailure runId errorCode now σ = .ok (run, σ')) :
    Moves true σ σ' ∧ (∃ row, σ'.runs runId = some row ∧ row.status.terminal) ∧
      ((∃ row, σ.runs runId = some row ∧ row.status.terminal) → σ' = σ) ∧
        ∀ r, r ≠ runId → σ'.runs r = σ.runs r := by
  simp only [markFinalFailure, bind_eq_ok, requireRun_ok] at h
  obtain ⟨run, σ₁, ⟨⟨row, hrow, rfl⟩, rfl⟩, h⟩ := h
  split at h
  · next hs =>
    obtain ⟨rfl, rfl⟩ := pure_eq_ok.mp h
    exact ⟨.refl _, ⟨row, hrow, hs⟩, fun _ => rfl, fun _ _ => rfl⟩
  · next hs =>
    simp only [bind_eq_ok, setLifecycle_ok, appendEvent_ok, pure_eq_ok] at h
    obtain ⟨_, σ₂, ⟨row', hrow', rfl, rfl⟩, _, σ₃, ⟨-, rfl, rfl⟩, rfl, rfl⟩ := h
    obtain rfl : row = row' := Option.some.inj (hrow.symm.trans hrow')
    refine ⟨.rowEvent hrow (.failure _ now rfl (Bool.eq_false_iff.mpr hs)),
      ⟨_, Function.update_self .., rfl⟩, ?_,
      fun r hr => Function.update_of_ne hr ..⟩
    rintro ⟨row', hrow', ht⟩
    obtain rfl : row = row' := Option.some.inj (hrow.symm.trans hrow')
    exact absurd ht hs

/-! ## When they go through -/

theorem markFinalFailure_goes {row : AgentRun} (hrow : σ.runs runId = some row) (errorCode : String)
    (now : Nat) :
    ∃ run σ', markFinalFailure runId errorCode now σ = .ok (run, σ') := by
  unfold markFinalFailure
  rw [bind_of_ok (requireRun_ok.mpr ⟨⟨row, hrow, rfl⟩, rfl⟩)]
  split
  · exact ⟨_, _, rfl⟩
  · rw [bind_of_ok (setLifecycle_ok.mpr ⟨row, hrow, rfl, rfl⟩),
      bind_of_ok (appendEvent_ok.mpr ⟨by simp, rfl, rfl⟩)]
    exact ⟨_, _, rfl⟩

theorem waitingPayload_goes {outcome : RunGraphOutcome}
    (hkind : outcome.kind = .WAITING_CONFIRMATION) (h : outcome.malformed = false) :
    ∃ payload, waitingPayload outcome = .ok payload := by
  unfold waitingPayload
  cases hp : outcome.waitingPayload with
  | none => simp [RunGraphOutcome.malformed, hkind, hp] at h
  | some payload =>
    cases ht : payload.text "request_payload_hash" with
    | none => simp [RunGraphOutcome.malformed, hkind, hp, ht] at h
    | some hash => exact ⟨payload, by simp [ht]⟩

theorem persistOutcome_goes {row : AgentRun} (hrow : σ.runs runId = some row)
    {outcome : RunGraphOutcome} (h : outcome.malformed = false) (now : Nat) :
    ∃ run σ', persistOutcome runId outcome now σ = .ok (run, σ') := by
  unfold persistOutcome
  rw [bind_of_ok (requireRun_ok.mpr ⟨⟨row, hrow, rfl⟩, rfl⟩)]
  split
  · exact ⟨_, _, rfl⟩
  split
  · next hkind =>
    obtain ⟨payload, hpayload⟩ := waitingPayload_goes hkind h
    rw [bind_of_ok (lift_eq_ok.mpr ⟨hpayload, rfl⟩),
      bind_of_ok (setLifecycle_ok.mpr ⟨row, hrow, rfl, rfl⟩),
      bind_of_ok (appendEvent_ok.mpr ⟨by simp, rfl, rfl⟩)]
    exact ⟨_, _, rfl⟩
  · next hkind =>
    obtain ⟨⟨status, type⟩, hprojection⟩ : ∃ projection,
        terminalProjection outcome.kind = .ok projection := by
      cases hk : outcome.kind with
      | WAITING_CONFIRMATION => exact absurd hk hkind
      | SUCCEEDED | REFUSED | CANCELLED => exact ⟨_, rfl⟩
    rw [bind_of_ok (lift_eq_ok.mpr ⟨hprojection, rfl⟩)]
    dsimp only
    rw [bind_of_ok (setLifecycle_ok.mpr ⟨row, hrow, rfl, rfl⟩),
      bind_of_ok (appendEvent_ok.mpr ⟨by simp, rfl, rfl⟩)]
    exact ⟨_, _, rfl⟩

end

/-! ## The requests' transactions -/

/-- The run is put to the queue: its row, its event and its new job say so. -/
structure Opens (settings : Jobs.Settings) (σ σ' : RunStore) (runId : UUID) (type : AgentEventType)
    (payload : Payload) (jobType : String) : Prop where
  closed : σ.underway runId = false
  live : ∀ row, σ.runs runId = some row → ¬ row.status.terminal
  runs : ∃ row : AgentRun, row.id = runId ∧ row.status = .QUEUED ∧
    row.finishedAt = (σ.runs runId).bind (·.finishedAt) ∧
      σ'.runs = Function.update σ.runs runId (some row)
  events : σ'.events = Function.update σ.events runId (addEvent (σ.events runId) type payload)
  jobs : ∃ id now, σ.jobs.find id = none ∧ σ'.jobs =
    Jobs.buildJobModel ⟨jobType, runId.str, maxAttemptsDefault⟩ settings.ns id now :: σ.jobs

section
variable {settings : Jobs.Settings} {request : Request} {run : RunRecord}

theorem enqueue_ok {r : Jobs.EnqueueJobRequest} {id : UUID} {u : Unit}
    (h : enqueue settings r id now σ = .ok (u, σ')) : σ.jobs.find id = none ∧
      σ' = { σ with jobs := Jobs.buildJobModel r settings.ns id now :: σ.jobs } := by
  simp only [enqueue, bind_eq_ok, get_eq_ok] at h
  obtain ⟨_, σ₁, ⟨rfl, rfl⟩, h⟩ := h
  cases hjobs : Jobs.enqueue settings σ₁.jobs r id now with
  | error e =>
    rw [hjobs] at h
    exact absurd h throw_eq_ok
  | ok jobs =>
    rw [hjobs] at h
    obtain ⟨-, hnew, rfl⟩ := Jobs.enqueue_eq_ok.mp hjobs
    exact ⟨hnew, set_eq_ok.mp h⟩

theorem requireThread_ok {command : CreateRunCommand} {companyId : UUID} {thread : Thread}
    (h : requireThread request command companyId σ = .ok (thread, σ')) :
    ∃ threads, σ' = { σ with threads := threads } := by
  unfold requireThread at h
  cases hthread : command.threadId with
  | none =>
    rw [hthread] at h
    simp only [createThread, bind_eq_ok, get_eq_ok] at h
    obtain ⟨_, _, ⟨rfl, rfl⟩, h⟩ := h
    split at h
    · exact absurd h throw_eq_ok
    · simp only [bind_eq_ok, set_eq_ok, pure_eq_ok] at h
      obtain ⟨_, _, rfl, -, rfl⟩ := h
      exact ⟨_, rfl⟩
  | some threadId =>
    rw [hthread] at h
    simp only [getThread, bind_eq_ok, get_eq_ok, pure_eq_ok] at h
    obtain ⟨thread?, _, ⟨_, _, ⟨rfl, rfl⟩, -, rfl⟩, h⟩ := h
    cases thread? with
    | none => exact absurd h throw_eq_ok
    | some thread =>
      dsimp only at h
      split at h
      · exact absurd h throw_eq_ok
      · obtain ⟨-, rfl⟩ := pure_eq_ok.mp h
        exact ⟨_, rfl⟩

theorem createRun_ok {command : CreateRunCommand}
    (h : createRun settings request command σ = .ok (run, σ')) :
    σ.runs request.runId = none ∧ Opens settings σ σ' request.runId .RUN_QUEUED
      [("query_text", .str (strip command.queryText))] EXECUTE_AGENT_RUN := by
  unfold createRun at h
  split at h
  · exact absurd h throw_eq_ok
  cases hauth : request.authorizeProject command.projectId with
  | error e =>
    rw [hauth] at h
    exact absurd h throw_eq_ok
  | ok companyId =>
  rw [hauth] at h
  simp only [bind_eq_ok, createRunRow, get_eq_ok] at h
  obtain ⟨thread, σ₁, hthread, run, σ₂, ⟨_, _, ⟨rfl, rfl⟩, hrow⟩, h⟩ := h
  obtain ⟨threads, rfl⟩ := requireThread_ok hthread
  split at hrow
  · exact absurd hrow throw_eq_ok
  next hfree =>
  simp only [bind_eq_ok, set_eq_ok, pure_eq_ok] at hrow
  obtain ⟨_, _, rfl, rfl, rfl⟩ := hrow
  simp only [appendEvent_ok, toRun] at h
  obtain ⟨_, σ₃, ⟨-, rfl, rfl⟩, _, σ₄, henqueue, -, rfl⟩ := h
  obtain ⟨hnew, rfl⟩ := enqueue_ok henqueue
  have hnone : σ.runs request.runId = none := by simpa using hfree
  refine ⟨hnone, ?_, ?_, ⟨_, rfl, rfl, by rw [hnone]; rfl, rfl⟩, rfl, ⟨_, _, hnew, rfl⟩⟩
  · rw [RunStore.underway, hnone]
    rfl
  · intro row hrow
    rw [hnone] at hrow
    cases hrow

/-- What `resume_run` has checked of its run. -/
theorem checkResume_ok {companyId : UUID} {u : Unit}
    (h : checkResume request run companyId = .ok u) :
    companyId = run.companyId ∧ request.userId = run.userId ∧ run.businessMode = .ISSUE_CREATE ∧
      run.status = .WAITING_CONFIRMATION := by
  unfold checkResume at h
  split at h
  · cases h
  next hcompany =>
  split at h
  · cases h
  next huser =>
  split at h
  · cases h
  next hmode =>
  split at h
  · cases h
  next hstatus =>
  exact ⟨not_not.mp hcompany, not_not.mp huser, not_not.mp hmode, not_not.mp hstatus⟩

/-- The hash that was given is the waiting event's. -/
theorem checkHash_ok {waiting : Option AgentEvent} {hash : String} {u : Unit}
    (h : checkHash waiting hash = .ok u) :
    ∃ event, waiting = some event ∧ event.payload.text "request_payload_hash" = some hash := by
  unfold checkHash at h
  split at h
  · cases h
  next event =>
  split at h
  · cases h
  next expected hexpected =>
  split at h
  · cases h
  next hne =>
  exact ⟨event, rfl, by rw [hexpected, not_not.mp hne]⟩

/-- A resume request that the run's state and the authorization allow. -/
structure Accepts (request : Request) (σ : RunStore) (runId : UUID) (command : ResumeRunCommand)
    (row : AgentRun) :
    Prop where
  run : σ.runs runId = some row
  waiting : row.status = .WAITING_CONFIRMATION
  user : request.userId = row.userId
  authorized : request.authorizeProject row.projectId = .ok row.companyId
  mode : row.businessMode = .ISSUE_CREATE
  hash : ∃ event, σ.latestEvent runId .WAITING_CONFIRMATION = some event ∧
    event.payload.text "request_payload_hash" = some command.requestPayloadHash

/-- What an accepted request leaves for the worker. -/
def acceptedPayload (request : Request) (command : ResumeRunCommand) : Payload :=
  [("action", .str command.action.value), ("request_payload_hash", .str command.requestPayloadHash),
    ("actor_id", .str request.userId.str)]

theorem resumeRun_ok {command : ResumeRunCommand}
    (hid : ∀ row, σ.runs runId = some row → row.id = runId)
    (h : resumeRun settings request runId command σ = .ok (run, σ')) :
    (∃ row, Accepts request σ runId command row) ∧
      Opens settings σ σ' runId .RUN_RESUME_QUEUED
        (acceptedPayload request command) RESUME_AGENT_RUN := by
  simp only [resumeRun, bind_eq_ok, getRun_ok] at h
  obtain ⟨run?, σ₁, ⟨hrun, rfl⟩, h⟩ := h
  split at h
  · exact absurd h throw_eq_ok
  next run =>
  obtain ⟨row, hrow, rfl⟩ := Option.map_eq_some_iff.mp hrun.symm
  cases hauth : request.authorizeProject row.projectId with
  | error e =>
    simp only [toRun, hauth] at h
    exact absurd h throw_eq_ok
  | ok companyId =>
  simp only [toRun, hauth] at h
  obtain rfl : row.id = runId := hid row hrow
  simp only [bind_eq_ok, lift_eq_ok, latestEventOfType_ok, appendEvent_ok, setStatus_ok,
    pure_eq_ok] at h
  obtain ⟨_, σ₁, ⟨hcheck, rfl⟩, _, σ₁, ⟨rfl, rfl⟩, _, σ₁, ⟨hhash, rfl⟩, _, σ₂, ⟨-, rfl, rfl⟩, _, σ₃,
    ⟨row', hrow', -, rfl⟩, _, σ₄, henqueue, -, rfl⟩ := h
  obtain rfl : row = row' := Option.some.inj (hrow.symm.trans hrow')
  obtain ⟨hnew, rfl⟩ := enqueue_ok henqueue
  obtain ⟨rfl, huser, hmode, hwaiting⟩ := checkResume_ok hcheck
  dsimp only at huser hmode hwaiting hauth
  refine ⟨⟨row, hrow, hwaiting, huser, hauth, hmode, checkHash_ok hhash⟩, ?_, ?_,
    ⟨{ row with status := .QUEUED }, rfl, rfl, by rw [hrow]; rfl, rfl⟩, rfl, ⟨_, _, hnew, rfl⟩⟩
  · rw [underway_eq hrow, hwaiting]
    rfl
  · intro row₁ hrow₁
    cases hrow.symm.trans hrow₁
    rw [hwaiting]
    decide

end

end ProjectAgent.Runs
