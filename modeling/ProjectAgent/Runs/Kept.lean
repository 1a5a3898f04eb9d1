/-
What every step of the runs and their queue keeps: a run's events are in
order, and its newest job is a resume exactly if a resume has been queued.
-/
import ProjectAgent.Jobs.Rewrites
import ProjectAgent.Runs.Moves

namespace ProjectAgent.Runs

open Jobs (JobTable BackgroundJob QueuedJob SameJob Rewrites)

variable {settings : Jobs.Settings} {σ σ' : RunStore} {runId : UUID} {jobs jobs' : JobTable}

/-! ## A run's newest job -/

/-- An `EXECUTE_AGENT_RUN` or `RESUME_AGENT_RUN` job for the run. -/
def isJobOf (runId : UUID) (row : BackgroundJob) : Bool :=
  (row.jobType == EXECUTE_AGENT_RUN || row.jobType == RESUME_AGENT_RUN) &&
    row.aggregateId == runId.str

def newestJob (jobs : JobTable) (runId : UUID) : Option BackgroundJob :=
  List.find? (isJobOf runId) jobs

theorem newestJob_cons (row : BackgroundJob) (jobs : JobTable) (runId : UUID) :
    newestJob (row :: jobs) runId = if isJobOf runId row then some row
      else newestJob jobs runId := by
  unfold newestJob
  rw [List.find?_cons]
  cases isJobOf runId row with
  | true => rfl
  | false => rfl

theorem newestJob_update {selected : List BackgroundJob} {f : BackgroundJob → BackgroundJob}
    (hf : SameJob f) :
    newestJob (jobs.update selected f) runId =
      (newestJob jobs runId).map fun row => if selected.any (·.id == row.id) then f row
        else row := by
  induction jobs with
  | nil => rfl
  | cons row jobs ih =>
    have htags : isJobOf runId (if selected.any (·.id == row.id) then f row else row) =
        isJobOf runId row := by
      split
      · rw [isJobOf, hf.jobType, hf.aggregateId]
        rfl
      · rfl
    show newestJob (_ :: JobTable.update jobs selected f) runId = _
    rw [newestJob_cons, newestJob_cons, htags, ih]
    by_cases h : isJobOf runId row
    · rw [if_pos h, if_pos h]
      rfl
    · rw [if_neg h, if_neg h]

theorem newestJob_mem {row : BackgroundJob} (h : newestJob jobs runId = some row) :
    row ∈ jobs ∧ isJobOf runId row :=
  ⟨List.mem_of_find?_eq_some h, List.find?_some h⟩

theorem isJobOf_iff {row : BackgroundJob} : isJobOf runId row ↔
    (row.jobType = EXECUTE_AGENT_RUN ∨ row.jobType = RESUME_AGENT_RUN) ∧
      row.aggregateId = runId.str := by
  simp [isJobOf]

/-- A job is one run's at most. -/
theorem isJobOf_unique {row : BackgroundJob} {r : UUID} (h : isJobOf runId row)
    (h' : isJobOf r row) : runId = r :=
  UUID.str_inj ((isJobOf_iff.mp h).2.symm.trans (isJobOf_iff.mp h').2)

/-! ## The invariant -/

structure Kept (σ : RunStore) : Prop where
  unique : σ.jobs.Unique
  ids : ∀ runId row, σ.runs runId = some row → row.id = runId
  queued : ∀ runId row, σ.runs runId = some row → ∃ e ∈ σ.events runId, e.eventType = .RUN_QUEUED
  free : ∀ runId, σ.runs runId = none → σ.events runId = []
  order : ∀ runId, InOrder (σ.events runId)
  newest : ∀ runId row, newestJob σ.jobs runId = some row →
    (row.jobType = RESUME_AGENT_RUN ↔ ResumeQueued (σ.events runId))

theorem Adds.inOrder {events events' : List AgentEvent} (h : Adds events events')
    (hin : InOrder events) :
    InOrder events' := by
  obtain ⟨type, payload, ha, -, -, rfl⟩ := h
  exact hin.cons payload ha

/-- Adding events moves neither of the two that requests write. -/
theorem Adds.mem_iff {events events' : List AgentEvent} {type : AgentEventType}
    (h : Adds events events') (ht : type = .RUN_QUEUED ∨ type = .RUN_RESUME_QUEUED) :
    (∃ e ∈ events', e.eventType = type) ↔ ∃ e ∈ events, e.eventType = type := by
  obtain ⟨type', payload, -, hq, hr, rfl⟩ := h
  have hne : type' ≠ type := by
    rintro rfl
    exact ht.elim hq hr
  simp [hne]

theorem adds_star {events events' : List AgentEvent} (h : Relation.ReflTransGen Adds events events')
    (hin : InOrder events) : InOrder events' ∧
      ∀ type, type = .RUN_QUEUED ∨ type = .RUN_RESUME_QUEUED →
        ((∃ e ∈ events', e.eventType = type) ↔ ∃ e ∈ events, e.eventType = type) := by
  induction h with
  | refl => exact ⟨hin, fun _ _ => Iff.rfl⟩
  | tail _ hadds ih =>
    exact ⟨hadds.inOrder ih.1, fun type ht => (hadds.mem_iff ht).trans (ih.2 type ht)⟩

theorem Kept.moves {fails : Bool} (h : Kept σ) (hm : Moves fails σ σ') : Kept σ' := by
  have hevents := fun runId => adds_star (hm.events runId) (h.order runId)
  refine ⟨hm.jobs ▸ h.unique, fun runId row' hrow' => ?_, fun runId row' hrow' => ?_,
    fun runId hn => ?_,
    fun runId => (hevents runId).1, fun runId row hrow => ?_⟩
  · obtain ⟨row, hrow, hev⟩ := hm.back hrow'
    exact hev.rowMoves.id.trans (h.ids runId row hrow)
  · obtain ⟨row, hrow, -⟩ := hm.back hrow'
    exact ((hevents runId).2 _ (.inl rfl)).mpr (h.queued runId row hrow)
  · rw [hm.run_eq_none] at hn
    rw [(hm.free runId hn).2, h.free runId hn]
  · rw [hm.jobs] at hrow
    exact (h.newest runId row hrow).trans ((hevents runId).2 _ (.inr rfl)).symm

theorem Kept.rewrites (h : Kept σ) {ends : BackgroundJob → Prop} (hr : Rewrites σ.jobs jobs' ends) :
    Kept { σ with jobs := jobs' } := by
  obtain ⟨selected, f, rfl, hf, -⟩ := hr
  refine ⟨h.unique.update hf.id, h.ids, h.queued, h.free, h.order, fun runId row' hrow' => ?_⟩
  dsimp only at hrow'
  rw [newestJob_update hf] at hrow'
  obtain ⟨row, hrow, rfl⟩ := Option.map_eq_some_iff.mp hrow'
  refine Iff.trans (Eq.congr_left ?_) (h.newest runId row hrow)
  split
  · exact hf.jobType row
  · rfl

/-- A job that is no run's. -/
theorem Kept.job (h : Kept σ) {row : BackgroundJob} (hnew : σ.jobs.find row.id = none)
    (hother : ∀ runId, isJobOf runId row = false) : Kept { σ with jobs := row :: σ.jobs } := by
  refine ⟨h.unique.cons hnew, h.ids, h.queued, h.free, h.order, fun runId newest hnewest => ?_⟩
  dsimp only at hnewest
  rw [newestJob_cons, hother runId] at hnewest
  exact h.newest runId newest hnewest

theorem Kept.opens (h : Kept σ) {type : AgentEventType} {payload : Payload} {jobType : String}
    (ho : Opens settings σ σ' runId type payload jobType)
    (htype : type = .RUN_QUEUED ∧ jobType = EXECUTE_AGENT_RUN ∧ σ.runs runId = none ∨
      type = .RUN_RESUME_QUEUED ∧ jobType = RESUME_AGENT_RUN ∧ (σ.runs runId).isSome) :
    Kept σ' := by
  obtain ⟨row, hid, -, -, hruns⟩ := ho.runs
  have hevents := ho.events
  obtain ⟨id, now, hnew, hjobs⟩ := ho.jobs
  have hjob : isJobOf runId (Jobs.buildJobModel ⟨jobType, runId.str,
      maxAttemptsDefault⟩ settings.ns id now) := by
    refine isJobOf_iff.mpr ⟨?_, rfl⟩
    rcases htype with ⟨-, rfl, -⟩ | ⟨-, rfl, -⟩
    · exact .inl rfl
    · exact .inr rfl
  have hadmits : Admits (σ.events runId) type := by
    rcases htype with ⟨rfl, -, hnone⟩ | ⟨rfl, -, -⟩
    · exact h.free runId hnone
    · trivial
  refine ⟨?_, fun r row' hrow' => ?_, fun r row' hrow' => ?_, fun r hn => ?_, fun r => ?_,
    fun r row' hrow' => ?_⟩
  · rw [hjobs]
    exact h.unique.cons hnew
  · rw [hruns] at hrow'
    by_cases hr : r = runId
    · subst hr
      rw [Function.update_self] at hrow'
      cases hrow'
      exact hid
    · rw [Function.update_of_ne hr] at hrow'
      exact h.ids r row' hrow'
  · rw [hruns] at hrow'
    rw [hevents]
    by_cases hr : r = runId
    · subst hr
      rw [Function.update_self]
      rcases htype with ⟨rfl, -, -⟩ | ⟨-, -, hsome⟩
      · exact ⟨_, List.mem_cons_self .., rfl⟩
      · obtain ⟨old, hold⟩ := Option.isSome_iff_exists.mp hsome
        obtain ⟨e, he, het⟩ := h.queued r old hold
        exact ⟨e, List.mem_cons_of_mem _ he, het⟩
    · rw [Function.update_of_ne hr] at hrow' ⊢
      exact h.queued r row' hrow'
  · rw [hruns] at hn
    have hr : r ≠ runId := by
      rintro rfl
      rw [Function.update_self] at hn
      cases hn
    rw [Function.update_of_ne hr] at hn
    rw [hevents, Function.update_of_ne hr]
    exact h.free r hn
  · rw [hevents]
    by_cases hr : r = runId
    · subst hr
      rw [Function.update_self]
      exact (h.order r).cons payload hadmits
    · rw [Function.update_of_ne hr]
      exact h.order r
  · rw [hjobs, newestJob_cons] at hrow'
    rw [hevents]
    by_cases hr : r = runId
    · subst hr
      rw [if_pos hjob] at hrow'
      cases hrow'
      rw [Function.update_self]
      rcases htype with ⟨rfl, rfl, hnone⟩ | ⟨rfl, rfl, -⟩
      · rw [h.free r hnone]
        simp [addEvent, ResumeQueued, Jobs.buildJobModel, EXECUTE_AGENT_RUN, RESUME_AGENT_RUN]
      · exact iff_of_true rfl ⟨_, List.mem_cons_self .., rfl⟩
    · rw [if_neg fun hjob' => hr (isJobOf_unique hjob' hjob)] at hrow'
      rw [Function.update_of_ne hr]
      exact h.newest r row' hrow'

end ProjectAgent.Runs
