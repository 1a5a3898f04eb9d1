/-
Transactions one statement at a time, as equations for a transaction that
commits; and the order in which a run's events are added.
-/
import Mathlib.Logic.Relation
import ProjectAgent.Runs.Services

namespace ProjectAgent.Runs

variable {α β : Type} {σ σ' σ'' : RunStore} {runId : UUID} {now : Nat} {x : Transaction α}
  {f : α → Transaction β} {a : α} {b : β} {e : RunError}

/-! ## Transactions, one statement at a time -/

@[simp] theorem bind_eq_ok :
    (x >>= f) σ = .ok (b, σ') ↔ ∃ a σ₁, x σ = .ok (a, σ₁) ∧ f a σ₁ = .ok (b, σ') := by
  show (x σ).bind (fun r => f r.1 r.2) = _ ↔ _
  cases h : x σ with
  | error e => simp [Except.bind]
  | ok r =>
    obtain ⟨a, σ₁⟩ := r
    simp [Except.bind]

theorem bind_of_ok (h : x σ = .ok (a, σ')) : (x >>= f) σ = f a σ' := by
  show (x σ).bind (fun r => f r.1 r.2) = _
  rw [h]
  rfl

@[simp] theorem map_eq_ok {g : α → β} :
    (g <$> x) σ = .ok (b, σ') ↔ ∃ a, x σ = .ok (a, σ') ∧ b = g a := by
  rw [map_eq_pure_bind, bind_eq_ok]
  constructor
  · rintro ⟨a, σ₁, hx, hp⟩
    obtain ⟨rfl, rfl⟩ : b = g a ∧ σ' = σ₁ := by
      have hp' : (Except.ok (g a, σ₁) : Except RunError (β × RunStore)) = .ok (b, σ') := hp
      cases hp'
      exact ⟨rfl, rfl⟩
    exact ⟨a, hx, rfl⟩
  · rintro ⟨a, hx, rfl⟩
    exact ⟨a, σ', hx, rfl⟩

@[simp] theorem pure_eq_ok {c : α} : (pure c : Transaction α) σ = .ok (a, σ') ↔ a = c ∧ σ' = σ := by
  show Except.ok (c, σ) = Except.ok (a, σ') ↔ _
  simp [eq_comm]

@[simp] theorem throw_eq_ok : ¬ (throw e : Transaction α) σ = .ok (a, σ') := fun h => by cases h

@[simp] theorem get_eq_ok {τ : RunStore} :
    (get : Transaction RunStore) σ = .ok (τ, σ') ↔ τ = σ ∧ σ' = σ := by
  show Except.ok (σ, σ) = Except.ok (τ, σ') ↔ _
  simp [eq_comm]

@[simp] theorem set_eq_ok {τ : RunStore} {u : PUnit} :
    (set τ : Transaction PUnit) σ = .ok (u, σ') ↔ σ' = τ := by
  show Except.ok (⟨⟩, τ) = Except.ok (u, σ') ↔ _
  simp [eq_comm]

@[simp] theorem lift_eq_ok {r : Except RunError α} :
    (liftM r : Transaction α) σ = .ok (a, σ') ↔ r = .ok a ∧ σ' = σ := by
  cases r with
  | error e => exact ⟨fun h => (nomatch h), fun h => (nomatch h.1)⟩
  | ok c =>
    show Except.ok (c, σ) = Except.ok (a, σ') ↔ _
    simp [eq_comm]

@[simp] theorem getRun_ok {run : Option RunRecord} : getRun runId σ = .ok (run, σ') ↔
    run = (σ.runs runId).map (toRun · (latestTerminalEvent σ runId)) ∧ σ' = σ := by
  simp [getRun, and_comm]

@[simp] theorem latestEventOfType_ok {type : AgentEventType} {event : Option AgentEvent} :
    latestEventOfType runId type σ = .ok (event, σ') ↔ event = σ.latestEvent runId type ∧
      σ' = σ := by
  simp [latestEventOfType, and_comm]

@[simp] theorem requireRun_ok {run : RunRecord} : requireRun runId σ = .ok (run, σ') ↔
    (∃ row, σ.runs runId = some row ∧ run = toRun row (latestTerminalEvent σ runId)) ∧ σ' = σ := by
  cases h : σ.runs runId with
  | none => simp [requireRun, h]
  | some row => simp [requireRun, h]

@[simp] theorem setLifecycle_ok {status : RunStatus} {startedAt finishedAt : Option Nat}
    {run : RunRecord} :
    setLifecycle runId status startedAt finishedAt σ = .ok (run, σ') ↔
      ∃ row, σ.runs runId = some row ∧
        run = toRun { row with
          status := status, startedAt := startedAt, finishedAt := finishedAt } none ∧
        σ' = { σ with runs := Function.update σ.runs runId (some { row with
          status := status, startedAt := startedAt, finishedAt := finishedAt }) } := by
  cases h : σ.runs runId with
  | none => simp [setLifecycle, h]
  | some row => simp [setLifecycle, h, and_comm]

@[simp] theorem setStatus_ok {status : RunStatus} {run : RunRecord} :
    setStatus runId status σ = .ok (run, σ') ↔
      ∃ row, σ.runs runId = some row ∧ run = toRun { row with status := status } none ∧
        σ' = { σ with runs := Function.update σ.runs runId (some { row with
          status := status }) } := by
  cases h : σ.runs runId with
  | none => simp [setStatus, h]
  | some row => simp [setStatus, h, and_comm]

@[simp] theorem appendEvent_ok {type : AgentEventType} {payload : Payload} {event : AgentEvent} :
    appendEvent runId type payload σ = .ok (event, σ') ↔ (σ.runs runId).isSome ∧
      event = ⟨nextSequence (σ.events runId), type, payload⟩ ∧
      σ' = { σ with events := Function.update σ.events runId (event :: σ.events runId) } := by
  cases h : σ.runs runId with
  | none => simp [appendEvent, h]
  | some row =>
    simp [appendEvent, h]
    constructor
    · rintro ⟨rfl, rfl⟩
      exact ⟨rfl, rfl⟩
    · rintro ⟨rfl, rfl⟩
      exact ⟨rfl, rfl⟩

/-! ## Events -/

def ResumeQueued (events : List AgentEvent) : Prop := ∃ r ∈ events, r.eventType = .RUN_RESUME_QUEUED

/-- The latest event comes first; the first of all is that the run was queued,
nothing starts it once a resume is queued, and nothing resumes it before. -/
structure InOrder (events : List AgentEvent) : Prop where
  descending : events.Pairwise fun e e' => e'.sequenceNo < e.sequenceNo
  queued : ∀ q ∈ events, q.eventType = .RUN_QUEUED →
    ∀ e ∈ events, e.eventType ≠ .RUN_QUEUED → q.sequenceNo < e.sequenceNo
  started : ∀ s ∈ events, s.eventType = .RUN_STARTED →
    ∀ r ∈ events, r.eventType = .RUN_RESUME_QUEUED → s.sequenceNo < r.sequenceNo
  resumed : ∀ e ∈ events, e.eventType = .RUN_RESUMED → ResumeQueued events

/-- When an event of this type keeps the order. -/
def Admits (events : List AgentEvent) : AgentEventType → Prop
  | .RUN_QUEUED => events = []
  | .RUN_STARTED => ¬ ResumeQueued events
  | .RUN_RESUMED => ResumeQueued events
  | _ => True

theorem lt_nextSequence {events : List AgentEvent} {e : AgentEvent} (h : e ∈ events) :
    e.sequenceNo < nextSequence events := by
  have hle : ∀ (ns : List Nat) (n : Nat), n ∈ ns → n ≤ ns.foldr max 0 := by
    intro ns n hn
    induction ns with
    | nil => cases hn
    | cons m ns ih =>
      rw [List.foldr_cons]
      rcases List.mem_cons.mp hn with rfl | hn
      · omega
      · have := ih hn
        omega
  exact Nat.lt_succ_of_le (hle _ _ (List.mem_map_of_mem (f := AgentEvent.sequenceNo) h))

theorem ResumeQueued.cons {events : List AgentEvent} (e : AgentEvent) (h : ResumeQueued events) :
    ResumeQueued (e :: events) := by
  obtain ⟨r, hr, ht⟩ := h
  exact ⟨r, List.mem_cons_of_mem e hr, ht⟩

theorem InOrder.cons {events : List AgentEvent} {type : AgentEventType} (payload : Payload)
    (h : InOrder events) (ha : Admits events type) :
    InOrder (⟨nextSequence events, type, payload⟩ :: events) := by
  refine ⟨List.pairwise_cons.mpr ⟨fun e he => lt_nextSequence he, h.descending⟩,
    fun q hq hqt e he het => ?_,
    fun s hs hst r hr hrt => ?_, fun e he het => ?_⟩
  · rcases List.mem_cons.mp hq with rfl | hq
    · obtain rfl : type = .RUN_QUEUED := hqt
      obtain rfl : events = [] := ha
      obtain rfl := List.mem_singleton.mp he
      exact absurd rfl het
    · rcases List.mem_cons.mp he with rfl | he
      · exact lt_nextSequence hq
      · exact h.queued q hq hqt e he het
  · rcases List.mem_cons.mp hs with rfl | hs
    · obtain rfl : type = .RUN_STARTED := hst
      rcases List.mem_cons.mp hr with rfl | hr
      · cases hrt
      · exact absurd ⟨r, hr, hrt⟩ ha
    · rcases List.mem_cons.mp hr with rfl | hr
      · exact lt_nextSequence hs
      · exact h.started s hs hst r hr hrt
  · rcases List.mem_cons.mp he with rfl | he
    · obtain rfl : type = .RUN_RESUMED := het
      exact ResumeQueued.cons _ ha
    · exact (h.resumed e he het).cons _

theorem mem_of_latestEvent {type : AgentEventType} {event : AgentEvent}
    (h : σ.latestEvent runId type = some event) : event ∈ σ.events runId ∧ event.eventType = type :=
  ⟨List.mem_of_find?_eq_some h, by simpa using List.find?_some h⟩

/-- The latest event of a type is later than any other of it. -/
theorem le_latestEvent {type : AgentEventType} {event e : AgentEvent}
    (hin : InOrder (σ.events runId)) (h : σ.latestEvent runId type = some event)
    (he : e ∈ σ.events runId) (ht : e.eventType = type) :
    e.sequenceNo ≤ event.sequenceNo := by
  obtain ⟨-, newer, older, hsplit, hnewer⟩ := List.find?_eq_some_iff_append.mp h
  have hdesc := hin.descending
  rw [hsplit] at he hdesc
  rcases List.mem_append.mp he with he | he
  · have := hnewer e he
    simp [ht] at this
  · rcases List.mem_cons.mp he with rfl | he
    · exact Nat.le_refl _
    · have hlt := (List.pairwise_cons.mp (List.pairwise_append.mp hdesc).2.1).1 e he
      omega

theorem latestEvent_eq_none {type : AgentEventType} :
    σ.latestEvent runId type = none ↔ ∀ e ∈ σ.events runId, e.eventType ≠ type := by
  simp [RunStore.latestEvent]

/-- One event more, as an attempt adds them. -/
def Adds (events events' : List AgentEvent) : Prop :=
  ∃ type payload, Admits events type ∧ type ≠ .RUN_QUEUED ∧ type ≠ .RUN_RESUME_QUEUED ∧
    events' = ⟨nextSequence events, type, payload⟩ :: events

end ProjectAgent.Runs
