/-
A run's life as its row and its events show it: the elementary changes that an
attempt's transactions are made of. Only the last of them, the final failure,
can reach a run that waits.
-/
import Mathlib.Logic.Relation
import ProjectAgent.Runs.Effects

namespace ProjectAgent.Runs

/-- `QUEUED` or `RUNNING`. -/
def RunStatus.underway : RunStatus → Bool
  | QUEUED | RUNNING => true
  | _ => false

theorem RunStatus.underway_iff {status : RunStatus} :
    status.underway ↔ status = .QUEUED ∨ status = .RUNNING := by
  cases status <;> decide

theorem RunStatus.underway_eq_false {status : RunStatus} :
    status.underway = false ↔ status = .WAITING_CONFIRMATION ∨ status.terminal := by
  cases status <;> decide

theorem RunStatus.underway_of_not {status : RunStatus}
    (h : ¬ (status = .WAITING_CONFIRMATION ∨ status.terminal)) :
    status.underway := by
  cases hu : status.underway with
  | true => rfl
  | false => exact absurd (RunStatus.underway_eq_false.mp hu) h

theorem RunStatus.not_terminal_of_underway {status : RunStatus} (h : status.underway) :
    status.terminal = false := by
  cases ht : status.terminal with
  | false => rfl
  | true =>
    rw [RunStatus.underway_eq_false.mpr (.inr ht)] at h
    cases h

/-- An event of this type is added. -/
def addEvent (events : List AgentEvent) (type : AgentEventType) (payload : Payload) :
    List AgentEvent :=
  ⟨nextSequence events, type, payload⟩ :: events

/-- One elementary change of a run; `fails` allows the final failure. -/
inductive Lifecycle (fails : Bool) :
    AgentRun × List AgentEvent → AgentRun × List AgentEvent → Prop where
  | runs {row : AgentRun} {events : List AgentEvent} (startedAt : Option Nat)
      (h : row.status = .QUEUED) :
    Lifecycle fails (row, events)
      ({ row with status := .RUNNING, startedAt := startedAt, finishedAt := none }, events)
  | starts {row : AgentRun} {events : List AgentEvent} (payload : Payload) (h : row.status.underway)
      (hresume : ¬ ResumeQueued events)
      (hnew : ∀ e ∈ events, e.eventType ≠ .RUN_STARTED) :
    Lifecycle fails (row, events) (row, addEvent events .RUN_STARTED payload)
  | resumes {row : AgentRun} {events : List AgentEvent} (payload : Payload)
      (h : row.status.underway) (hresume : ResumeQueued events)
      (hnew : ∀ e ∈ events, e.eventType = .RUN_RESUMED →
        ∃ r ∈ events, r.eventType = .RUN_RESUME_QUEUED ∧ e.sequenceNo < r.sequenceNo) :
    Lifecycle fails (row, events) (row, addEvent events .RUN_RESUMED payload)
  | artifact {row : AgentRun} {events : List AgentEvent} (payload : Payload) :
    Lifecycle fails (row, events) (row, addEvent events .ARTIFACT_AVAILABLE payload)
  | waits {row : AgentRun} {events : List AgentEvent} (payload : Payload) (hash : String)
      (h : row.status.underway)
      (hhash : payload.text "request_payload_hash" = some hash) :
    Lifecycle fails (row, events)
      ({ row with status := .WAITING_CONFIRMATION, finishedAt := none },
        addEvent events .WAITING_CONFIRMATION payload)
  | ends {row : AgentRun} {events : List AgentEvent} (kind : RunGraphOutcomeKind)
      (status : RunStatus) (type : AgentEventType) (payload : Payload)
      (now : Nat) (h : row.status.underway) (hkind : terminalProjection kind = .ok (status, type)) :
    Lifecycle fails (row, events)
      ({ row with status := status, finishedAt := some now }, addEvent events type payload)
  | failure {row : AgentRun} {events : List AgentEvent} (payload : Payload) (now : Nat)
      (hfails : fails = true)
      (h : row.status.terminal = false) :
    Lifecycle fails (row, events)
      ({ row with status := .FAILED, finishedAt := some now }, addEvent events .RUN_FAILED payload)

variable {fails : Bool} {row row' : AgentRun} {events events' : List AgentEvent}

theorem terminalProjection_ok {kind : RunGraphOutcomeKind} {status : RunStatus}
    {type : AgentEventType} (h : terminalProjection kind = .ok (status, type)) :
    status = .SUCCEEDED ∧ type = .RUN_SUCCEEDED ∨ status = .REFUSED ∧ type = .RUN_REFUSED ∨
      status = .CANCELLED ∧ type = .RUN_CANCELLED := by
  cases kind with
  | WAITING_CONFIRMATION => cases h
  | SUCCEEDED | REFUSED | CANCELLED =>
    cases h
    simp

theorem terminalProjection_terminal {kind : RunGraphOutcomeKind} {status : RunStatus}
    {type : AgentEventType} (h : terminalProjection kind = .ok (status, type)) :
    status.terminal ∧ type.terminal := by
  rcases terminalProjection_ok h with ⟨rfl, rfl⟩ | ⟨rfl, rfl⟩ | ⟨rfl, rfl⟩ <;> decide

/-! ## What every change keeps -/

structure RowMoves (row row' : AgentRun) : Prop where
  id : row'.id = row.id
  underway : row'.status.underway → row.status.underway
  terminal : row.status.terminal → row' = row

theorem RowMoves.refl (row : AgentRun) : RowMoves row row := ⟨rfl, fun h => h, fun _ => rfl⟩

theorem RowMoves.trans {row'' : AgentRun} (h : RowMoves row row') (h' : RowMoves row' row'') :
    RowMoves row row'' := by
  refine ⟨h'.id.trans h.id, fun hu => h.underway (h'.underway hu), fun ht => ?_⟩
  obtain rfl := h.terminal ht
  exact h'.terminal ht

theorem RowMoves.of_not_terminal (hid : row'.id = row.id) (ht : row.status.terminal = false)
    (hu : row'.status.underway → row.status.underway) : RowMoves row row' :=
  ⟨hid, hu, fun h => by rw [ht] at h; cases h⟩

theorem Lifecycle.rowMoves (h : Lifecycle fails (row, events) (row', events')) :
    RowMoves row row' := by
  cases h with
  | runs startedAt h =>
    have hu : row.status.underway := RunStatus.underway_iff.mpr (.inl h)
    exact .of_not_terminal rfl (RunStatus.not_terminal_of_underway hu) fun _ => hu
  | starts | resumes | artifact => exact .refl row
  | waits payload hash h hhash =>
    exact .of_not_terminal rfl (RunStatus.not_terminal_of_underway h) fun _ => h
  | ends kind status type payload now h hkind =>
    exact .of_not_terminal rfl (RunStatus.not_terminal_of_underway h) fun _ => h
  | failure payload now hfails h => exact .of_not_terminal rfl h fun hu => by cases hu

theorem Lifecycle.adds (h : Lifecycle fails (row, events) (row', events')) :
    events' = events ∨ Adds events events' := by
  cases h with
  | runs => exact .inl rfl
  | starts payload h hresume hnew =>
    exact .inr ⟨.RUN_STARTED, payload, hresume, by decide, by decide, rfl⟩
  | resumes payload h hresume hnew =>
    exact .inr ⟨.RUN_RESUMED, payload, hresume, by decide, by decide, rfl⟩
  | artifact payload =>
    exact .inr ⟨.ARTIFACT_AVAILABLE, payload, trivial, by decide, by decide, rfl⟩
  | waits payload hash h hhash =>
    exact .inr ⟨.WAITING_CONFIRMATION, payload, trivial, by decide, by decide, rfl⟩
  | ends kind status type payload now h hkind =>
    rcases terminalProjection_ok hkind with ⟨rfl, rfl⟩ | ⟨rfl, rfl⟩ | ⟨rfl, rfl⟩
    · exact .inr ⟨.RUN_SUCCEEDED, payload, trivial, by decide, by decide, rfl⟩
    · exact .inr ⟨.RUN_REFUSED, payload, trivial, by decide, by decide, rfl⟩
    · exact .inr ⟨.RUN_CANCELLED, payload, trivial, by decide, by decide, rfl⟩
  | failure payload now hfails h =>
    exact .inr ⟨.RUN_FAILED, payload, trivial, by decide, by decide, rfl⟩

/-- Several changes of a run. -/
def Evolves (fails : Bool) (row : AgentRun) (events : List AgentEvent) (row' : AgentRun)
    (events' : List AgentEvent) : Prop :=
  Relation.ReflTransGen (Lifecycle fails) (row, events) (row', events')

theorem Evolves.refl (row : AgentRun) (events : List AgentEvent) :
    Evolves fails row events row events :=
  Relation.ReflTransGen.refl

theorem Evolves.single (h : Lifecycle fails (row, events) (row', events')) :
    Evolves fails row events row' events' :=
  Relation.ReflTransGen.single h

theorem Evolves.trans {row'' : AgentRun} {events'' : List AgentEvent}
    (h : Evolves fails row events row' events') (h' : Evolves fails row' events' row'' events'') :
    Evolves fails row events row'' events'' :=
  Relation.ReflTransGen.trans h h'

/-- A property that each elementary change keeps. -/
theorem Evolves.keeps {P : AgentRun → List AgentEvent → Prop}
    (h : Evolves fails row events row' events')
    (hstep : ∀ {row events row' events'}, P row events →
      Lifecycle fails (row, events) (row', events') → P row' events')
    (h₀ : P row events) : P row' events' := by
  have hall : ∀ {x y : AgentRun × List AgentEvent}, Relation.ReflTransGen (Lifecycle fails) x y →
    P x.1 x.2 →
      P y.1 y.2 := by
    intro x y hxy hx
    induction hxy with
    | refl => exact hx
    | tail _ hstep' ih => exact hstep ih hstep'
  exact hall h h₀

theorem Evolves.rowMoves (h : Evolves fails row events row' events') : RowMoves row row' :=
  h.keeps (P := fun row' _ => RowMoves row row') (fun hm hl => hm.trans hl.rowMoves) (.refl row)

theorem Evolves.adds (h : Evolves fails row events row' events') :
    Relation.ReflTransGen Adds events events' := by
  refine h.keeps (P := fun _ events' => Relation.ReflTransGen Adds events events')
    (fun hadds hl => ?_) .refl
  rcases hl.adds with heq | ha
  · exact heq ▸ hadds
  · exact hadds.tail ha

end ProjectAgent.Runs
