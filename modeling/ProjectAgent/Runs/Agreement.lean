/-
Status and event log of a run agree: the row says that the run has ended
exactly if one terminal event of that kind is in the log, and nothing of the
run's life follows it.
-/
import ProjectAgent.Runs.Stranded

namespace ProjectAgent.Runs

open Interleave

/-- An event of the run's life, neither progress nor an artifact. -/
def AgentEventType.lifecycle : AgentEventType → Bool
  | RUN_PROGRESS | ARTIFACT_AVAILABLE => false
  | _ => true

/-- The event that ends a run with this status. -/
def RunStatus.terminalEvent : RunStatus → Option AgentEventType
  | SUCCEEDED => some .RUN_SUCCEEDED
  | REFUSED => some .RUN_REFUSED
  | CANCELLED => some .RUN_CANCELLED
  | FAILED => some .RUN_FAILED
  | QUEUED | RUNNING | WAITING_CONFIRMATION => none

theorem RunStatus.terminal_of_terminalEvent {status : RunStatus} {type : AgentEventType}
    (h : status.terminalEvent = some type) : status.terminal ∧ type.terminal := by
  cases status <;> cases h <;> decide

/-- The log by itself: queued first and once, started once at most, resumed
once at most for each resume. -/
structure LogOk (events : List AgentEvent) : Prop where
  queued : ∃ newer q, events = newer ++ [q] ∧ q.eventType = .RUN_QUEUED ∧
    ∀ e ∈ newer, e.eventType ≠ .RUN_QUEUED
  started : events.countP (·.eventType == .RUN_STARTED) ≤ 1
  resumed : ∀ newer between r older, events = newer ++ (between ++ r :: older) →
    r.eventType = .RUN_RESUME_QUEUED →
    (∀ e ∈ between, e.eventType ≠ .RUN_RESUME_QUEUED) →
      between.countP (·.eventType == .RUN_RESUMED) ≤ 1

structure Agrees (row : AgentRun) (events : List AgentEvent) : Prop extends LogOk events where
  terminal : row.status.terminal ↔ events.countP (·.eventType.terminal) = 1
  type : ∀ e ∈ events, e.eventType.terminal → row.status.terminalEvent = some e.eventType
  finished : row.finishedAt.isSome = row.status.terminal
  last : ∀ later e earlier, events = later ++ e :: earlier → e.eventType.terminal →
    ∀ e' ∈ later, e'.eventType.lifecycle = false

/-! ## What an event more keeps -/

/-- What an event of this type needs of the log. -/
structure Fits (type : AgentEventType) (events : List AgentEvent) : Prop where
  queued : type ≠ .RUN_QUEUED
  started : type = .RUN_STARTED → ∀ e ∈ events, e.eventType ≠ .RUN_STARTED
  resumed : type = .RUN_RESUMED → ∀ between r older, events = between ++ r :: older →
    r.eventType = .RUN_RESUME_QUEUED → (∀ e ∈ between, e.eventType ≠ .RUN_RESUME_QUEUED) →
      ∀ e ∈ between, e.eventType ≠ .RUN_RESUMED

theorem Fits.plain {type : AgentEventType} (hq : type ≠ .RUN_QUEUED) (hs : type ≠ .RUN_STARTED)
    (hr : type ≠ .RUN_RESUMED) (events : List AgentEvent) : Fits type events :=
  ⟨hq, fun h => absurd h hs, fun h => absurd h hr⟩

variable {row row' : AgentRun} {events : List AgentEvent} {type : AgentEventType}
  {payload : Payload}

theorem LogOk.add (h : LogOk events) (hf : Fits type events) :
    LogOk (addEvent events type payload) := by
  refine ⟨?_, ?_, fun newer between r older heq hrt hbetween => ?_⟩
  · obtain ⟨newer, q, rfl, hqt, hnewer⟩ := h.queued
    refine ⟨_ :: newer, q, rfl, hqt, fun e he => ?_⟩
    rcases List.mem_cons.mp he with rfl | he
    · exact hf.queued
    · exact hnewer e he
  · rw [addEvent, List.countP_cons]
    by_cases hst : type = .RUN_STARTED
    · have hzero : events.countP (·.eventType == .RUN_STARTED) = 0 :=
        List.countP_eq_zero.mpr fun e he => by simpa using hf.started hst e he
      rw [hzero]
      split <;> omega
    · rw [if_neg (by simpa using hst)]
      exact h.started
  · cases newer with
    | cons new newer => exact h.resumed newer between r older (List.cons.inj heq).2 hrt hbetween
    | nil =>
      cases between with
      | nil => exact Nat.zero_le 1
      | cons new between =>
        obtain ⟨rfl, htail⟩ := List.cons.inj heq
        have hbetween' : ∀ e ∈ between, e.eventType ≠ .RUN_RESUME_QUEUED :=
          fun e he => hbetween e (List.mem_cons_of_mem _ he)
        rw [List.countP_cons]
        by_cases hst : type = .RUN_RESUMED
        · have hzero : between.countP (·.eventType == .RUN_RESUMED) = 0 :=
            List.countP_eq_zero.mpr fun e he => by
              simpa using hf.resumed hst between r older htail hrt hbetween' e he
          rw [hzero]
          split <;> omega
        · rw [if_neg (by simpa using hst)]
          exact h.resumed [] between r older htail hrt hbetween'

theorem Agrees.live (h : Agrees row events) (hrow : row.status.terminal = false) :
    ∀ e ∈ events, e.eventType.terminal = false := by
  intro e he
  refine Bool.eq_false_iff.mpr fun ht => ?_
  rw [(RunStatus.terminal_of_terminalEvent (h.type e he ht)).1] at hrow
  cases hrow

theorem Agrees.count (h : Agrees row events) (hrow : row.status.terminal = false) :
    events.countP (·.eventType.terminal) = 0 :=
  List.countP_eq_zero.mpr fun e he => Bool.eq_false_iff.mp (h.live hrow e he)

/-- Only the row changes, and the run has not ended. -/
theorem Agrees.moved (h : Agrees row events) (hrow : row.status.terminal = false)
    (hrow' : row'.status.terminal = false) (hfinished : row'.finishedAt = none) :
    Agrees row' events := by
  refine { h.toLogOk with
    terminal := ?_, type := fun e he ht => ?_, finished := ?_, last := h.last }
  · rw [hrow', h.count hrow]
    decide
  · rw [h.live hrow e he] at ht
    cases ht
  · rw [hfinished, hrow']
    rfl

/-- One event more, and perhaps the run's end. -/
theorem Agrees.add (h : Agrees row events) (hrow : row.status.terminal = false)
    (hfinished : row'.finishedAt.isSome = row'.status.terminal)
    (htype : if type.terminal then row'.status.terminalEvent = some type
      else row'.status.terminal = false)
    (hf : Fits type events) : Agrees row' (addEvent events type payload) := by
  have hlive := h.live hrow
  refine { h.toLogOk.add hf with
    terminal := ?_, type := fun e he ht => ?_, finished := hfinished, last :=
      fun later e earlier heq ht e' he' => ?_ }
  · rw [addEvent, List.countP_cons, h.count hrow]
    cases hterm : type.terminal with
    | true =>
      rw [if_pos hterm] at htype
      simp [(RunStatus.terminal_of_terminalEvent htype).1]
    | false =>
      rw [hterm, if_neg Bool.false_ne_true] at htype
      simp [htype]
  · rcases List.mem_cons.mp he with rfl | he
    · rw [if_pos ht] at htype
      exact htype
    · rw [hlive e he] at ht
      cases ht
  · -- the only terminal event there can be is the new one
    cases later with
    | nil => cases he'
    | cons new later =>
      have htail : events = later ++ e :: earlier := (List.cons.inj heq).2
      rw [hlive e (by rw [htail]; simp)] at ht
      cases ht

/-- An artifact may come at any time. -/
theorem Agrees.artifact (h : Agrees row events) :
    Agrees row (addEvent events .ARTIFACT_AVAILABLE payload) := by
  have hf : Fits .ARTIFACT_AVAILABLE events := .plain (by decide) (by decide) (by decide) events
  refine { h.toLogOk.add hf with
    terminal := h.terminal, type := fun e he ht => ?_, finished := h.finished
    last := fun later e earlier heq ht e' he' => ?_ }
  · rcases List.mem_cons.mp he with rfl | he
    · cases ht
    · exact h.type e he ht
  · cases later with
    | nil => cases he'
    | cons new later =>
      obtain ⟨rfl, htail⟩ := List.cons.inj heq
      rcases List.mem_cons.mp he' with rfl | he'
      · rfl
      · exact h.last later e earlier htail ht e' he'

/-- Nothing has resumed the run since the latest resume was queued. -/
theorem fits_resumed (hin : InOrder events) (hnew : ∀ e ∈ events, e.eventType = .RUN_RESUMED →
      ∃ r ∈ events, r.eventType = .RUN_RESUME_QUEUED ∧ e.sequenceNo < r.sequenceNo) :
    Fits .RUN_RESUMED events := by
  refine ⟨by decide, nofun, fun _ between r older heq hrt hbetween e he het => ?_⟩
  obtain ⟨r', hr', hrt', hlt⟩ := hnew e (by rw [heq]; exact List.mem_append_left _ he) het
  have hdesc := hin.descending
  rw [heq] at hr' hdesc
  have hmem : r' ∈ r :: older := by
    rcases List.mem_append.mp hr' with hr' | hr'
    · exact absurd hrt' (hbetween r' hr')
    · exact hr'
  have hgt := (List.pairwise_append.mp hdesc).2.2 e he r' hmem
  omega

/-! ## What every step keeps -/

theorem Agrees.lifecycle {fails : Bool} {events' : List AgentEvent} (h : Agrees row events)
    (hin : InOrder events) (hl : Lifecycle fails (row, events) (row', events')) :
    Agrees row' events' := by
  cases hl with
  | runs startedAt hq => exact h.moved (by rw [hq]; rfl) rfl rfl
  | starts payload hu hresume hnew =>
    have hrow := RunStatus.not_terminal_of_underway hu
    exact h.add hrow h.finished hrow ⟨by decide, fun _ => hnew, nofun⟩
  | resumes payload hu hresume hnew =>
    have hrow := RunStatus.not_terminal_of_underway hu
    exact h.add hrow h.finished hrow (fits_resumed hin hnew)
  | artifact payload => exact h.artifact
  | waits payload hash hu hhash =>
    exact h.add (RunStatus.not_terminal_of_underway hu) rfl rfl
      (.plain (by decide) (by decide) (by decide) _)
  | ends kind status type payload now hu hkind =>
    have hrow := RunStatus.not_terminal_of_underway hu
    rcases terminalProjection_ok hkind with ⟨rfl, rfl⟩ | ⟨rfl, rfl⟩ | ⟨rfl, rfl⟩
    · exact h.add hrow rfl rfl (.plain (by decide) (by decide) (by decide) _)
    · exact h.add hrow rfl rfl (.plain (by decide) (by decide) (by decide) _)
    · exact h.add hrow rfl rfl (.plain (by decide) (by decide) (by decide) _)
  | failure payload now hfails hrow =>
    exact h.add hrow rfl rfl (.plain (by decide) (by decide) (by decide) _)

/-- Every run's row agrees with its log. -/
def AllAgree (σ : RunStore) : Prop :=
  ∀ runId row, σ.runs runId = some row → Agrees row (σ.events runId)

section
variable {settings : Jobs.Settings} {σ σ' : RunStore} {ends : Jobs.BackgroundJob → Prop}
  {fails : Bool} {runId : UUID}

theorem AllAgree.moves (h : AllAgree σ) (hk : Kept σ) (hm : Moves fails σ σ') : AllAgree σ' := by
  intro runId row' hrow'
  obtain ⟨row, hrow, hev⟩ := hm.back hrow'
  have hboth := hev.keeps (P := fun row events => Agrees row events ∧ InOrder events)
    (fun h hl => ⟨h.1.lifecycle h.2 hl, hl.adds.elim (fun heq => heq ▸ h.2) fun ha =>
      ha.inOrder h.2⟩)
    ⟨h runId row hrow, hk.order runId⟩
  exact hboth.1

theorem AllAgree.opens {type : AgentEventType} {payload : Payload} {jobType : String}
    (h : AllAgree σ) (ho : Opens settings σ σ' runId type payload jobType)
    (hnew : ∀ row, row.status = .QUEUED → row.finishedAt = (σ.runs runId).bind (·.finishedAt) →
      Agrees row (addEvent (σ.events runId) type payload)) :
    AllAgree σ' := by
  obtain ⟨row, -, hqueued, hfinished, hruns⟩ := ho.runs
  intro r row' hrow'
  rw [hruns] at hrow'
  rw [ho.events]
  by_cases hr : r = runId
  · subst hr
    rw [Function.update_self] at hrow' ⊢
    cases hrow'
    exact hnew row hqueued hfinished
  · rw [Function.update_of_ne hr] at hrow' ⊢
    exact h r row' hrow'

theorem agrees_created (hqueued : row.status = .QUEUED) (hfinished : row.finishedAt = none) :
    Agrees row (addEvent [] .RUN_QUEUED payload) where
  queued := ⟨[], _, rfl, rfl, nofun⟩
  started := by simp [addEvent]
  resumed newer between r older heq hrt _ := by
    -- the only event is no resume
    have hmem : r ∈ addEvent [] .RUN_QUEUED payload := by rw [heq]; simp
    obtain rfl := List.mem_singleton.mp hmem
    cases hrt
  terminal := by simp [addEvent, hqueued, RunStatus.terminal, AgentEventType.terminal]
  type e he ht := by
    obtain rfl := List.mem_singleton.mp he
    cases ht
  finished := by
    rw [hqueued, hfinished]
    rfl
  last later e earlier heq ht := by
    have hmem : e ∈ addEvent [] .RUN_QUEUED payload := by rw [heq]; simp
    obtain rfl := List.mem_singleton.mp hmem
    cases ht

theorem AllAgree.effect (h : AllAgree σ) (hk : Kept σ) (he : Effect settings ends fails σ σ') :
    AllAgree σ' := by
  cases he with
  | moves hm => exact h.moves hk hm
  | rewrites jobs' heq _ => exact heq ▸ h
  | creates runId payload ho hnone =>
    refine h.opens ho fun row hqueued hfinished => ?_
    rw [hk.free runId hnone]
    exact agrees_created hqueued (by rw [hfinished, hnone]; rfl)
  | resumes runId request command old ha ho =>
    refine h.opens ho fun row hqueued hfinished => ?_
    have hagrees := h runId old ha.run
    have hlive : old.status.terminal = false := by rw [ha.waiting]; rfl
    refine hagrees.add hlive ?_ (by rw [hqueued]; rfl)
      (.plain (by decide) (by decide) (by decide) _)
    rw [hfinished, ha.run, hqueued]
    exact hagrees.finished.trans hlive
  | job _ heq _ _ => exact heq ▸ h

end

variable {settings : Jobs.Settings} {w : RunWorld}

theorem ended_stays {runId : UUID} (hk : WorkKept w.shared) (hrow : w.shared.runs runId = some row)
    (ht : row.status.terminal) (as : List RunAction) :
    (machine settings).Always (fun w' => w'.shared.runs runId = some row) as w :=
  (always_work (P := fun σ => σ.runs runId = some row) hk hrow fun _ hrow hs =>
    hs.effect.terminal hrow ht).mono
    fun _ hw => hw.2

/-- What is to be true of a run's row and log, and of what comes after. -/
structure RunOk (settings : Jobs.Settings) (w : RunWorld) (row : AgentRun)
    (events : List AgentEvent) (runId : UUID) :
    Prop extends Agrees row events where
  ordered : events.Pairwise fun e e' => e'.sequenceNo < e.sequenceNo
  final : row.status.terminal → ∀ bs,
    (machine settings).Always (fun w' => w'.shared.runs runId = some row) bs w

/-- **Status and log agree** in every state that is reached, and a run that has
ended never changes again. -/
theorem agrees (h : Initial w) (as : List RunAction) :
    (machine settings).Always (fun w' => ∀ runId row, w'.shared.runs runId = some row →
      RunOk settings w' row (w'.shared.events runId) runId) as w := by
  have hnone : AllAgree w.shared.toRunStore := by
    intro runId row hrow
    rw [h.runs] at hrow
    cases hrow
  refine (always_work (P := fun σ => AllAgree σ.toRunStore) h.workKept hnone
    fun hk hagree hs => hagree.effect hk.toKept hs.effect).mono
      fun w' ⟨hk, hagree⟩ runId row hrow => ?_
  exact { hagree runId row hrow with
    ordered := (hk.order runId).descending
    final := fun ht bs => ended_stays hk hrow ht bs }

/-- So for a run that fails at its last attempt. -/
theorem agrees_failed :
    (machine Sample.queue).Always (fun w' => ∀ runId row, w'.shared.runs runId = some row →
      RunOk Sample.queue w' row (w'.shared.events runId) runId) Sample.failsThrice Sample.world :=
  agrees Sample.world_initial Sample.failsThrice

end ProjectAgent.Runs
