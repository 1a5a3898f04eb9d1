/-
A run's rounds of waiting and resuming: each wait is resumed once at most,
each resume has its job, a request that is not the owner's or not for this wait
changes nothing, and a resumed graph is handed what was accepted when its
attempt was prepared.
-/
import ProjectAgent.Runs.Waiting

namespace ProjectAgent.Runs

open Interleave
open Jobs (JobTable BackgroundJob QueuedJob SameJob)

variable {settings : Jobs.Settings} {pid : Nat} {runId : UUID} {events events' : List AgentEvent}
  {row row' : AgentRun}

/-- The `RESUME_AGENT_RUN` jobs of a run. -/
def resumeJobs (jobs : JobTable) (runId : UUID) : List BackgroundJob :=
  List.filter (fun row => row.jobType == RESUME_AGENT_RUN && row.aggregateId == runId.str) jobs

/-- After a waiting event, and until the next, there is one resume at most; and
there are as many resume jobs as resumes. -/
structure OneResume (σ : RunStore) (runId : UUID) : Prop where
  rounds : ∀ newer round older, σ.events runId = newer ++ (round ++ older) →
    (∀ e ∈ round, e.eventType ≠ .WAITING_CONFIRMATION) → (accepted round).length ≤ 1
  waited : ∀ newer r older, σ.events runId = newer ++ r :: older →
    r.eventType = .RUN_RESUME_QUEUED →
    ∃ e ∈ older, e.eventType = .WAITING_CONFIRMATION
  jobs : (resumeJobs σ.jobs runId).length = (accepted (σ.events runId)).length

/-- What the step accepts, if it does: a request of the run's owner, for the
hash that is waited for; the event says what was asked. -/
def Accepted (settings : Jobs.Settings) (a : RunAction) (w : RunWorld) : Prop :=
  ∀ w', (machine settings).step a w = some w' → ∀ runId,
    accepted (w'.shared.events runId) = accepted (w.shared.events runId) ∨
      ∃ request command row, a = .env (.resumeRun request runId command) ∧
        Accepts request w.shared.toRunStore runId command row ∧ accepted (w'.shared.events runId) =
          ⟨nextSequence (w.shared.events runId), .RUN_RESUME_QUEUED,
            acceptedPayload request command⟩ ::
            accepted (w.shared.events runId)

/-- A request that the run's state or the authorization does not allow raises, and nothing has
changed. -/
def Refuses (settings : Jobs.Settings) (w : RunWorld) : Prop :=
  ∀ request runId command, (¬ ∃ row, Accepts request w.shared.toRunStore runId command row) →
    (∃ e, resumeRun settings request runId command w.shared.toRunStore = .error e) ∧
      outside settings (.resumeRun request runId command) w.shared = some w.shared

/-- The `n`-th request a run has accepted. -/
def NthAccepted (events : List AgentEvent) (n : Nat) (event : AgentEvent) : Prop :=
  ∃ newer older, accepted events = newer ++ event :: older ∧ (event :: older).length = n

/-- What a graph is about to be resumed with is the payload of the request that
was the latest when the attempt was prepared. -/
def HandsPrepared (a : RunAction) (w : RunWorld) : Prop :=
  ∀ pid c run payload k, a = .exec pid c → w.procs pid = some (.stmt (.graphResume run payload) k) →
    ∃ n event, w.shared.prepared pid = some (run.id, n) ∧
      NthAccepted (w.shared.events run.id) n event ∧
      event.payload = payload

/-! ## Rounds -/

/-- The run has a waiting event that no resume follows. -/
def Waits (events : List AgentEvent) : Prop :=
  ∃ between e older, events = between ++ e :: older ∧ e.eventType = .WAITING_CONFIRMATION ∧
    ∀ e ∈ between, e.eventType ≠ .RUN_RESUME_QUEUED

/-- Every resume follows a wait of its own, and a run that waits can be resumed. -/
structure InRounds (row : AgentRun) (events : List AgentEvent) : Prop where
  resumes : ∀ newer r older, events = newer ++ r :: older → r.eventType = .RUN_RESUME_QUEUED →
    Waits older
  waits : row.status = .WAITING_CONFIRMATION → Waits events

theorem Waits.cons (h : Waits events) {e : AgentEvent} (he : e.eventType ≠ .RUN_RESUME_QUEUED) :
    Waits (e :: events) := by
  obtain ⟨between, w, older, rfl, hw, hbetween⟩ := h
  refine ⟨e :: between, w, older, rfl, hw, fun e' he' => ?_⟩
  rcases List.mem_cons.mp he' with rfl | he'
  · exact he
  · exact hbetween e' he'

theorem accepted_cons (e : AgentEvent) (events : List AgentEvent) :
    accepted (e :: events) = if e.eventType = .RUN_RESUME_QUEUED then e :: accepted events
      else accepted events := by
  unfold accepted
  rw [List.filter_cons]
  simp only [beq_iff_eq]

/-- Without a wait in between there are no two resumes. -/
theorem rounds_of
    (h : ∀ newer r older, events = newer ++ r :: older → r.eventType = .RUN_RESUME_QUEUED →
      Waits older)
    {newer round older : List AgentEvent} (heq : events = newer ++ (round ++ older))
    (hround : ∀ e ∈ round, e.eventType ≠ .WAITING_CONFIRMATION) : (accepted round).length ≤ 1 := by
  induction round generalizing newer with
  | nil => exact Nat.zero_le 1
  | cons e round ih =>
    have htail : events = (newer ++ [e]) ++ (round ++ older) := by simpa using heq
    have hrest := ih htail fun e' he' => hround e' (List.mem_cons_of_mem _ he')
    rw [accepted_cons]
    split
    · next hresume =>
      -- the resume's own wait is older than the round, so no resume of the round is older than it
      obtain ⟨between, w, older', hsplit, hw, hbetween⟩ := h newer e (round ++ older) heq hresume
      have hnone : accepted round = [] := by
        refine List.filter_eq_nil_iff.mpr fun e' he' hresume' => ?_
        have hmem : e' ∈ between := by
          rcases List.append_eq_append_iff.mp hsplit with ⟨more, rfl, -⟩ | ⟨more, hround', -⟩
          · exact List.mem_append_left _ he'
          · cases more with
            | nil =>
              rw [List.append_nil] at hround'
              exact hround' ▸ he'
            | cons w' more =>
              have hcons : w' = w := by
                have := hsplit
                rw [hround', List.append_assoc] at this
                exact (List.cons.inj (List.append_cancel_left this)).1
              exact absurd hw (hround w (by rw [List.mem_cons, hround', ← hcons]; simp))
        exact hbetween e' hmem (beq_iff_eq.mp hresume')
      rw [hnone]
      exact Nat.le_refl 1
    · exact hrest

theorem InRounds.add (h : InRounds row events) {type : AgentEventType} {payload : Payload}
    (hq : type ≠ .RUN_RESUME_QUEUED) (hwaits : row'.status = .WAITING_CONFIRMATION →
      row.status = .WAITING_CONFIRMATION ∨ type = .WAITING_CONFIRMATION) :
    InRounds row' (addEvent events type payload) := by
  refine ⟨fun newer r older heq hr => ?_, fun hs => ?_⟩
  · cases newer with
    | nil =>
      obtain ⟨rfl, -⟩ := List.cons.inj heq
      exact absurd hr hq
    | cons e newer => exact h.resumes newer r older (List.cons.inj heq).2 hr
  · rcases hwaits hs with hold | rfl
    · exact (h.waits hold).cons hq
    · exact ⟨[], _, events, rfl, rfl, nofun⟩

theorem InRounds.lifecycle {fails : Bool} (h : InRounds row events)
    (hl : Lifecycle fails (row, events) (row', events')) : InRounds row' events' := by
  cases hl with
  | runs startedAt hq => exact ⟨h.resumes, fun hs => by cases hs⟩
  | starts | resumes => exact h.add (by decide) fun hs => .inl hs
  | artifact payload => exact h.add (by decide) fun hs => .inl hs
  | waits payload hash hu hhash => exact h.add (by decide) fun _ => .inr rfl
  | ends kind status type payload now hu hkind =>
    rcases terminalProjection_ok hkind with ⟨rfl, rfl⟩ | ⟨rfl, rfl⟩ | ⟨rfl, rfl⟩
    · exact h.add (by decide) fun hs => by cases hs
    · exact h.add (by decide) fun hs => by cases hs
    · exact h.add (by decide) fun hs => by cases hs
  | failure payload now hfails hrow => exact h.add (by decide) fun hs => by cases hs

/-! ## Resumes and their jobs -/

theorem Adds.accepted (h : Adds events events') : accepted events' = accepted events := by
  obtain ⟨type, payload, -, -, hr, rfl⟩ := h
  rw [accepted_cons, if_neg hr]

theorem adds_accepted (h : Relation.ReflTransGen Adds events events') :
    accepted events' = accepted events := by
  induction h with
  | refl => rfl
  | tail _ hadds ih => exact hadds.accepted.trans ih

theorem resumeJobs_update {jobs : JobTable} {selected : List BackgroundJob}
    {f : BackgroundJob → BackgroundJob} (hf : SameJob f) :
    (resumeJobs (jobs.update selected f) runId).length = (resumeJobs jobs runId).length := by
  unfold resumeJobs JobTable.update
  rw [List.filter_map, List.length_map]
  congr 2
  funext row
  simp only [Function.comp_apply]
  split
  · rw [hf.jobType, hf.aggregateId]
  · rfl

/-- Every run's rounds are in order, and every resume has its job. -/
structure RoundsKept (σ : RunStore) : Prop where
  rounds : ∀ runId row, σ.runs runId = some row → InRounds row (σ.events runId)
  jobs : ∀ runId, (resumeJobs σ.jobs runId).length = (accepted (σ.events runId)).length

section
variable {σ σ' : RunStore} {ends : BackgroundJob → Prop} {fails : Bool}

theorem RoundsKept.moves (h : RoundsKept σ) (hm : Moves fails σ σ') : RoundsKept σ' := by
  refine ⟨fun r row' hrow' => ?_, fun r => ?_⟩
  · obtain ⟨row, hrow, hev⟩ := hm.back hrow'
    exact hev.keeps (P := InRounds) (fun hr hl => hr.lifecycle hl) (h.rounds r row hrow)
  · rw [hm.jobs, adds_accepted (hm.events r)]
    exact h.jobs r

/-- A run is put to the queue: for the first time, or out of its wait. -/
theorem RoundsKept.opens (h : RoundsKept σ) {type : AgentEventType} {payload : Payload}
    {jobType : String} (ho : Opens settings σ σ' runId type payload jobType)
    (htype : type = .RUN_QUEUED ∧ jobType = EXECUTE_AGENT_RUN ∧ σ.events runId = [] ∨
      type = .RUN_RESUME_QUEUED ∧ jobType = RESUME_AGENT_RUN ∧ Waits (σ.events runId) ∧
      ∃ row, σ.runs runId = some row) :
    RoundsKept σ' := by
  obtain ⟨new, -, hqueued, -, hruns⟩ := ho.runs
  obtain ⟨id, now, -, hjobs⟩ := ho.jobs
  refine ⟨fun r row' hrow' => ?_, fun r => ?_⟩
  · rw [hruns] at hrow'
    rw [ho.events]
    by_cases hr : r = runId
    · subst hr
      rw [Function.update_self] at hrow' ⊢
      obtain rfl : new = row' := Option.some.inj hrow'
      refine ⟨fun newer e older heq het => ?_, fun hs => by rw [hqueued] at hs; cases hs⟩
      cases newer with
      | nil =>
        obtain ⟨rfl, rfl⟩ := List.cons.inj heq
        rcases htype with ⟨rfl, -, -⟩ | ⟨-, -, hwaits, -⟩
        · cases het
        · exact hwaits
      | cons _ newer =>
        have htail := (List.cons.inj heq).2
        rcases htype with ⟨-, -, hnil⟩ | ⟨-, -, -, old, hold⟩
        · rw [hnil] at htail
          exact absurd htail (by simp)
        · exact (h.rounds r old hold).resumes newer e older htail het
    · rw [Function.update_of_ne hr] at hrow' ⊢
      exact h.rounds r row' hrow'
  · rw [hjobs, ho.events]
    by_cases hr : r = runId
    · subst hr
      rw [Function.update_self, addEvent, accepted_cons]
      rcases htype with ⟨rfl, rfl, hnil⟩ | ⟨rfl, rfl, -⟩
      · rw [if_neg (fun hresume => by cases hresume), ← h.jobs r]
        simp [resumeJobs, Jobs.buildJobModel, EXECUTE_AGENT_RUN, RESUME_AGENT_RUN]
      · rw [if_pos rfl, List.length_cons, ← h.jobs r]
        simp [resumeJobs, Jobs.buildJobModel]
    · rw [Function.update_of_ne hr, ← h.jobs r]
      have hother : (runId.str == r.str) = false := by
        rw [beq_eq_false_iff_ne]
        exact fun hstr => hr (UUID.str_inj hstr).symm
      simp [resumeJobs, Jobs.buildJobModel, hother]

theorem RoundsKept.effect (h : RoundsKept σ) (hk : Kept σ) (he : Effect settings ends fails σ σ') :
    RoundsKept σ' := by
  cases he with
  | moves hm => exact h.moves hm
  | rewrites jobs' heq hr =>
    subst heq
    obtain ⟨selected, f, rfl, hf, -⟩ := hr
    exact ⟨h.rounds, fun r => (resumeJobs_update hf).trans (h.jobs r)⟩
  | creates runId payload ho hnone => exact h.opens ho (.inl ⟨rfl, rfl, hk.free runId hnone⟩)
  | resumes runId request command row ha ho =>
    exact h.opens ho (.inr ⟨rfl, rfl, (h.rounds runId row ha.run).waits ha.waiting, row, ha.run⟩)
  | job row heq _ hother =>
    subst heq
    refine ⟨h.rounds, fun r => ?_⟩
    rw [← h.jobs r]
    unfold resumeJobs
    rw [List.filter_cons, if_neg]
    intro hrow
    have hjob : isJobOf r row = true := by
      obtain ⟨htype, haggregate⟩ := Bool.and_eq_true_iff.mp hrow
      exact isJobOf_iff.mpr ⟨.inr (beq_iff_eq.mp htype), beq_iff_eq.mp haggregate⟩
    rw [hother r] at hjob
    cases hjob

end

theorem RoundsKept.oneResume {σ : RunStore} (h : RoundsKept σ) {row : AgentRun}
    (hrow : σ.runs runId = some row) :
    OneResume σ runId where
  rounds _ _ _ heq hround := rounds_of (h.rounds runId row hrow).resumes heq hround
  waited newer r older heq hr := by
    obtain ⟨between, w, older', rfl, hw, -⟩ :=
      (h.rounds runId row hrow).resumes newer r older heq hr
    exact ⟨w, by simp, hw⟩
  jobs := h.jobs runId

/-! ## What a step accepts -/

section
variable {σ σ' : WorkStore}

theorem exec_accepted (hk : WorkKept σ) {s : Stmt} {c : Choice} {r : Except RunError s.Res}
    (h : exec settings pid s c σ = some (r, σ')) :
    accepted (σ'.events runId) = accepted (σ.events runId) := by
  rcases exec_moves hk h with hm | ⟨jobs', heq, -⟩
  · exact adds_accepted (hm.events runId)
  · show accepted (σ'.toRunStore.events runId) = _
    rw [heq]

theorem outside_accepted (hk : WorkKept σ) {e : Outside} (h : outside settings e σ = some σ')
    (runId : UUID) :
    accepted (σ'.events runId) = accepted (σ.events runId) ∨ ∃ request command row,
      e = .resumeRun request runId command ∧ Accepts request σ.toRunStore runId command row ∧
        accepted (σ'.events runId) = ⟨nextSequence (σ.events runId), .RUN_RESUME_QUEUED,
          acceptedPayload request command⟩ :: accepted (σ.events runId) := by
  cases e with
  | createRun request command =>
    rcases outsideRun_cases h with rfl | ⟨run, τ, hok, rfl⟩
    · exact .inl rfl
    obtain ⟨hnone, ho⟩ := createRun_ok hok
    left
    dsimp only
    rw [ho.events]
    by_cases hr : runId = request.runId
    · subst hr
      rw [Function.update_self, addEvent, accepted_cons, if_neg fun hresume => by cases hresume]
    · rw [Function.update_of_ne hr]
  | resumeRun request resumed command =>
    rcases outsideRun_cases h with rfl | ⟨run, τ, hok, rfl⟩
    · exact .inl rfl
    obtain ⟨⟨row, ha⟩, ho⟩ := resumeRun_ok (hk.ids resumed) hok
    dsimp only
    rw [ho.events]
    by_cases hr : runId = resumed
    · subst hr
      rw [Function.update_self, addEvent, accepted_cons, if_pos rfl]
      exact .inr ⟨request, command, row, rfl, ha, rfl⟩
    · rw [Function.update_of_ne hr]
      exact .inl rfl
  | enqueue request id now =>
    simp only [outside] at h
    split at h
    · cases h
    rcases outsideRun_cases h with rfl | ⟨_, τ, hok, rfl⟩
    · exact .inl rfl
    obtain ⟨-, rfl⟩ := enqueue_ok hok
    exact .inl rfl
  | heartbeat jobId workerId now =>
    rcases outsideRun_cases h with rfl | ⟨_, τ, hok, rfl⟩
    · exact .inl rfl
    obtain ⟨jobs', -, rfl⟩ := queueCall_ok hok
    exact .inl rfl
  | claim | reap =>
    cases h
    exact .inl rfl

theorem refuses {w : RunWorld} (hk : WorkKept w.shared) : Refuses settings w := by
  intro request runId command hnot
  have herror : ∃ e, resumeRun settings request runId command w.shared.toRunStore = .error e := by
    cases hresume : resumeRun settings request runId command w.shared.toRunStore with
    | error e => exact ⟨e, rfl⟩
    | ok x => exact absurd (resumeRun_ok (hk.ids runId) hresume).1 hnot
  obtain ⟨e, he⟩ := herror
  refine ⟨⟨e, he⟩, ?_⟩
  simp only [outside, outside.run, he]

theorem accepted_step {a : RunAction} {w : RunWorld} (hk : WorkKept w.shared) :
    Accepted settings a w := by
  intro w' hs runId
  rcases Machine.step_cases hs with ⟨delivery, pid, p, rfl, -, hx, -⟩ |
    ⟨pid, c, s, k, r, rfl, hp, hx, -⟩ |
    ⟨pid, r, rfl, -, hx, -⟩ | ⟨pid, p, rfl, -, hx, -⟩ | ⟨e, rfl, hx, -⟩
  · left
    simp only [machine] at hx
    split at hx
    · rw [← (Prod.mk.inj (Option.some.inj hx)).2]
    · cases hx
  · exact .inl (exec_accepted hk hx)
  · exact .inl (by rw [hx]; rfl)
  · exact .inl (by rw [hx]; rfl)
  · rcases outside_accepted hk hx runId with hsame | ⟨request, command, row, rfl, ha, heq⟩
    · exact .inl hsame
    · exact .inr ⟨request, command, row, rfl, ha, heq⟩

end

/-! ## What a resumed graph is handed -/

def Handed (σ : WorkStore) (pid : Nat) (runId : UUID) (payload : Payload) : Prop :=
  ∃ n event, σ.prepared pid = some (runId, n) ∧ NthAccepted (σ.events runId) n event ∧
    event.payload = payload

/-- An attempt keeps its own preparation, and what has been accepted stays so. -/
def handing : Spec Stmt WorkStore where
  inv := WorkKept
  rely pid σ σ' := σ'.prepared pid = σ.prepared pid ∧
    ∀ runId, accepted (σ.events runId) <:+ accepted (σ'.events runId)
  permit pid s σ := match s with
    | .graphResume run payload => Handed σ pid run.id payload
    | _ => True
  refl _ _ := ⟨rfl, fun _ => List.suffix_refl _⟩
  trans _ _ _ _ h h' := ⟨h'.1.trans h.1, fun runId => (h.2 runId).trans (h'.2 runId)⟩

theorem Handed.rely {σ σ' : WorkStore} {payload : Payload} (h : Handed σ pid runId payload)
    (hr : handing.rely pid σ σ') : Handed σ' pid runId payload := by
  obtain ⟨n, event, hp, ⟨newer, older, heq, hn⟩, hpayload⟩ := h
  obtain ⟨newest, hsuffix⟩ := hr.2 runId
  exact ⟨n, event, hr.1.trans hp,
    ⟨newest ++ newer, older, by rw [← hsuffix, heq, List.append_assoc], hn⟩, hpayload⟩

/-- The latest resume is the one accepted last. -/
theorem nthAccepted_latest {σ : RunStore} {event : AgentEvent}
    (h : σ.latestEvent runId .RUN_RESUME_QUEUED = some event) :
    NthAccepted (σ.events runId) (accepted (σ.events runId)).length event := by
  obtain ⟨ht, newer, older, hsplit, hnewer⟩ := List.find?_eq_some_iff_append.mp h
  have hnone : newer.filter (·.eventType == .RUN_RESUME_QUEUED) = [] :=
    List.filter_eq_nil_iff.mpr fun e he => by simpa using hnewer e he
  have heq : accepted (σ.events runId) = event :: accepted older := by
    unfold accepted
    rw [hsplit, List.filter_append, hnone, List.nil_append, List.filter_cons, if_pos ht]
  exact ⟨[], accepted older, heq, by rw [heq]⟩

/-- Prepared for a resume, the attempt has the payload of the latest one. -/
theorem prepareResume_handed {σ σ' : WorkStore} {c : Choice} {preparation : RunExecutionPreparation}
    (hk : WorkKept σ)
    (hx : (machine settings).exec pid (.prepareResume runId) c σ = some (.ok preparation, σ'))
    (hinvoke : preparation.invoke) {payload : Payload}
    (hpayload : preparation.resumePayload = some payload) :
    Handed σ' pid preparation.run.id payload := by
  obtain ⟨τ, hok, rfl⟩ := noting_ok (Option.some.inj hx)
  obtain ⟨hm, -, hprepared⟩ := prepareResume_ok (hk.order runId) hok
  obtain ⟨row, event, hrow, hid, hevent, heq⟩ := hprepared hinvoke
  have hsame := adds_accepted (hm.events runId)
  obtain rfl : preparation.run.id = runId := hid.trans (hk.ids _ row hrow)
  rw [heq] at hpayload
  refine ⟨(accepted (σ.events preparation.run.id)).length, event, ?_, ?_, Option.some.inj hpayload⟩
  · simp only [notePrepared, Function.update_self, hsame]
  · obtain ⟨newer, older, hsplit, hn⟩ := nthAccepted_latest hevent
    exact ⟨newer, older, hsame.trans hsplit, hn⟩

section
variable {job : QueuedJob} {σ₀ : WorkStore}

def Stmt.isResume : Stmt → Bool
  | .graphResume _ _ => true
  | _ => false

/-- Programs that resume no graph. -/
theorem handing_only {α : Type} {p : Work α} (h : p.Only (·.isResume = false)) (σ₀ : WorkStore) :
    Safe (machine settings) handing pid (fun _ _ => True) p σ₀ := by
  refine Safe.of_only h (fun s σ hs => ?_) σ₀
  cases s with
  | graphResume run payload => cases hs
  | prepareExecute | prepareResume | graphExecute | persistOutcome | markFinalFailure
      | otherHandler | complete
  | fail => trivial

theorem handleFailure_only (e : RunError) :
    (handleFailure job runId e).Only (·.isResume = false) := by
  unfold handleFailure
  split
  · exact Prog.Only.bind (Prog.Only.exec rfl) fun _ => trivial
  · trivial

theorem persist_only (outcome : RunGraphOutcome) :
    (persist runId outcome).Only (·.isResume = false) :=
  Prog.Only.bind (Prog.Only.exec rfl) fun _ => trivial

theorem executeAgentRun_only : (executeAgentRun job).Only (·.isResume = false) := by
  refine Prog.Only.bind ?_ fun runId => Prog.Only.bind (Prog.Only.exec rfl) fun preparation => ?_
  · unfold requireUUID
    split <;> trivial
  split
  · refine Prog.Only.bind (Prog.Only.tryCatch (Prog.Only.exec rfl) fun e => ?_) fun outcome =>
      persist_only outcome
    exact Prog.Only.bind (handleFailure_only e) fun _ => trivial
  · trivial

/-- The graph call of a resume, and what follows it. -/
theorem guardGraph_safe {run : RunRecord} {payload : Payload} (h : Handed σ₀ pid run.id payload) :
    Safe (machine settings) handing pid (fun _ _ => True)
      ((guardGraph job runId (Prog.exec (Stmt.graphResume run payload))).bind fun outcome =>
        persist runId outcome) σ₀ := by
  refine Safe.seq (Safe.tryCatch ?_) fun outcome => handing_only (persist_only outcome)
  refine fun σ₁ hr _ => ⟨h.rely hr, fun c r σ₂ _ _ => ?_⟩
  cases r with
  | ok outcome => trivial
  | error e =>
    refine handing_only (Prog.Only.bind (handleFailure_only e) fun _ => ?_) σ₂
    trivial

theorem resumeAgentRun_safe :
    Safe (machine settings) handing pid (fun _ _ => True) (resumeAgentRun job) σ₀ := by
  refine Safe.seq ?_ fun runId σ₁ => ?_
  · unfold requireUUID
    split <;> trivial
  -- what the attempt is prepared with is what it hands on
  refine Safe.bind (fun σ₂ _ hi => ⟨trivial, fun c r σ₃ hx _ => ?_⟩)
  cases r with
  | error e => trivial
  | ok preparation =>
    show Safe _ _ _ _ (if preparation.invoke then _ else _) σ₃
    split
    · next hinvoke =>
      cases hpayload : preparation.resumePayload with
      | none => trivial
      | some payload => exact guardGraph_safe (prepareResume_handed hi hx hinvoke hpayload)
    · trivial

theorem handler_safe : Safe (machine settings) handing pid (fun _ _ => True) (handler job) σ₀ := by
  unfold handler
  split
  · exact handing_only executeAgentRun_only σ₀
  split
  · exact resumeAgentRun_safe
  · exact handing_only (Prog.Only.exec rfl) σ₀

theorem invokeHandler_hands (delivery : Delivery) :
    Safe (machine settings) handing pid (fun _ _ => True) (invokeHandler delivery) σ₀ := by
  refine Safe.seq (Safe.tryCatch (Safe.mono (Safe.seq handler_safe fun _ _ => trivial)
    fun r σ₁ _ => ?_))
    fun returned σ₁ => ?_
  · cases r with
    | ok u => trivial
    | error e =>
      refine handing_only (Prog.Only.bind (Prog.Only.exec rfl) fun _ => ?_) σ₁
      trivial
  · cases returned with
    | none => trivial
    | some u => exact handing_only (Prog.Only.exec rfl) σ₁

end

section
variable {σ σ' : WorkStore} {c : Choice} {α : Type} {t : Transaction α}

@[simp] theorem transact_prepared : (transact c σ t).2.prepared = σ.prepared := by
  unfold transact
  split <;> rfl

/-- A statement is at most a preparation of its own attempt. -/
theorem exec_prepared {s : Stmt} {r : Except RunError s.Res}
    (h : exec settings pid s c σ = some (r, σ')) {q : Nat} (hq : q ≠ pid) :
    σ'.prepared q = σ.prepared q := by
  have hnoted : ∀ (runId : UUID) (t : Transaction RunExecutionPreparation),
      (noting (notePrepared pid runId) (transact c σ t)).2.prepared q = σ.prepared q := by
    intro runId t
    have hsame : (transact c σ t).2.prepared = σ.prepared := transact_prepared
    generalize transact c σ t = x at hsame ⊢
    obtain ⟨_ | _, σ₁⟩ := x
    · exact congrFun hsame q
    · simp only [noting, notePrepared, Function.update_of_ne hq]
      exact congrFun hsame q
  have hmarked : ∀ (runId : UUID) (x : Except RunError RunRecord × WorkStore),
      (noting (noteMarked pid runId) x).2.prepared = x.2.prepared := by
    rintro runId ⟨_ | _, σ₁⟩ <;> rfl
  cases s with
  | prepareExecute runId | prepareResume runId =>
    obtain rfl : σ' = _ := (congrArg Prod.snd (Option.some.inj h)).symm
    exact hnoted runId _
  | markFinalFailure runId errorCode =>
    obtain rfl : σ' = _ := (congrArg Prod.snd (Option.some.inj h)).symm
    rw [hmarked, transact_prepared]
  | graphExecute | graphResume | persistOutcome | complete | fail =>
    obtain rfl : σ' = _ := (congrArg Prod.snd (Option.some.inj h)).symm
    rw [transact_prepared]
  | otherHandler =>
    obtain rfl : σ' = _ := (congrArg Prod.snd (Option.some.inj h)).symm
    rfl

theorem outside_prepared {e : Outside} (h : outside settings e σ = some σ') :
    σ'.prepared = σ.prepared := by
  have hrun : ∀ {β : Type} {t : Transaction β}, outside.run t σ = some σ' →
      σ'.prepared = σ.prepared := by
    intro β t ht
    rcases outsideRun_cases ht with rfl | ⟨_, τ, -, rfl⟩ <;> rfl
  cases e with
  | createRun | resumeRun | heartbeat => exact hrun h
  | enqueue request id now =>
    simp only [outside] at h
    split at h
    · cases h
    · exact hrun h
  | claim | reap =>
    cases h
    rfl

theorem accepted_suffix {e : Outside} (hk : WorkKept σ) (h : outside settings e σ = some σ')
    (runId : UUID) :
    accepted (σ.events runId) <:+ accepted (σ'.events runId) := by
  rcases outside_accepted hk h runId with hsame | ⟨_, _, _, -, -, heq⟩
  · exact hsame.symm ▸ List.suffix_refl _
  · rw [heq]
    exact List.suffix_cons _ _

end

theorem handing_fits : handing.Fits (machine settings) (fun _ => True) fun _ _ _ => True where
  start delivery pid σ₀ p σ₁ _ hi h := by
    obtain ⟨hmem, rfl, hstep⟩ := start_step h
    refine ⟨hi.step hstep, fun q hq => ?_, invokeHandler_hands delivery⟩
    simp only [machine] at h
    rw [if_pos hmem] at h
    obtain ⟨-, rfl⟩ := Prod.mk.inj (Option.some.inj h)
    exact ⟨Function.update_of_ne hq .., fun _ => List.suffix_refl _⟩
  exec pid s c σ₀ r σ₁ hi _ _ h := by
    refine ⟨hi.step (exec_step hi h), fun q hq => ⟨exec_prepared h hq, fun runId => ?_⟩⟩
    exact (exec_accepted hi h).symm ▸ List.suffix_refl _
  finish _ _ σ₀ hi := ⟨hi, fun _ _ => ⟨rfl, fun _ => List.suffix_refl _⟩⟩
  kill _ σ₀ hi := ⟨hi, fun _ _ => ⟨rfl, fun _ => List.suffix_refl _⟩⟩
  env e σ₀ σ₁ hi h :=
    ⟨hi.step (outside_step hi h), fun _ => ⟨congrFun (outside_prepared h) _, accepted_suffix hi h⟩⟩

/-! ## Together -/

/-- What a step accepts, refuses and hands on. -/
structure ResumesRight (settings : Jobs.Settings) (a : RunAction) (w : RunWorld) : Prop where
  accepts : Accepted settings a w
  refuses : Refuses settings w
  hands : HandsPrepared a w

theorem Initial.roundsKept {w : RunWorld} (h : Initial w) : RoundsKept w.shared.toRunStore where
  rounds runId row hrow := by
    rw [h.runs] at hrow
    cases hrow
  jobs runId := by
    rw [h.jobs, h.events]
    rfl

/-- **One resume for each wait**, in every state that is reached; and at every
step, only what the owner may ask for is accepted, all else changes nothing, and
a graph is resumed with what was accepted last when its attempt was prepared. -/
theorem one_resume {w : RunWorld} (h : Initial w) (as : List RunAction) :
    (machine settings).Always (fun w' => ∀ runId row, w'.shared.runs runId = some row →
      OneResume w'.shared.toRunStore runId) as w ∧
    (machine settings).EachStep (ResumesRight settings) as w := by
  have halways : (machine settings).Always (fun w => WorkKept w.shared ∧
      RoundsKept w.shared.toRunStore) as w :=
    always_work (P := fun σ => RoundsKept σ.toRunStore) h.workKept h.roundsKept
      fun hk hr hs => hr.effect hk.toKept hs.effect
  have hgood : (machine settings).Always (handing.Good (machine settings)) as w :=
    Spec.Good.all handing_fits (Spec.Good.of_idle h.workKept h.idle)
  refine ⟨halways.mono fun w' hw runId row hrow => hw.2.oneResume hrow,
    fun pre a hpre w₁ w₂ hr hs => ?_⟩
  have hk := (halways.step hpre hr hs).1.1
  have hg := (hgood.step hpre hr hs).1
  refine ⟨accepted_step hk, refuses hk, fun pid c run payload k _ hp => ?_⟩
  exact (hg.exec handing_fits hp).1

/-! ## An attempt that is overtaken before its graph call

The first resume attempt is prepared and outlives its lease; the second has
the run wait again, and the owner answers once more, before the first hands on
what it was prepared with. -/

/-- What a graph is about to be resumed with is the payload of the latest request. -/
def HandsLatest (a : RunAction) (w : RunWorld) : Prop :=
  ∀ pid c run payload k, a = .exec pid c → w.procs pid = some (.stmt (.graphResume run payload) k) →
    ∃ event, (accepted (w.shared.events run.id)).head? = some event ∧ event.payload = payload

namespace Sample

/-- What is handed out of the first resume's job. -/
def handedResume : Delivery where
  workerId := "worker"
  job := { (delivery 1 100000000).job with
    jobId := .ofNat 7, jobType := RESUME_AGENT_RUN, availableAt := 0 }

def handedResumeAgain : Delivery where
  workerId := "worker"
  job := { (delivery 2 200000000).job with
    jobId := .ofNat 7, jobType := RESUME_AGENT_RUN, lastErrorCode :=
      some "LEASE_EXPIRED", availableAt := 160000001 }

def cancels : RunAction :=
  .env (.resumeRun ⟨.ofNat 1, fun _ => .ok (.ofNat 2), .ofNat 5, run, .ofNat 8, 0⟩ run
    ⟨.CANCEL, "hash"⟩)

def waitsTwice : List RunAction :=
  [createsIssue, claims 0, .start (delivery 1 0) 0] ++ attempt 0 .WAITING_CONFIRMATION ++
    [confirms, claims 100000000, .start handedResume 1, .exec 1 (answers .SUCCEEDED),
      reaps 160000001,
      claims 200000000, .start handedResumeAgain 2] ++ attempt 2 .WAITING_CONFIRMATION ++ [cancels]

/-- The attempt is about to hand on a payload that is not the latest. -/
def handsOld (w : RunWorld) : Bool :=
  match w.procs 1 with
  | some (.stmt (.graphResume r payload) _) =>
    (accepted (w.shared.events r.id)).head?.all (·.payload != payload)
  | _ => false

theorem waitsTwice_handsOld : ((machine queue).run waitsTwice world).any (fun w =>
    handsOld w && ((machine queue).step (.exec 1 (answers .SUCCEEDED)) w).isSome) = true := by
  decide +kernel

theorem not_handsLatest {c : Choice} {w : RunWorld} (h : handsOld w = true) :
    ¬ HandsLatest (.exec 1 c) w := by
  intro hlatest
  unfold handsOld at h
  split at h
  · next r payload k hp =>
    obtain ⟨event, hevent, hpayload⟩ := hlatest 1 c r payload k rfl hp
    rw [hevent, Option.all_some, hpayload] at h
    exact absurd h (by simp)
  · cases h

end Sample

theorem hands_old : Initial Sample.world ∧ ¬ (machine Sample.queue).EachStep HandsLatest
    (Sample.waitsTwice ++ [.exec 1 (Sample.answers .SUCCEEDED)]) Sample.world := by
  refine ⟨Sample.world_initial, fun hlatest => ?_⟩
  obtain ⟨w, hr, hobs⟩ := (Option.any_eq_true _ _).mp Sample.waitsTwice_handsOld
  obtain ⟨hold, hstep⟩ := Bool.and_eq_true_iff.mp hobs
  obtain ⟨w', hs⟩ := Option.isSome_iff_exists.mp hstep
  exact Sample.not_handsLatest hold (hlatest Sample.waitsTwice _ (List.prefix_refl _) w w' hr hs)

/-- So for a run that waits, and is resumed, twice. -/
theorem one_resume_waitsTwice :
    (machine Sample.queue).Always (fun w' => ∀ runId row, w'.shared.runs runId = some row →
      OneResume w'.shared.toRunStore runId) Sample.waitsTwice Sample.world ∧
    (machine Sample.queue).EachStep (ResumesRight Sample.queue) Sample.waitsTwice Sample.world :=
  one_resume Sample.world_initial Sample.waitsTwice

end ProjectAgent.Runs
