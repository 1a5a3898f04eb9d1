/-
A client of a run's event stream, beside any number of sessions that write runs
and events: what it has received is what is committed after its cursor, without
a gap, each event once and in order.
-/
import ProjectAgent.Runs.Numbering

namespace ProjectAgent.Runs.Sequence

open Interleave Log

variable {w w' : SequenceWorld} {a : SequenceAction} {runId : UUID}

/-- The client's next step, over what is committed at that moment. -/
def look (dumps : Payload → String) (runId : UUID) (step : ClientStep) (w : SequenceWorld)
    (client : Client) :
    Option Client :=
  Client.next dumps (w.shared.committed.eventsOf runId)
    ((w.shared.committed.run runId).map (·.status)) step client

abbrev SequenceWatch := Watch SequenceAction ClientStep

abbrev watch (dumps : Payload → String) (runId : UUID) :
    List SequenceWatch → SequenceWorld × Client → Option (SequenceWorld × Client) :=
  Watch.run machine.step (look dumps runId)

/-- What is committed stays, and what is committed after comes after. -/
theorem step_grows (hs : machine.step a w = some w') (runId : UUID) :
    w.shared.committed.eventsOf runId <+: w'.shared.committed.eventsOf runId := by
  rcases Machine.step_cases hs with ⟨script, pid, p, -, -, h, -⟩ | ⟨pid, fault, s, k, r, -, -, h, -⟩
    | ⟨pid, r, -, -, h, -⟩ |
    ⟨pid, p, -, -, h, -⟩ | ⟨e, -⟩
  · obtain ⟨-, h⟩ := Prod.mk.inj (Option.some.inj h)
    rw [← h]
    exact List.prefix_refl _
  · exact (exec_effect h).grows runId
  · rw [h]
    exact List.prefix_refl _
  · rw [h]
    exact List.prefix_refl _
  · exact e.elim

theorem Initial.inv (h : Initial w) : Inv w.shared where
  guarded pid write hw := by
    rw [h.pending pid] at hw
    cases hw
  committed runId := by
    rw [show w.shared.committed.eventsOf runId = [] by unfold Tables.eventsOf; rw [h.events]; rfl]
    exact ⟨rfl, Nat.zero_le _⟩
  view pid runId := by
    rw [eventsOf_view, h.pending pid, show w.shared.committed.eventsOf runId =
      [] by unfold Tables.eventsOf; rw [h.events]; rfl]
    exact ⟨rfl, Nat.zero_le _⟩

theorem Inv.parses {db : Store} (hi : Inv db) {event : AgentEvent}
    (he : event ∈ db.committed.eventsOf runId) :
    event.sequenceNo < 10 ^ maxStrDigits := by
  have hle := (hi.committed runId).le he
  have hsmall : maxInteger < 10 ^ maxStrDigits :=
    Nat.lt_of_lt_of_le (by decide : maxInteger < 10 ^ 10)
      (Nat.pow_le_pow_right (by decide) (by decide))
  omega

/-- The sessions number the run's events, and the client has what it should have. -/
structure Delivered (dumps : Payload → String) (runId : UUID) (cursor : Nat) (w : SequenceWorld)
    (client : Client) : Prop where
  good : spec.Good machine w
  client : ∃ pos, Client.At dumps (w.shared.committed.eventsOf runId) cursor pos client

theorem Delivered.move {dumps : Payload → String} {cursor : Nat} {client : Client}
    (h : Delivered dumps runId cursor w client) (hs : machine.step a w = some w') :
    Delivered dumps runId cursor w' client := by
  have hgood := h.good.step spec_fits (a.allowed_all w) hs
  obtain ⟨pos, hat⟩ := h.client
  obtain ⟨rest, hrest⟩ := step_grows hs runId
  have hnumbered := (hgood.inv.committed runId).ascending
  refine ⟨hgood, pos, ?_⟩
  rw [← hrest] at hnumbered ⊢
  exact hat.append hnumbered

theorem Delivered.look {dumps : Payload → String} {cursor : Nat} {client client' : Client}
    {step : ClientStep} (h : Delivered dumps runId cursor w client)
    (hl : look dumps runId step w client = some client') :
    Delivered dumps runId cursor w client' := by
  obtain ⟨pos, hat⟩ := h.client
  have hnumbered := (h.good.inv.committed runId).ascending
  exact ⟨h.good, hat.next hnumbered (.refl _) (fun _ he => h.good.inv.parses he) hl⟩

/-- **Event streams are gap-free and lossless.** Whatever the sessions and the
client do, and in whatever order: every run's committed events are numbered
1, .., n in the order they were committed, and no step takes one back; what the
client has received is the committed events between the cursor it began with
and its last id, each once and in order; and it needs only go on to receive all
that are past the cursor. -/
theorem stream_gap_free (dumps : Payload → String) (runId : UUID) {w₀ : SequenceWorld}
    (h₀ : Initial w₀) {header : Option String} {cursor : Nat}
    (hheader : parseLastEventId header = .ok cursor) {steps : List SequenceWatch} {client : Client}
    (hr : watch dumps runId steps (w₀, connect header []) = some (w, client)) :
    (∀ r, (w.shared.committed.eventsOf r).map (·.sequenceNo) =
      List.range' 1 (w.shared.committed.eventsOf r).length) ∧
    (∀ a w', machine.step a w = some w' →
      ∀ r, w.shared.committed.eventsOf r <+: w'.shared.committed.eventsOf r) ∧
    (∃ last, parseLastEventId client.lastEventId = .ok last ∧ client.received =
      (between AgentEvent.sequenceNo cursor last (w.shared.committed.eventsOf runId)).map
        (encodeSseEvent dumps)) ∧
    ∃ (more : List ClientStep) (client' : Client), watch dumps runId (more.map .look) (w, client) =
      some (w, client') ∧
      client'.received = (past AgentEvent.sequenceNo cursor (w.shared.committed.eventsOf runId)).map
        (encodeSseEvent dumps) := by
  have hstart : Delivered dumps runId cursor w₀ (connect header []) := by
    refine ⟨.of_idle h₀.inv h₀.idle, cursor, .connect hheader (Nat.le_refl _) (.inl rfl) ?_⟩
    rw [between_self]
    rfl
  have hdelivered : Delivered dumps runId cursor w client :=
    Watch.invariant (P := fun x => Delivered dumps runId cursor x.1 x.2) hstart
      (fun _ _ _ _ h hs => h.move hs)
      (fun _ _ _ _ h hl => h.look hl) hr
  obtain ⟨hgood, pos, hat⟩ := hdelivered
  have hnumbered := (hgood.inv.committed runId).ascending
  refine ⟨fun r => (hgood.inv.committed r).numbers, fun a w' hs => step_grows hs,
    ⟨pos, hat.header, hat.received⟩, ?_⟩
  obtain ⟨more, client', hmore, hreceived⟩ :=
    hat.catches_up ((w.shared.committed.run runId).map (·.status))
    hnumbered (.refl _) fun _ he => hgood.inv.parses he
  refine ⟨more, client', ?_, hreceived⟩
  unfold watch
  rw [Watch.run_looks]
  show Option.map _ (more.foldlM (fun client step => Client.next dumps _ _ step client) client) = _
  rw [hmore]
  rfl

namespace Sample

def run : UUID := .ofNat 1

def idle : SequenceWorld := ⟨⟨⟨[], []⟩, fun _ => [], fun _ => none⟩, fun _ => none⟩

theorem idle_initial : Initial idle := ⟨fun _ => rfl, rfl, fun _ => rfl⟩

def creates : Script := do
  let _ ← Prog.exec (Call.createRun run (.ofNat 2) (.ofNat 3) (.ofNat 4) (.ofNat 5) .QA)
  let _ ← Prog.exec (Call.appendEvent run .RUN_QUEUED [])
  Prog.exec Call.commit

def artifact : Script := Prog.exec (Call.saveArtifact run "QUERY_ANALYSIS" "null")

def starts : Script := do
  let _ ← Prog.exec (Call.appendEvent run .RUN_STARTED [])
  Prog.exec Call.commit

def goesOn (pid : Nat) (statements : Nat) : List SequenceWatch :=
  List.replicate statements (.move (.exec pid none))

/-- A run is created; an artifact of it is lost; the client reads, loses its connection, and reads
on. -/
def steps : List SequenceWatch :=
  [.move (.start creates 0)] ++ goesOn 0 5 ++ [.move (.start artifact 1)] ++ goesOn 1 3 ++
    [.look .stream, .look .stream, .look .receive, .move (.kill 1), .move (.start starts 2)] ++
      goesOn 2 4 ++
    [.look .stream, .look .reconnect, .look .stream, .look .stream, .look .receive]

def outcome : Option (SequenceWorld × Client) :=
  watch (fun _ => "null") run steps (idle, connect none [])

theorem outcome_received : outcome.map (·.2.received.length) = some 2 := by decide +kernel

end Sample

/-- The sample's client has received two frames, of the events numbered 1 and 2. -/
theorem stream_gap_free_sample :
    ∃ w client, Sample.outcome = some (w, client) ∧ client.received.length = 2 ∧
    ∃ last, parseLastEventId client.lastEventId = .ok last ∧ client.received =
      (between AgentEvent.sequenceNo 0 last (w.shared.committed.eventsOf Sample.run)).map
        (encodeSseEvent fun _ => "null") := by
  obtain ⟨⟨w, client⟩, hrun, hlength⟩ := Option.map_eq_some_iff.mp Sample.outcome_received
  have hheader : parseLastEventId none = .ok 0 := rfl
  exact ⟨w, client, hrun, hlength,
    (stream_gap_free _ Sample.run Sample.idle_initial hheader hrun).2.2.1⟩

end ProjectAgent.Runs.Sequence
