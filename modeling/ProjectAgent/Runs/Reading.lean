/-
What a generator yields and a client has received of a run's events, numbered
upwards: the events between the cursor it began with and the one it has come
to, each once and in order, however often it reconnects and whatever is
appended meanwhile.
-/
import ProjectAgent.Runs.Stream

namespace ProjectAgent.Runs

open Interleave Log

variable {dumps : Payload → String} {log rest rows : List AgentEvent} {status : Option RunStatus}
  {start pos limit : Nat}
  {g g' : Generator} {out : Option AgentEvent} {client client' : Client}

abbrev Numbered (log : List AgentEvent) : Prop := Ascending AgentEvent.sequenceNo log

/-- The page is what comes next in the log, in whatever order the rows are stored. -/
theorem listEventsAfter_eq (hlog : Numbered log) (hrows : rows.Perm log) (afterSequence : Nat) :
    listEventsAfter rows afterSequence limit =
      (past AgentEvent.sequenceNo afterSequence log).take limit := by
  unfold listEventsAfter
  split
  · next hlimit =>
    obtain rfl : limit = 0 := by omega
    rfl
  · rw [sorted_past hlog hrows]

/-! ## The generator -/

/-- The generator has come from `start` to an event of the log, and its page is what follows
there. -/
structure Generator.Reads (log : List AgentEvent) (start : Nat) (g : Generator) : Prop where
  known : Known AgentEvent.sequenceNo start g.cursor log
  le : start ≤ g.cursor
  page : ∀ event page, g.phase = .yielding event page →
    ∃ rest, past AgentEvent.sequenceNo g.cursor log = event :: (page ++ rest)

namespace Generator.Reads

theorem at_start (hknown : Known AgentEvent.sequenceNo start pos log) (hle : start ≤ pos) :
    Reads log start (.start pos) :=
  ⟨hknown, hle, fun _ _ h => nomatch h⟩

/-- Events are appended behind what it reads. -/
theorem append (h : Reads log start g) (rest : List AgentEvent) : Reads (log ++ rest) start g := by
  refine ⟨h.known.append rest, h.le, fun event page hp => ?_⟩
  obtain ⟨more, hmore⟩ := h.page event page hp
  refine ⟨more ++ past AgentEvent.sequenceNo g.cursor rest, ?_⟩
  rw [past_append, hmore, List.cons_append, List.append_assoc]

/-- **The next thing a generator yields is the log's next event past its cursor.** -/
theorem next (h : Reads log start g) (hlog : Numbered log) (hrows : rows.Perm log)
    (hn : g.next rows status = some (g', out)) :
    Reads log start g' ∧ (out = none ∧ g'.cursor = g.cursor ∨
      ∃ event tail, out = some event ∧ past AgentEvent.sequenceNo g.cursor log = event :: tail ∧
        g'.cursor = event.sequenceNo) := by
  obtain ⟨cursor, phase⟩ := g
  cases phase with
  | listing =>
    simp only [Generator.next, listEventsAfter_eq hlog hrows] at hn
    split at hn
    · cases hn
      exact ⟨⟨h.known, h.le, fun _ _ hp => nomatch hp⟩, .inl ⟨rfl, rfl⟩⟩
    · next event page hpage =>
      cases hn
      refine ⟨⟨h.known, h.le, fun event' page' hp => ?_⟩, .inl ⟨rfl, rfl⟩⟩
      cases hp
      refine ⟨(past AgentEvent.sequenceNo cursor log).drop 100, ?_⟩
      have hsplit := List.take_append_drop 100 (past AgentEvent.sequenceNo cursor log)
      rw [hpage, List.cons_append] at hsplit
      exact hsplit.symm
  | yielding event page =>
    cases hn
    obtain ⟨rest, hrest⟩ := h.page event page rfl
    have hmem : event ∈ past AgentEvent.sequenceNo cursor log := hrest ▸ List.mem_cons_self
    obtain ⟨hevent, hlt⟩ := mem_past.mp hmem
    refine ⟨⟨.inr ⟨event, hevent, rfl⟩, Nat.le_trans h.le (Nat.le_of_lt hlt),
      fun event' page' hp => ?_⟩,
      .inr ⟨event, page ++ rest, rfl, hrest, rfl⟩⟩
    refine ⟨rest, ?_⟩
    rw [(past_next hlog hrest).1]
    unfold nextPhase at hp
    split at hp
    · cases hp
    · cases page with
      | nil => cases hp
      | cons => cases hp; rfl
  | checking =>
    cases hn
    refine ⟨⟨h.known, h.le, fun event page hp => ?_⟩, .inl ⟨rfl, rfl⟩⟩
    dsimp only at hp
    split at hp <;> cases hp
  | finished => cases hn

end Generator.Reads

/-! ## The client -/

/-- A client that has begun at `start` and has come to `pos`: what it has received, and what is on
the wire. -/
structure Client.At (dumps : Payload → String) (log : List AgentEvent) (start pos : Nat)
    (client : Client) : Prop where
  header : parseLastEventId client.lastEventId = .ok pos
  le : start ≤ pos
  known : Known AgentEvent.sequenceNo start pos log
  received : client.received = (between AgentEvent.sequenceNo start pos log).map
    (encodeSseEvent dumps)
  stream : ∃ g, client.stream = some g ∧ g.Reads log start ∧ pos ≤ g.cursor ∧
    client.wire = (between AgentEvent.sequenceNo pos g.cursor log).map (encodeSseEvent dumps)

namespace Client.At

theorem connect {header : Option String} {received : List String}
    (hheader : parseLastEventId header = .ok pos) (hle : start ≤ pos)
    (hknown : Known AgentEvent.sequenceNo start pos log)
    (hreceived : received = (between AgentEvent.sequenceNo start pos log).map
      (encodeSseEvent dumps)) :
    Client.At dumps log start pos (connect header received) := by
  refine ⟨hheader, hle, hknown, hreceived, .start pos, ?_, Generator.Reads.at_start hknown hle,
    Nat.le_refl _, ?_⟩
  · unfold Runs.connect
    rw [hheader]
  · show [] = List.map _ (between _ pos pos log)
    rw [between_self]
    rfl

/-- The committed log grows at its end. -/
theorem append (h : Client.At dumps log start pos client) (hlog : Numbered (log ++ rest)) :
    Client.At dumps (log ++ rest) start pos client := by
  obtain ⟨g, hg, hreads, hpos, hwire⟩ := h.stream
  have hcursor : Known AgentEvent.sequenceNo pos g.cursor log := by
    rcases hreads.known with hstart | hevent
    · exact .inl (Nat.le_antisymm (hstart ▸ h.le) hpos)
    · exact .inr hevent
  refine ⟨h.header, h.le, h.known.append rest, ?_, g, hg, hreads.append rest, hpos, ?_⟩
  · rw [between_append hlog h.known]
    exact h.received
  · rw [between_append hlog hcursor]
    exact hwire

/-- **Whatever the client does, it is where it was or one event further.** -/
theorem next (h : Client.At dumps log start pos client) (hlog : Numbered log)
    (hrows : rows.Perm log) (hsmall : ∀ event ∈ log, event.sequenceNo < 10 ^ maxStrDigits)
    {step : ClientStep} (hn : Client.next dumps rows status step client = some client') :
    ∃ pos', Client.At dumps log start pos' client' := by
  obtain ⟨g, hg, hreads, hpos, hwire⟩ := h.stream
  cases step with
  | stream =>
    obtain ⟨g₁, hg₁, hn⟩ := Option.bind_eq_some_iff.mp hn
    obtain rfl : g = g₁ := Option.some.inj (hg.symm.trans hg₁)
    obtain ⟨⟨g', out⟩, hnext, heq⟩ := Option.bind_eq_some_iff.mp hn
    cases heq
    obtain ⟨hreads', ⟨rfl, hcursor⟩ | ⟨event, tail, rfl, hpast, hcursor⟩⟩ :=
      hreads.next hlog hrows hnext
    · refine ⟨pos, h.header, h.le, h.known, h.received, g', rfl, hreads', hcursor ▸ hpos, ?_⟩
      rw [hcursor, ← hwire]
      exact List.append_nil _
    · have hlt : g.cursor < event.sequenceNo := (mem_past.mp (hpast ▸ List.mem_cons_self)).2
      refine ⟨pos, h.header, h.le, h.known, h.received, g', rfl, hreads', by omega, ?_⟩
      rw [hcursor, between_next hlog hpast hpos, List.map_append, ← hwire]
      rfl
  | receive =>
    unfold Client.next at hn
    dsimp only at hn
    split at hn
    · cases hn
    · next frame wire hframe =>
      cases hn
      rw [hframe] at hwire
      obtain ⟨event, tail, hbetween, rfl, rfl⟩ := List.map_eq_cons_iff.mp hwire.symm
      obtain ⟨hmem, hlt, hle⟩ := mem_between.mp (hbetween ▸ List.mem_cons_self)
      obtain ⟨htail, hnext⟩ := between_cons hlog hbetween
      refine ⟨event.sequenceNo, ?_, Nat.le_trans h.le (Nat.le_of_lt hlt), .inr ⟨event, hmem, rfl⟩,
        ?_, g, hg, hreads, hle, ?_⟩
      · show parseLastEventId (some (frameId _)) = _
        rw [frameId_encode]
        exact parseLastEventId_toString (hsmall event hmem)
      · rw [hnext h.le, List.map_append, h.received]
        rfl
      · rw [htail]
  | reconnect =>
    cases hn
    exact ⟨pos, .connect h.header h.le h.known h.received⟩

/-- A client that connects again is sent the next event, if there is one. -/
theorem receives (status : Option RunStatus) (h : Client.At dumps log start pos client)
    (hlog : Numbered log) (hrows : rows.Perm log)
    (hsmall : ∀ event ∈ log, event.sequenceNo < 10 ^ maxStrDigits) {event : AgentEvent}
    {tail : List AgentEvent} (hpast : past AgentEvent.sequenceNo pos log = event :: tail) :
    ∃ client',
      [.reconnect, .stream, .stream, .receive].foldlM (fun client step =>
        Client.next dumps rows status step client) client =
        some client' ∧ Client.At dumps log start event.sequenceNo client' := by
  have hmem :=
    (mem_past.mp (hpast ▸ List.mem_cons_self : event ∈ past AgentEvent.sequenceNo pos log)).1
  have hpage : listEventsAfter rows pos 100 = event :: tail.take 99 := by
    rw [listEventsAfter_eq hlog hrows, hpast]
    rfl
  let client₀ : Client := Runs.connect client.lastEventId client.received
  let client₁ : Client := { client₀ with stream := some ⟨pos, .yielding event (tail.take 99)⟩ }
  let client₂ : Client := { client₁ with
    stream := some ⟨event.sequenceNo, nextPhase event (tail.take 99)⟩, wire :=
      [encodeSseEvent dumps event] }
  let client₃ : Client := { client₂ with
    wire := [], received := client.received ++ [encodeSseEvent dumps event]
    lastEventId := some (frameId (encodeSseEvent dumps event)) }
  have hstart : client₀.stream = some (.start pos) := by
    show (Runs.connect client.lastEventId client.received).stream = _
    unfold Runs.connect
    rw [h.header]
  have hlist : Client.next dumps rows status .stream client₀ = some client₁ := by
    unfold Client.next
    dsimp only
    rw [hstart]
    show (Generator.next rows status (.start pos)).bind _ = _
    unfold Generator.next Generator.start
    dsimp only
    rw [hpage]
    rfl
  have hyield : Client.next dumps rows status .stream client₁ = some client₂ := rfl
  have hreceive : Client.next dumps rows status .receive client₂ = some client₃ := rfl
  refine ⟨client₃, ?_, ?_⟩
  · rw [List.foldlM_cons, show Client.next dumps rows status .reconnect client =
      some client₀ from rfl]
    show List.foldlM _ client₀ _ = _
    rw [List.foldlM_cons, hlist]
    rfl
  · have hat₀ : Client.At dumps log start pos client₀ := .connect h.header h.le h.known h.received
    obtain ⟨pos₁, hat₁⟩ := hat₀.next hlog hrows hsmall hlist
    obtain ⟨pos₂, hat₂⟩ := hat₁.next hlog hrows hsmall hyield
    obtain ⟨pos₃, hat₃⟩ := hat₂.next hlog hrows hsmall hreceive
    -- The header says where it is.
    have hheader := hat₃.header
    rw [show client₃.lastEventId = some (toString event.sequenceNo)
      from congrArg some (frameId_encode dumps event),
      parseLastEventId_toString (hsmall event hmem)] at hheader
    cases hheader
    exact hat₃

/-- **A client that goes on connecting receives whatever is past its cursor.** -/
theorem catches_up (status : Option RunStatus) (h : Client.At dumps log start pos client)
    (hlog : Numbered log) (hrows : rows.Perm log)
    (hsmall : ∀ event ∈ log, event.sequenceNo < 10 ^ maxStrDigits) :
    ∃ (steps : List ClientStep) (client' : Client),
      steps.foldlM (fun client step => Client.next dumps rows status step client) client =
        some client' ∧
      client'.received = (past AgentEvent.sequenceNo start log).map (encodeSseEvent dumps) := by
  generalize hrest : past AgentEvent.sequenceNo pos log = missing
  induction missing generalizing pos client with
  | nil => exact ⟨[], client, rfl, by rw [h.received, between_eq_past hrest]⟩
  | cons event tail ih =>
    obtain ⟨client₁, hrun, hat⟩ := h.receives status hlog hrows hsmall hrest
    obtain ⟨steps, client', hrun', hreceived⟩ := ih hat (past_next hlog hrest).1
    refine ⟨[.reconnect, .stream, .stream, .receive] ++ steps, client', ?_, hreceived⟩
    rw [List.foldlM_append, hrun]
    exact hrun'

end Client.At

end ProjectAgent.Runs
