/-
The event stream: the numbered frames `iter_sse_events` sends, and a client that
reconnects with the last id it has received. The generator is what it is
between two of its calls of the repository, each of which reads the rows that
are committed then; `json.dumps` is a parameter.
-/
import ProjectAgent.Runs.Store
import ProjectAgent.Lib.Log

namespace ProjectAgent.Runs

open Interleave

namespace AgentEventType

def value : AgentEventType → String
  | RUN_QUEUED => "RUN_QUEUED"
  | RUN_STARTED => "RUN_STARTED"
  | RUN_PROGRESS => "RUN_PROGRESS"
  | ARTIFACT_AVAILABLE => "ARTIFACT_AVAILABLE"
  | WAITING_CONFIRMATION => "WAITING_CONFIRMATION"
  | RUN_RESUME_QUEUED => "RUN_RESUME_QUEUED"
  | RUN_RESUMED => "RUN_RESUMED"
  | RUN_SUCCEEDED => "RUN_SUCCEEDED"
  | RUN_REFUSED => "RUN_REFUSED"
  | RUN_CANCELLED => "RUN_CANCELLED"
  | RUN_FAILED => "RUN_FAILED"

end AgentEventType

/-- `ORDER BY sequence_no ASC`, of the rows past the cursor, whatever order they are stored in. -/
def listEventsAfter (rows : List AgentEvent) (afterSequence limit : Nat) : List AgentEvent :=
  if limit < 1 then []
  else ((rows.filter fun e => afterSequence < e.sequenceNo).insertionSort fun e e' =>
    e.sequenceNo ≤ e'.sequenceNo).take limit

/-- The digits `int` converts at most. -/
def maxStrDigits : Nat := 4300

def parseLastEventId : Option String → Except RunError Nat
  | none => .ok 0
  | some value =>
    if value = "" then .ok 0
    else if !value.toList.all Char.isDigit then .error (.valueError "invalid Last-Event-ID")
    else if maxStrDigits < value.length then
      .error (.valueError ("Exceeds the limit (" ++ toString maxStrDigits ++
        " digits) for integer string conversion: value has " ++ toString value.length ++
        " digits; use sys.set_int_max_str_digits() to increase the limit"))
    else .ok (Nat.ofDigitChars 10 value.toList 0)

def encodeSseEvent (dumps : Payload → String) (event : AgentEvent) : String :=
  "id: " ++ toString event.sequenceNo ++ "\n" ++ ("event: " ++ event.eventType.value ++ "\n" ++
    ("data: " ++ dumps event.payload ++ "\n\n"))

/-! ## The generator -/

inductive Phase where
  /-- About to call `list_events_after`. -/
  | listing
  /-- In the `for` loop, at an event of the page. -/
  | yielding (event : AgentEvent) (page : List AgentEvent)
  /-- About to call `get_run`, after an empty page. -/
  | checking
  | finished
deriving DecidableEq

structure Generator where
  cursor : Nat
  phase : Phase
deriving DecidableEq

def Generator.start (afterSequence : Nat) : Generator := ⟨afterSequence, .listing⟩

/-- What the `for` loop does next. -/
def nextPhase (event : AgentEvent) (page : List AgentEvent) : Phase :=
  if event.eventType.terminal then .finished
  else match page with
    | [] => .listing
    | event :: page => .yielding event page

/-- One call, or one `yield`, of `iter_sse_events`, over the rows of its run and the run's status at
that moment. -/
def Generator.next (rows : List AgentEvent) (status : Option RunStatus) (g : Generator) :
    Option (Generator × Option AgentEvent) :=
  match g.phase with
  | .listing =>
    match listEventsAfter rows g.cursor 100 with
    | [] => some (⟨g.cursor, .checking⟩, none)
    | event :: page => some (⟨g.cursor, .yielding event page⟩, none)
  | .yielding event page => some (⟨event.sequenceNo, nextPhase event page⟩, some event)
  | .checking => some (⟨g.cursor, if status.all (·.terminal) then .finished else .listing⟩, none)
  | .finished => none

/-! ## A client that reconnects -/

structure Client where
  /-- The header it connects with. -/
  lastEventId : Option String
  /-- `none` where the request is refused. -/
  stream : Option Generator
  /-- Sent, and not received yet. -/
  wire : List String
  received : List String

def connect (lastEventId : Option String) (received : List String) : Client where
  lastEventId := lastEventId
  stream := match parseLastEventId lastEventId with
    | .ok afterSequence => some (.start afterSequence)
    | .error _ => none
  wire := []
  received := received

/-- The `id` line of a frame. -/
def frameId (frame : String) : String := String.ofList ((frame.toList.drop 4).takeWhile (· ≠ '\n'))

inductive ClientStep where
  /-- The stream it is connected to goes on. -/
  | stream
  | receive
  /-- At any time; what is on the wire is lost. -/
  | reconnect

def Client.next (dumps : Payload → String) (rows : List AgentEvent) (status : Option RunStatus) :
    ClientStep → Client → Option Client
  | .stream, client => do
    let g ← client.stream
    let (g, event) ← g.next rows status
    pure { client with
      stream := some g, wire := client.wire ++ (event.map (encodeSseEvent dumps)).toList }
  | .receive, client =>
    match client.wire with
    | [] => none
    | frame :: wire => some { client with
        wire := wire, received := client.received ++ [frame], lastEventId := some (frameId frame) }
  | .reconnect, client => some (connect client.lastEventId client.received)

/-! ## The texts -/

theorem isDigit_of_mem_repr {n : Nat} {c : Char} (h : c ∈ (toString n).toList) : c.isDigit := by
  rw [Nat.toString_eq_repr, Nat.repr_eq_ofList_toDigits, String.toList_ofList] at h
  exact Nat.isDigit_of_mem_toDigits (by decide) (by decide) h

/-- A frame's id line is its event's number. -/
theorem frameId_encode (dumps : Payload → String) (event : AgentEvent) :
    frameId (encodeSseEvent dumps event) = toString event.sequenceNo := by
  have hdigits : ∀ c ∈ (toString event.sequenceNo).toList, decide (c ≠ '\n') = true := by
    intro c hc
    rw [decide_eq_true_eq]
    rintro rfl
    have hnot := isDigit_of_mem_repr hc
    exact absurd hnot (by decide)
  unfold frameId encodeSseEvent
  simp only [String.toList_append, List.append_assoc]
  show String.ofList (((toString event.sequenceNo).toList ++ ('\n' :: _)).takeWhile _) = _
  rw [List.takeWhile_append_of_pos hdigits, List.takeWhile_cons_of_neg (by decide), List.append_nil,
    String.ofList_toList]

/-- The client's header brings the server's cursor back. -/
theorem parseLastEventId_toString {n : Nat} (h : n < 10 ^ maxStrDigits) :
    parseLastEventId (some (toString n)) = .ok n := by
  have hne : toString n ≠ "" := by
    intro heq
    have hpos := Nat.length_repr_pos (n := n)
    rw [← Nat.toString_eq_repr, heq] at hpos
    exact absurd hpos (by decide)
  have hdigits : (toString n).toList.all Char.isDigit = true :=
    List.all_eq_true.mpr fun c hc => isDigit_of_mem_repr hc
  have hlength : ¬ maxStrDigits < (toString n).length := by
    rw [Nat.toString_eq_repr]
    exact Nat.not_lt.mpr ((Nat.length_repr_le_iff (by decide)).mpr h)
  unfold parseLastEventId
  dsimp only
  rw [if_neg hne, hdigits, if_neg (by decide), if_neg hlength, Nat.toString_eq_repr,
    Nat.repr_eq_ofList_toDigits,
    String.toList_ofList, Nat.ofDigitChars_ten_toDigits]

end ProjectAgent.Runs
