/-
The runs and events at the database, one statement at a time: the run
repository's methods and the graph store's artifacts, called in any order by
any number of sessions at once. A session reads the committed rows and its own
writes; a run's row is locked `FOR UPDATE` by the first who asks, and waited for
by the others.
-/
import ProjectAgent.Runs.Stream
import ProjectAgent.Lib.Locking
import ProjectAgent.Lib.Machine

namespace ProjectAgent.Runs.Sequence

open Interleave

/-- A row of `agent_events`. -/
structure EventRow where
  runId : UUID
  event : AgentEvent
deriving DecidableEq

/-- Rows in the order they become visible. -/
structure Tables where
  runs : List AgentRun
  events : List EventRow

namespace Tables

def run (t : Tables) (runId : UUID) : Option AgentRun := t.runs.find? (·.id == runId)

def eventsOf (t : Tables) (runId : UUID) : List AgentEvent :=
  (t.events.filter (·.runId == runId)).map (·.event)

/-- `max(sequence_no)`. -/
def maxSequence (t : Tables) (runId : UUID) : Option Nat :=
  ((t.eventsOf runId).map (·.sequenceNo)).max?

/-- `ORDER BY sequence_no DESC LIMIT 1`, of the events of some types. -/
def latestEvent (t : Tables) (runId : UUID) (types : AgentEventType → Bool) : Option AgentEvent :=
  (((t.eventsOf runId).filter (types ·.eventType)).insertionSort fun e e' =>
    e'.sequenceNo ≤ e.sequenceNo).head?

end Tables

/-- What is set of a run's row: its status, and its times if `set_lifecycle` sets it. -/
structure RunUpdate where
  status : RunStatus
  times : Option (Option Nat × Option Nat)

def RunUpdate.apply (update : RunUpdate) (row : AgentRun) : AgentRun :=
  match update.times with
  | none => { row with status := update.status }
  | some (startedAt, finishedAt) =>
    { row with status := update.status, startedAt := startedAt, finishedAt := finishedAt }

inductive Write where
  | run (row : AgentRun)
  | event (row : EventRow)
  | update (runId : UUID) (change : RunUpdate)

def Write.apply : Write → Tables → Tables
  | .run row, t => { t with runs := t.runs ++ [row] }
  | .event row, t => { t with events := t.events ++ [row] }
  | .update runId change, t =>
    { t with runs := t.runs.map fun row => if row.id = runId then change.apply row else row }

/-- What is locked is a run's row. -/
abbrev Store := Db Tables Write UUID

/-- The session's own writes included. -/
abbrev view (pid : Nat) (db : Store) : Tables := Db.view Write.apply pid db

/-! ## Statements -/

inductive Stmt where
  | insertRun (row : AgentRun)
  | selectRun (runId : UUID)
  /-- `FOR UPDATE`. -/
  | lockRun (runId : UUID)
  | maxSequence (runId : UUID)
  | insertEvent (row : EventRow)
  | updateRun (runId : UUID) (update : RunUpdate)
  | selectEventsAfter (runId : UUID) (afterSequence limit : Nat)
  | selectLatestEvent (runId : UUID) (types : AgentEventType → Bool)
  | commit
  | rollback

abbrev Stmt.Res : Stmt → Type
  | .selectRun _ | .lockRun _ => Option AgentRun
  | .maxSequence _ => Option Nat
  | .selectEventsAfter _ _ _ => List AgentEvent
  | .selectLatestEvent _ _ => Option AgentEvent
  | .insertRun _ | .insertEvent _ | .updateRun _ _ | .commit | .rollback => Unit

/-- The largest `INTEGER`. -/
def maxInteger : Nat := 2147483647

def perform (pid : Nat) (db : Store) : (s : Stmt) → Option (Except RunError s.Res × Store)
  | .insertRun row =>
    if ((view pid db).run row.id).isSome then some (.error (.queue .integrityError), db)
    else some (.ok (), db.write pid (.run row))
  | .selectRun runId => some (.ok ((view pid db).run runId), db)
  | .lockRun runId =>
    match (view pid db).run runId with
    | none => some (.ok none, db)
    | some _ => (db.lock pid runId).map fun db => (.ok ((view pid db).run runId), db)
  | .maxSequence runId => some (.ok ((view pid db).maxSequence runId), db)
  | .insertEvent row =>
    if maxInteger < row.event.sequenceNo then some (.error (.raised "DataError"), db)
    else if ((view pid db).run row.runId).isNone ∨
        row.event.sequenceNo ∈ ((view pid db).eventsOf row.runId).map (·.sequenceNo) then
      some (.error (.queue .integrityError), db)
    else some (.ok (), db.write pid (.event row))
  | .updateRun runId update =>
    (db.lock pid runId).map fun db => (.ok (), db.write pid (.update runId update))
  | .selectEventsAfter runId afterSequence limit =>
    some (.ok (Runs.listEventsAfter ((view pid db).eventsOf runId) afterSequence limit), db)
  | .selectLatestEvent runId types => some (.ok ((view pid db).latestEvent runId types), db)
  | .commit => some (.ok (), db.commit Write.apply pid)
  | .rollback => some (.ok (), db.rollback pid)

/-- The connection fails, before the statement is done or after. -/
structure Fault where
  done : Bool
  error : String

/-- What a failing connection leaves undone is lost; a commit may have been done. -/
def exec (pid : Nat) (s : Stmt) (fault : Option Fault) (db : Store) :
    Option (Except RunError s.Res × Store) :=
  match fault with
  | none => perform pid db s
  | some fault =>
    match fault.done, s with
    | true, .commit => some (.error (.raised fault.error), db.commit Write.apply pid)
    | _, _ => some (.error (.raised fault.error), db)

abbrev Session := Prog Stmt Stmt.Res RunError

/-! ## `SqlAlchemyRunRepository` -/

def createRun (id threadId companyId projectId userId : UUID) (businessMode : RunBusinessMode) :
    Session RunRecord := do
  let row : AgentRun := ⟨id, threadId, companyId, projectId, userId, businessMode, .QUEUED,
    none, none⟩
  Prog.exec (Stmt.insertRun row)
  pure (toRun row none)

def withTerminal (runId : UUID) : Option AgentRun → Session (Option RunRecord)
  | none => pure none
  | some row => do
    let terminal ← Prog.exec (Stmt.selectLatestEvent runId AgentEventType.terminal)
    pure (some (toRun row terminal))

def getRun (runId : UUID) (forUpdate : Bool) : Session (Option RunRecord) := do
  let row ← if forUpdate then Prog.exec (Stmt.lockRun runId) else Prog.exec (Stmt.selectRun runId)
  withTerminal runId row

def appendEvent (runId : UUID) (eventType : AgentEventType) (payload : Payload) :
    Session AgentEvent := do
  match ← Prog.exec (Stmt.lockRun runId) with
  | none => throw (.lookupError runId)
  | some _ =>
    let currentMax ← Prog.exec (Stmt.maxSequence runId)
    let event : AgentEvent := ⟨currentMax.getD 0 + 1, eventType, payload⟩
    Prog.exec (Stmt.insertEvent ⟨runId, event⟩)
    pure event

def listEventsAfter (runId : UUID) (afterSequence limit : Nat) : Session (List AgentEvent) :=
  if limit < 1 then pure [] else Prog.exec (Stmt.selectEventsAfter runId afterSequence limit)

def latestEventOfType (runId : UUID) (eventType : AgentEventType) : Session (Option AgentEvent) :=
  Prog.exec (Stmt.selectLatestEvent runId (· == eventType))

def lockedUpdate (runId : UUID) (update : RunUpdate) : Session RunRecord := do
  match ← Prog.exec (Stmt.lockRun runId) with
  | none => throw (.lookupError runId)
  | some row =>
    Prog.exec (Stmt.updateRun runId update)
    pure (toRun (update.apply row) none)

def setStatus (runId : UUID) (status : RunStatus) : Session RunRecord :=
  lockedUpdate runId ⟨status, none⟩

def setLifecycle (runId : UUID) (status : RunStatus) (startedAt finishedAt : Option Nat) :
    Session RunRecord :=
  lockedUpdate runId ⟨status, some (startedAt, finishedAt)⟩

/-! ## `SqlAlchemyQAGraphStore` -/

def nextSequence (runId : UUID) : Session Nat := do
  match ← Prog.exec (Stmt.lockRun runId) with
  | none => throw (.lookupError runId)
  | some _ =>
    let current ← Prog.exec (Stmt.maxSequence runId)
    pure (current.getD 0 + 1)

/-- The artifact as JSON. -/
def saveArtifact (runId : UUID) (artifactType artifact : String) : Session Unit := do
  let sequenceNo ← nextSequence runId
  Prog.exec (Stmt.insertEvent ⟨runId, ⟨sequenceNo, .ARTIFACT_AVAILABLE,
    [("artifact_type", .str artifactType), ("artifact", .other artifact)]⟩⟩)

/-! ## Sessions -/

/-- What a session may call, as often and in whatever order it likes. -/
inductive Call where
  | createRun (id threadId companyId projectId userId : UUID) (businessMode : RunBusinessMode)
  | getRun (runId : UUID) (forUpdate : Bool)
  | appendEvent (runId : UUID) (eventType : AgentEventType) (payload : Payload)
  | listEventsAfter (runId : UUID) (afterSequence limit : Nat)
  | latestEventOfType (runId : UUID) (eventType : AgentEventType)
  | setStatus (runId : UUID) (status : RunStatus)
  | setLifecycle (runId : UUID) (status : RunStatus) (startedAt finishedAt : Option Nat)
  | saveArtifact (runId : UUID) (artifactType artifact : String)
  | commit
  | rollback

abbrev Call.Res : Call → Type
  | .createRun .. | .setStatus .. | .setLifecycle .. => RunRecord
  | .getRun .. => Option RunRecord
  | .appendEvent .. => AgentEvent
  | .listEventsAfter .. => List AgentEvent
  | .latestEventOfType .. => Option AgentEvent
  | .saveArtifact .. | .commit | .rollback => Unit

def Call.session : (call : Call) → Session call.Res
  | .createRun id threadId companyId projectId userId businessMode =>
    Sequence.createRun id threadId companyId projectId userId businessMode
  | .getRun runId forUpdate => Sequence.getRun runId forUpdate
  | .appendEvent runId eventType payload => Sequence.appendEvent runId eventType payload
  | .listEventsAfter runId afterSequence limit => Sequence.listEventsAfter runId afterSequence limit
  | .latestEventOfType runId eventType => Sequence.latestEventOfType runId eventType
  | .setStatus runId status => Sequence.setStatus runId status
  | .setLifecycle runId status startedAt finishedAt =>
    Sequence.setLifecycle runId status startedAt finishedAt
  | .saveArtifact runId artifactType artifact => Sequence.saveArtifact runId artifactType artifact
  | .commit => Prog.exec Stmt.commit
  | .rollback => Prog.exec Stmt.rollback

/-- A session goes on from what it is answered, and may catch what is raised. -/
abbrev Script := Prog Call Call.Res RunError Unit

/-- Sessions side by side; what a session has not committed when it ends, or is lost, is rolled
back. -/
def machine : Machine Stmt Stmt.Res RunError Store Script (Option Fault) Empty where
  start script pid db := some (script.translate Call.session, db.rollback pid)
  exec := exec
  finish pid _ db := db.rollback pid
  kill pid db := db.rollback pid
  env e _ := e.elim

abbrev SequenceWorld := World Stmt Stmt.Res RunError Store

abbrev SequenceAction := Action Script (Option Fault) Empty

/-- No session is at work, and no run is there yet. -/
structure Initial (w : SequenceWorld) : Prop where
  idle : ∀ pid, w.procs pid = none
  events : w.shared.committed.events = []
  pending : ∀ pid, w.shared.pending pid = []

end ProjectAgent.Runs.Sequence
