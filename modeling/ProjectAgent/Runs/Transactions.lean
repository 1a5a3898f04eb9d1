/-
The repository's methods under a lock. Once a session has locked a run, nobody
else changes the run's row or its events before it commits: each call does to the
run what the store's transaction of that name does to it, and so does what is
composed of them.
-/
import ProjectAgent.Runs.Numbering
import ProjectAgent.Runs.Effects

namespace ProjectAgent.Runs.Sequence

open Interleave

variable {pid : Nat} {db db' : Store} {runId : UUID} {t t' : Tables} {ws : List Write} {s : Stmt}
  {α β : Type}

/-! ## The rows of a run -/

/-- A run's row and its events, the latest first. -/
structure Rows where
  row : Option AgentRun
  events : List AgentEvent

def Tables.rows (t : Tables) (runId : UUID) : Rows := ⟨t.run runId, (t.eventsOf runId).reverse⟩

def rowsOf (σ : RunStore) (runId : UUID) : Rows := ⟨σ.runs runId, σ.events runId⟩

theorem rowsOf_event (σ : RunStore) (event : AgentEvent) :
    rowsOf { σ with events := Function.update σ.events runId (event :: σ.events runId) } runId =
      ⟨σ.runs runId, event :: σ.events runId⟩ :=
  congrArg (Rows.mk _) (Function.update_self ..)

theorem rowsOf_run (σ : RunStore) (row : AgentRun) :
    rowsOf { σ with runs := Function.update σ.runs runId (some row) } runId =
      ⟨some row, σ.events runId⟩ :=
  congrArg (Rows.mk · _) (Function.update_self ..)

/-- What a session has written it writes over what is committed, whichever row that is. -/
theorem run_foldl (h : (t.run runId).isSome) :
    (ws.foldl (fun t w => w.apply t) t).run runId = (t.run runId).map fun row =>
      ws.foldl (fun row w => w.onRow runId row) row := by
  induction ws generalizing t with
  | nil => exact Option.map_id'.symm
  | cons w ws ih =>
    have hrow : ((w.apply t).run runId).isSome := by
      rw [run_apply t h, Option.isSome_map]
      exact h
    rw [List.foldl_cons, ih hrow, run_apply t h, Option.map_map]
    rfl

theorem stays_run (h : Db.Stays guard pid db db') (hlocked : db.locked runId = some pid)
    (hrow : (db.committed.run runId).isSome) :
    (view pid db').run runId = (view pid db).run runId := by
  have hsame : db'.committed.run runId = db.committed.run runId := (h.same runId hlocked).2 hrow
  have hview : (view pid db').run runId = (db'.committed.run runId).map _ :=
    run_foldl (hsame ▸ hrow)
  rw [hview, hsame, h.pending]
  exact (run_foldl hrow).symm

/-- The session has locked the run, whose rows were these when it did, and sees them as these
now. -/
structure Mine (pid : Nat) (runId : UUID) (base now : Rows) (db : Store) : Prop where
  locked : db.locked runId = some pid
  there : base.row.isSome
  committed : db.committed.rows runId = base
  view : (view pid db).rows runId = now

namespace Mine

variable {base now : Rows}

theorem run_eq (h : Mine pid runId base now db) : (Sequence.view pid db).run runId = now.row :=
  congrArg Rows.row h.view

theorem events_eq (h : Mine pid runId base now db) :
    ((Sequence.view pid db).eventsOf runId).reverse = now.events :=
  congrArg Rows.events h.view

theorem committed_there (h : Mine pid runId base now db) : (db.committed.run runId).isSome := by
  have hrow : db.committed.run runId = base.row := congrArg Rows.row h.committed
  rw [hrow]
  exact h.there

/-- The run's row is still there. -/
theorem row (h : Mine pid runId base now db) : ∃ row, now.row = some row := by
  rw [← h.run_eq]
  have hview : (Sequence.view pid db).run runId = (db.committed.run runId).map _ :=
    run_foldl h.committed_there
  rw [hview]
  obtain ⟨row, hrow⟩ := Option.isSome_iff_exists.mp h.committed_there
  exact ⟨_, by rw [hrow]; rfl⟩

/-- **Whatever the others do.** -/
theorem stays (h : Mine pid runId base now db) (hstays : Db.Stays guard pid db db') :
    Mine pid runId base now db' where
  locked := (hstays.locked runId).mpr h.locked
  there := h.there
  committed := by
    obtain ⟨hevents, hrow⟩ := hstays.same runId h.locked
    rw [← h.committed]
    unfold Tables.rows
    rw [hrow h.committed_there, hevents]
  view := by
    rw [← h.view]
    unfold Tables.rows
    rw [stays_run hstays h.locked h.committed_there, stays_eventsOf hstays h.locked]

theorem write (h : Mine pid runId base now db) (w : Write) {next : Rows}
    (hnext : (w.apply (Sequence.view pid db)).rows runId = next) :
    Mine pid runId base next (db.write pid w) where
  locked := h.locked
  there := h.there
  committed := h.committed
  view := by
    rw [show Sequence.view pid (db.write pid w) = _ from Db.view_write_self]
    exact hnext

/-- Its own lock is granted again. -/
theorem lock (h : Mine pid runId base now db) : db.lock pid runId = some db := by
  unfold Db.lock
  rw [h.locked]
  exact if_pos rfl

end Mine

/-! ## Doing what a transaction does -/

def ofExcept : Except RunError α → Session α
  | .ok a => .ret a
  | .error e => .raise e

/-- What the transaction makes of these rows it has made of the session's, or it raises what the
session does; unless the connection or the database has raised. -/
def Did (pid : Nat) (runId : UUID) (base now : Rows) (f : Transaction α) :
    Except RunError α → Store → Prop
  | .ok a, db => ∃ next, Mine pid runId base next db ∧
      ∀ σ, rowsOf σ runId = now → ∃ σ', f σ = .ok (a, σ') ∧ rowsOf σ' runId = next
  | .error e, db => (db.committed.rows runId = base ∧ ∀ σ, rowsOf σ runId = now → f σ = .error e) ∨
      ∃ text, e = .raised text

/-- In a session that has locked the run. -/
def Does (pid : Nat) (runId : UUID) (p : Session α) (f : Transaction α) : Prop :=
  ∀ base now db, Mine pid runId base now db → SafeTo pid (Did pid runId base now f) p db

namespace Does

variable {p : Session α} {f : Transaction α}

theorem pure (a : α) : Does pid runId (.ret a) (Pure.pure a) :=
  fun _ now _ hmine => ⟨now, hmine, fun σ hσ => ⟨σ, rfl, hσ⟩⟩

theorem throw (e : RunError) : Does pid runId (.raise e : Session α) (throwThe RunError e) :=
  fun _ _ _ hmine => .inl ⟨hmine.committed, fun _ _ => rfl⟩

theorem ofExcept (r : Except RunError α) :
    Does pid runId (ofExcept r) (liftM r : Transaction α) := by
  cases r with
  | ok a => exact Does.pure a
  | error e => exact Does.throw e

theorem ite {c : Prop} [Decidable c] {q : Session α} {g : Transaction α}
    (hp : c → Does pid runId p f) (hq : ¬ c → Does pid runId q g) :
    Does pid runId (if c then p else q) (if c then f else g) := by
  by_cases h : c
  · rw [if_pos h, if_pos h]
    exact hp h
  · rw [if_neg h, if_neg h]
    exact hq h

theorem bind {q : α → Session β} {g : α → Transaction β} (hp : Does pid runId p f)
    (hq : ∀ a, Does pid runId (q a) (g a)) :
    Does pid runId (p.bind q) (f >>= g) := by
  intro base now db hmine
  refine (hp base now db hmine).andThen (fun a db₁ hdid => ?_) (fun e db₁ hdid => ?_)
  · obtain ⟨mid, hmid, hf⟩ := hdid
    refine (hq a base mid db₁ hmid).mono fun r db₂ hr => ?_
    cases r with
    | ok b =>
      obtain ⟨next, hnext, hg⟩ := hr
      refine ⟨next, hnext, fun σ hσ => ?_⟩
      obtain ⟨σ₁, hf₁, hσ₁⟩ := hf σ hσ
      obtain ⟨σ₂, hg₂, hσ₂⟩ := hg σ₁ hσ₁
      refine ⟨σ₂, ?_, hσ₂⟩
      show (f σ).bind _ = _
      rw [hf₁]
      exact hg₂
    | error e =>
      refine hr.imp_left fun ⟨hcommitted, hg⟩ => ⟨hcommitted, fun σ hσ => ?_⟩
      obtain ⟨σ₁, hf₁, hσ₁⟩ := hf σ hσ
      show (f σ).bind _ = _
      rw [hf₁]
      exact hg σ₁ hσ₁
  · refine hdid.imp_left fun ⟨hcommitted, hf⟩ => ⟨hcommitted, fun σ hσ => ?_⟩
    show (f σ).bind _ = _
    rw [hf σ hσ]
    rfl

end Does

/-! ## Statements under the lock -/

theorem exec_fault (s : Stmt) (fault : Fault) (hs : s ≠ .commit) :
    exec pid s (some fault) db = some (.error (.raised fault.error), db) := by
  obtain ⟨done, error⟩ := fault
  cases s with
  | commit => exact absurd rfl hs
  | _ => cases done <;> rfl

/-- What the database answers, if it does not raise. -/
def Answered {γ : Type} (Q : γ → Store → Prop) : Except RunError γ → Store → Prop
  | .ok a, db => Q a db
  | .error e, _ => ∃ text, e = .raised text

/-- A statement under the lock, and what follows it. -/
theorem Mine.exec {base now start : Rows} {f : Transaction α} {q : s.Res → Session α}
    (hmine : Mine pid runId base now db) (hs : s ≠ .commit)
    (hx : ∀ db₁, Mine pid runId base now db₁ → Inv db₁ → permit pid s db₁ ∧
      ∀ r db₂, perform pid db₁ s = some (r, db₂) →
      Answered (fun a db₂ => SafeTo pid (Did pid runId base start f) (q a) db₂) r db₂) :
    SafeTo pid (Did pid runId base start f) ((Prog.exec s).bind q) db := by
  have hstmt : SafeTo pid (Answered fun a db₂ => SafeTo pid (Did pid runId base start f) (q a) db₂)
      (.exec s) db := ?_
  · exact hstmt.andThen (fun a db₁ hsafe => hsafe) fun e db₁ hraised => .inr hraised
  refine Safe.stmt fun db₁ hstays hi => ?_
  obtain ⟨hpermit, hperform⟩ := hx db₁ (hmine.stays hstays) hi
  refine ⟨hpermit, fun fault r db₂ hexec _ => ?_⟩
  cases fault with
  | none => exact hperform r db₂ hexec
  | some fault =>
    obtain ⟨rfl, rfl⟩ := Prod.mk.inj (Option.some.inj ((exec_fault s fault hs).symm.trans hexec))
    exact ⟨fault.error, rfl⟩

/-! ## The repository's methods -/

theorem Gapless.latest (h : Gapless (t.eventsOf runId)) (types : AgentEventType → Bool) :
    t.latestEvent runId types = (t.eventsOf runId).reverse.find? (types ·.eventType) := by
  unfold Tables.latestEvent
  have hasc : Numbered ((t.eventsOf runId).filter (types ·.eventType)) := h.ascending.filter _
  have hperm : (((t.eventsOf runId).filter (types ·.eventType)).insertionSort fun e e' =>
    e'.sequenceNo ≤ e.sequenceNo).Perm
      ((t.eventsOf runId).filter (types ·.eventType)).reverse :=
    (List.perm_insertionSort _ _).trans (List.reverse_perm _).symm
  have htotal : Std.Total fun e e' : AgentEvent => e'.sequenceNo ≤ e.sequenceNo :=
    ⟨fun e e' => Nat.le_total _ _⟩
  have htrans : IsTrans AgentEvent fun e e' => e'.sequenceNo ≤ e.sequenceNo :=
    ⟨fun _ _ _ h h' => Nat.le_trans h' h⟩
  have hsorted : (((t.eventsOf runId).filter (types ·.eventType)).insertionSort fun e e' =>
      e'.sequenceNo ≤ e.sequenceNo) = ((t.eventsOf runId).filter (types ·.eventType)).reverse := by
    refine hperm.eq_of_pairwise (fun e e' he he' hle hle' => ?_) (List.pairwise_insertionSort _ _)
      (List.pairwise_reverse.mpr (hasc.imp Nat.le_of_lt))
    have hmem := List.mem_reverse.mp (hperm.mem_iff.mp he)
    have heq : e.sequenceNo = e'.sequenceNo := Nat.le_antisymm hle' hle
    exact List.inj_on_of_nodup_map (List.pairwise_map.mpr (hasc.imp Nat.ne_of_lt)) hmem
      (List.mem_reverse.mp he') heq
  rw [hsorted, ← List.filter_reverse, List.head?_filter]

theorem foldr_max (length : Nat) : (List.range' 1 length).reverse.foldr max 0 = length := by
  induction length with
  | zero => rfl
  | succ length ih =>
    rw [List.range'_concat, List.reverse_append, List.reverse_singleton, List.singleton_append,
      List.foldr_cons, ih]
    omega

theorem Gapless.next {events : List AgentEvent} (h : Gapless events) :
    Runs.nextSequence events.reverse = events.length + 1 := by
  unfold Runs.nextSequence
  rw [List.map_reverse, h.numbers, foldr_max]

/-- A statement that only reads. -/
theorem Does.read (s : Stmt) {a : Rows → s.Res} {f : Transaction s.Res} (hs : s ≠ .commit)
    (hpermit : ∀ db, permit pid s db)
    (hx : ∀ base now db, Mine pid runId base now db → Inv db →
      perform pid db s = some (.ok (a now), db))
    (hf : ∀ σ, f σ = .ok (a (rowsOf σ runId), σ)) : Does pid runId (Prog.exec s) f := by
  intro base now db hmine
  have hbind : Prog.exec s = (Prog.exec s).bind (.ret : s.Res → Session s.Res) :=
    (Prog.bind_ret _).symm
  rw [hbind]
  refine hmine.exec hs fun db₁ hmine₁ hi => ⟨hpermit db₁, fun r db₂ hr => ?_⟩
  obtain ⟨rfl, rfl⟩ := Prod.mk.inj (Option.some.inj ((hx base now db₁ hmine₁ hi).symm.trans hr))
  refine ⟨now, hmine₁, fun σ hσ => ⟨σ, ?_, hσ⟩⟩
  rw [hf, hσ]

theorem Mine.latest {base now : Rows} (h : Mine pid runId base now db) (hi : Inv db)
    (types : AgentEventType → Bool) :
    (Sequence.view pid db).latestEvent runId types = now.events.find? (types ·.eventType) := by
  rw [(hi.view pid runId).latest, h.events_eq]

theorem does_latestEventOfType (eventType : AgentEventType) :
    Does pid runId (latestEventOfType runId eventType)
      (Runs.latestEventOfType runId eventType) := by
  refine Does.read (.selectLatestEvent runId (· == eventType))
    (a := fun now => now.events.find? (·.eventType == eventType)) (by simp) (fun _ => trivial)
    (fun base now db hmine hi => ?_) fun σ => rfl
  show some (Except.ok ((view pid db).latestEvent runId (· == eventType)), db) = _
  rw [hmine.latest hi]

/-- The row of the run, as a transaction reads it. -/
def readRun (runId : UUID) : Transaction (Option AgentRun) := fun σ => .ok (σ.runs runId, σ)

theorem does_lockRun : Does pid runId (Prog.exec (Stmt.lockRun runId)) (readRun runId) := by
  refine Does.read (.lockRun runId) (a := Rows.row) (by simp) (fun _ => trivial)
    (fun base now db hmine hi => ?_) fun σ => rfl
  obtain ⟨row, hrow⟩ := hmine.row
  simp only [perform, hmine.run_eq, hrow, hmine.lock, Option.map_some]

theorem does_selectRun : Does pid runId (Prog.exec (Stmt.selectRun runId)) (readRun runId) := by
  refine Does.read (.selectRun runId) (a := Rows.row) (by simp) (fun _ => trivial)
    (fun base now db hmine hi => ?_) fun σ => rfl
  simp only [perform, hmine.run_eq]

/-- The latest terminal event, as a transaction reads it. -/
def readTerminal (runId : UUID) : Transaction (Option AgentEvent) :=
  fun σ => .ok (latestTerminalEvent σ runId, σ)

theorem does_readTerminal :
    Does pid runId (Prog.exec (Stmt.selectLatestEvent runId AgentEventType.terminal))
      (readTerminal runId) := by
  refine Does.read (.selectLatestEvent runId AgentEventType.terminal)
    (a := fun now => now.events.find? (·.eventType.terminal)) (by simp) (fun _ => trivial)
    (fun base now db hmine hi => ?_) fun σ => rfl
  show some (Except.ok ((view pid db).latestEvent runId AgentEventType.terminal), db) = _
  rw [hmine.latest hi]

theorem does_withTerminal (row : Option AgentRun) : Does pid runId (withTerminal runId row)
    (readTerminal runId >>= fun terminal => pure (row.map (toRun · terminal))) := by
  cases row with
  | none => exact fun base now db hmine => ⟨now, hmine, fun σ hσ => ⟨σ, rfl, hσ⟩⟩
  | some row => exact does_readTerminal.bind fun terminal => .pure _

theorem does_getRun (forUpdate : Bool) :
    Does pid runId (getRun runId forUpdate) (Runs.getRun runId) := by
  have hsteps : Runs.getRun runId = readRun runId >>= fun row =>
      readTerminal runId >>= fun terminal => pure (row.map (toRun · terminal)) := rfl
  rw [hsteps]
  cases forUpdate with
  | false => exact does_selectRun.bind does_withTerminal
  | true => exact does_lockRun.bind does_withTerminal

theorem Mine.length {base now : Rows} (h : Mine pid runId base now db) :
    ((Sequence.view pid db).eventsOf runId).length = now.events.length := by
  rw [← h.events_eq, List.length_reverse]

theorem Mine.next {base now : Rows} (h : Mine pid runId base now db) (hi : Inv db) :
    Runs.nextSequence now.events = now.events.length + 1 := by
  rw [← h.events_eq, (hi.view pid runId).next, List.length_reverse]

/-- The number is free. -/
theorem Mine.fresh {base now : Rows} (h : Mine pid runId base now db) (hi : Inv db) :
    now.events.length + 1 ∉ ((Sequence.view pid db).eventsOf runId).map (·.sequenceNo) := by
  rw [(hi.view pid runId).numbers, h.length, List.mem_range'_1]
  omega

/-- The event is added, or its number does not fit. -/
theorem Mine.insertEvent {base now : Rows} {event : AgentEvent} {r : Except RunError Unit}
    (h : Mine pid runId base now db) (hi : Inv db)
    (hnext : event.sequenceNo = now.events.length + 1)
    (hr : perform pid db (.insertEvent ⟨runId, event⟩) = some (r, db')) :
    Answered (fun _ db' => Mine pid runId base ⟨now.row, event :: now.events⟩ db') r db' := by
  simp only [perform] at hr
  split at hr
  · cases hr
    exact ⟨_, rfl⟩
  · split at hr
    · next hrefused =>
      obtain ⟨row, hrow⟩ := h.row
      rcases hrefused with hnone | htaken
      · rw [h.run_eq, hrow] at hnone
        cases hnone
      · rw [hnext] at htaken
        exact absurd htaken (h.fresh hi)
    · cases hr
      refine h.write _ ?_
      have hrun : ((Write.event ⟨runId, event⟩).apply (Sequence.view pid db)).run runId = now.row :=
        h.run_eq
      unfold Tables.rows
      rw [hrun, eventsOf_apply, eventOf_event, if_pos rfl, Option.toList_some, List.reverse_append,
        h.events_eq]
      rfl

theorem does_appendEvent (eventType : AgentEventType) (payload : Payload) :
    Does pid runId (appendEvent runId eventType payload)
      (Runs.appendEvent runId eventType payload) := by
  intro base now db hmine
  refine hmine.exec (by simp) fun db₁ hmine₁ hi₁ => ⟨trivial, fun r db₂ hr => ?_⟩
  obtain ⟨row, hrow⟩ := hmine₁.row
  simp only [perform, hmine₁.run_eq, hrow, hmine₁.lock, Option.map_some] at hr
  cases hr
  refine hmine₁.exec (by simp) fun db₃ hmine₃ hi₃ => ⟨trivial, fun r db₄ hr => ?_⟩
  cases hr
  have hmax : ((view pid db₃).maxSequence runId).getD 0 + 1 = now.events.length + 1 := by
    rw [(hi₃.view pid runId).max, hmine₃.length]
  refine hmine₃.exec (by simp) fun db₅ hmine₅ hi₅ => ⟨⟨hmine₅.locked, ?_⟩, fun r db₆ hr => ?_⟩
  · exact hmax.trans (congrArg (· + 1) hmine₅.length.symm)
  have hanswered := hmine₅.insertEvent hi₅ hmax hr
  cases r with
  | error e => exact hanswered
  | ok a =>
    refine ⟨_, hanswered, fun σ hσ => ?_⟩
    have hσrow : σ.runs runId = some row := (congrArg Rows.row hσ).trans hrow
    have hσevents : σ.events runId = now.events := congrArg Rows.events hσ
    refine ⟨_, appendEvent_ok.mpr ⟨by rw [hσrow]; rfl, ?_, rfl⟩, ?_⟩
    · rw [hσevents, hmine₅.next hi₅, hmax]
    · rw [rowsOf_event, hσevents, hσrow, hrow]

/-- The row is set, in what the session sees. -/
theorem Mine.updateRun {base now : Rows} {update : RunUpdate} {row : AgentRun}
    (h : Mine pid runId base now db) (hrow : now.row = some row) :
    Mine pid runId base ⟨some (update.apply row), now.events⟩
      (db.write pid (.update runId update)) := by
  refine h.write _ ?_
  have hrun : (Sequence.view pid db).run runId = some row := h.run_eq.trans hrow
  unfold Tables.rows
  rw [run_apply _ (by rw [hrun]; rfl), hrun, eventsOf_apply, Option.map_some]
  exact congr (congrArg Rows.mk (congrArg some (if_pos rfl)))
    ((congrArg List.reverse (List.append_nil _)).trans h.events_eq)

theorem does_lockedUpdate {update : RunUpdate} {f : Transaction RunRecord}
    (hf : ∀ σ row, σ.runs runId = some row → f σ = .ok (toRun (update.apply row) none,
      { σ with runs := Function.update σ.runs runId (some (update.apply row)) })) :
    Does pid runId (lockedUpdate runId update) f := by
  intro base now db hmine
  refine hmine.exec (by simp) fun db₁ hmine₁ hi₁ => ⟨trivial, fun r db₂ hr => ?_⟩
  obtain ⟨row, hrow⟩ := hmine₁.row
  simp only [perform, hmine₁.run_eq, hrow, hmine₁.lock, Option.map_some] at hr
  cases hr
  refine hmine₁.exec (by simp) fun db₃ hmine₃ hi₃ => ⟨trivial, fun r db₄ hr => ?_⟩
  simp only [perform, hmine₃.lock, Option.map_some] at hr
  cases hr
  refine ⟨_, hmine₃.updateRun hrow, fun σ hσ => ?_⟩
  have hσrow : σ.runs runId = some row := (congrArg Rows.row hσ).trans hrow
  have hσevents : σ.events runId = now.events := congrArg Rows.events hσ
  refine ⟨_, hf σ row hσrow, ?_⟩
  rw [rowsOf_run, hσevents]

/-- An artifact is an event like any other. -/
theorem saveArtifact_eq (artifactType artifact : String) :
    saveArtifact runId artifactType artifact =
    (appendEvent runId .ARTIFACT_AVAILABLE [("artifact_type", .str artifactType),
      ("artifact", .other artifact)]).bind
      fun _ => .ret () := by
  refine congrArg (Prog.stmt (Stmt.lockRun runId)) (funext fun r => ?_)
  cases r with
  | error e => rfl
  | ok row =>
    cases row with
    | none => rfl
    | some row =>
      refine congrArg (Prog.stmt (Stmt.maxSequence runId)) (funext fun r => ?_)
      cases r with
      | error e => rfl
      | ok current =>
        refine congrArg (Prog.stmt (Stmt.insertEvent _)) (funext fun r => ?_)
        cases r <;> rfl

theorem does_saveArtifact (artifactType artifact : String) :
    Does pid runId (saveArtifact runId artifactType artifact)
    (Runs.appendEvent runId .ARTIFACT_AVAILABLE [("artifact_type", .str artifactType),
      ("artifact", .other artifact)] >>=
      fun _ => pure ()) := by
  rw [saveArtifact_eq]
  exact (does_appendEvent _ _).bind fun _ => .pure _

theorem does_setStatus (status : RunStatus) :
    Does pid runId (setStatus runId status) (Runs.setStatus runId status) :=
  does_lockedUpdate fun _ row hrow => setStatus_ok.mpr ⟨row, hrow, rfl, rfl⟩

theorem does_setLifecycle (status : RunStatus) (startedAt finishedAt : Option Nat) :
    Does pid runId (setLifecycle runId status startedAt finishedAt)
      (Runs.setLifecycle runId status startedAt finishedAt) :=
  does_lockedUpdate fun _ row hrow => setLifecycle_ok.mpr ⟨row, hrow, rfl, rfl⟩

end ProjectAgent.Runs.Sequence
