/-
The committed events of a run are numbered 1, 2, .. in the order they become
visible. Whoever writes an event has locked its run and then read the largest
number, so no other session's commit comes between; each session's view of a
run is numbered without a gap too, and what it commits is its view.
-/
import ProjectAgent.Runs.Sequence
import ProjectAgent.Runs.Reading
import ProjectAgent.Lib.Watch

namespace ProjectAgent.Runs.Sequence

open Interleave

variable {pid q n : Nat} {db db' : Store} {s : Stmt} {w : Write} {ws : List Write} {t t' : Tables}
  {runId : UUID}

/-! ## The events a session sees -/

def Write.eventOf (runId : UUID) : Write → Option AgentEvent
  | .event row => if row.runId = runId then some row.event else none
  | _ => none

theorem eventOf_event (row : EventRow) :
    (Write.event row).eventOf runId = if row.runId = runId then some row.event else none := rfl

def eventsIn (runId : UUID) (ws : List Write) : List AgentEvent :=
  ws.filterMap (Write.eventOf runId)

theorem eventsOf_apply (t : Tables) :
    (w.apply t).eventsOf runId = t.eventsOf runId ++ (w.eventOf runId).toList := by
  cases w with
  | run | update => exact (List.append_nil _).symm
  | event row =>
    unfold Write.apply Tables.eventsOf Write.eventOf
    by_cases hrow : row.runId = runId <;> simp [hrow]

theorem eventsOf_foldl (t : Tables) :
    (ws.foldl (fun t w => w.apply t) t).eventsOf runId = t.eventsOf runId ++ eventsIn runId ws := by
  induction ws generalizing t with
  | nil => exact (List.append_nil _).symm
  | cons w ws ih =>
    rw [List.foldl_cons, ih, eventsOf_apply, List.append_assoc]
    unfold eventsIn
    cases hw : w.eventOf runId with
    | none => rw [List.filterMap_cons_none hw]; rfl
    | some event => rw [List.filterMap_cons_some hw]; rfl

/-- A session sees what is committed, and then its own. -/
theorem eventsOf_view (pid : Nat) (db : Store) :
    (view pid db).eventsOf runId = db.committed.eventsOf runId ++ eventsIn runId (db.pending pid) :=
  eventsOf_foldl db.committed

/-! ## The row a session sees -/

/-- What a write makes of a row that is there. -/
def Write.onRow (runId : UUID) : Write → AgentRun → AgentRun
  | .update id change, row => if id = runId then change.apply row else row
  | _, row => row

theorem RunUpdate.apply_id (change : RunUpdate) (row : AgentRun) :
    (change.apply row).id = row.id := by
  unfold RunUpdate.apply
  split <;> rfl

theorem id_of_run {row : AgentRun} (h : t.run runId = some row) : row.id = runId := by
  have hfound : t.runs.find? (fun row => row.id == runId) = some row := h
  have hid := List.find?_some hfound
  exact eq_of_beq hid

/-- A new row stands behind those that are there. -/
theorem run_apply (t : Tables) (h : (t.run runId).isSome) :
    (w.apply t).run runId = (t.run runId).map (w.onRow runId) := by
  obtain ⟨row, hrow⟩ := Option.isSome_iff_exists.mp h
  cases w with
  | event => exact Option.map_id'.symm
  | run new =>
    unfold Tables.run at hrow ⊢
    show (t.runs ++ [new]).find? _ = _
    rw [List.find?_append, hrow]
    rfl
  | update id change =>
    have hkeeps : (fun row : AgentRun => row.id == runId) ∘ (fun row => if row.id = id then
      change.apply row else row) =
        fun row => row.id == runId := by
      funext row
      show ((if row.id = id then change.apply row else row).id == runId) = _
      split
      · rw [change.apply_id]
      · rfl
    show ((t.runs.map _).find? _) = _
    rw [List.find?_map, hkeeps]
    show (t.run runId).map _ = _
    rw [hrow, Option.map_some, Option.map_some]
    dsimp only [Write.onRow]
    rw [id_of_run hrow]
    by_cases hid : id = runId
    · rw [if_pos hid, if_pos hid.symm]
    · rw [if_neg hid, if_neg (Ne.symm hid)]

/-- A run's row and its events are written by whoever has locked it. -/
def guard : Db.Guard (K := UUID) Write.apply where
  touches
    | .event row, runId => row.runId = runId
    | .update id _, runId => id = runId
    | .run _, _ => False
  same runId t t' := t'.eventsOf runId = t.eventsOf runId ∧
    ((t.run runId).isSome → t'.run runId = t.run runId)
  refl _ _ := ⟨rfl, fun _ => rfl⟩
  trans h h' := ⟨h'.1.trans h.1, fun hrow => (h'.2 (h.2 hrow ▸ hrow)).trans (h.2 hrow)⟩
  apply {w runId} t hw := by
    constructor
    · rw [eventsOf_apply]
      cases w with
      | run | update => exact List.append_nil _
      | event row =>
        have hother : row.runId ≠ runId := hw
        rw [eventOf_event, if_neg hother]
        exact List.append_nil _
    · intro hrow
      rw [run_apply t hrow]
      cases w with
      | run | event => exact Option.map_id'
      | update id change =>
        have hother : id ≠ runId := hw
        have hkept : (Write.update id change).onRow runId = fun row => row :=
          funext fun row => if_neg hother
        rw [hkept, Option.map_id']

theorem eventsIn_eq_nil (h : ∀ w ∈ ws, ¬ guard.touches w runId) : eventsIn runId ws = [] := by
  refine List.filterMap_eq_nil_iff.mpr fun w hw => ?_
  have hother := h w hw
  cases w with
  | run | update => rfl
  | event row => exact if_neg hother

/-! ## The numbers -/

/-- Numbered from 1 on, without a gap, as far as the column goes. -/
structure Gapless (events : List AgentEvent) : Prop where
  numbers : events.map (·.sequenceNo) = List.range' 1 events.length
  small : events.length ≤ maxInteger

theorem Gapless.max (h : Gapless (t.eventsOf runId)) :
    (t.maxSequence runId).getD 0 = (t.eventsOf runId).length := by
  unfold Tables.maxSequence
  rw [h.numbers]
  generalize (t.eventsOf runId).length = length
  cases length with
  | zero => rfl
  | succ length =>
    have hmax : (List.range' 1 (length + 1)).max? = some (length + 1) := by
      refine List.max?_eq_some_iff.mpr ⟨?_, fun n hn => ?_⟩
      · rw [List.mem_range'_1]
        omega
      · rw [List.mem_range'_1] at hn
        omega
    rw [hmax]
    rfl

theorem Gapless.append {events : List AgentEvent} {event : AgentEvent} (h : Gapless events)
    (hnext : event.sequenceNo = events.length + 1) (hsmall : event.sequenceNo ≤ maxInteger) :
    Gapless (events ++ [event]) := by
  constructor
  · rw [List.map_append, h.numbers, List.map_singleton, hnext, List.length_append,
      List.length_singleton,
      List.range'_concat, Nat.one_mul, Nat.add_comm 1]
  · rw [List.length_append, List.length_singleton]
    omega

theorem Gapless.ascending {events : List AgentEvent} (h : Gapless events) : Numbered events := by
  have hrange : (List.range' 1 events.length).Pairwise (· < ·) := List.pairwise_lt_range'
  rw [← h.numbers, List.pairwise_map] at hrange
  exact hrange

theorem Gapless.le {events : List AgentEvent} (h : Gapless events) {event : AgentEvent}
    (he : event ∈ events) :
    event.sequenceNo ≤ maxInteger := by
  have hmem : event.sequenceNo ∈ events.map (·.sequenceNo) := List.mem_map_of_mem he
  rw [h.numbers, List.mem_range'_1] at hmem
  have hsmall := h.small
  omega

/-! ## The invariant -/

structure Inv (db : Store) : Prop where
  guarded : Db.Guarded guard db
  committed : ∀ runId, Gapless (db.committed.eventsOf runId)
  view : ∀ pid runId, Gapless ((view pid db).eventsOf runId)

def permit (pid : Nat) : Stmt → Store → Prop
  | .insertEvent row, db => db.locked row.runId = some pid ∧
      row.event.sequenceNo = ((view pid db).eventsOf row.runId).length + 1
  | _, _ => True

def spec : Spec Stmt Store where
  inv := Inv
  rely := Db.Stays guard
  permit := permit
  refl := Db.Stays.refl
  trans _ _ _ _ := Db.Stays.trans

/-- What a session has locked it sees as before, whatever the others do. -/
theorem stays_eventsOf (h : Db.Stays guard pid db db') (hlocked : db.locked runId = some pid) :
    (view pid db').eventsOf runId = (view pid db).eventsOf runId := by
  have hsame : db'.committed.eventsOf runId = db.committed.eventsOf runId :=
    (h.same runId hlocked).1
  rw [eventsOf_view, eventsOf_view, hsame, h.pending]

theorem Inv.write (hi : Inv db) (hw : ∀ runId, guard.touches w runId → db.locked runId = some pid)
    (hnext : ∀ row, w = .event row → row.event.sequenceNo =
      ((Sequence.view pid db).eventsOf row.runId).length + 1 ∧ row.event.sequenceNo ≤ maxInteger) :
    Inv (db.write pid w) where
  guarded := hi.guarded.write hw
  committed := hi.committed
  view q runId := by
    by_cases hq : q = pid
    · subst hq
      rw [show Sequence.view q (db.write q w) = _ from Db.view_write_self, eventsOf_apply]
      have hview := hi.view q runId
      cases w with
      | run | update =>
        exact (List.append_nil _).symm ▸ hview
      | event row =>
        obtain ⟨hnumber, hsmall⟩ := hnext row rfl
        rw [eventOf_event]
        by_cases hrow : row.runId = runId
        · subst hrow
          rw [if_pos rfl]
          exact hview.append hnumber hsmall
        · rw [if_neg hrow]
          exact (List.append_nil _).symm ▸ hview
    · rw [show Sequence.view q (db.write pid w) = _ from Db.view_write_of_ne hq]
      exact hi.view q runId

theorem Inv.lock (hi : Inv db) (h : db.lock pid runId = some db') : Inv db' := by
  have hguarded := hi.guarded.lock h
  obtain ⟨hcommitted, hpending, -⟩ := Db.lock_eq_some h
  obtain ⟨committed, pending, locked⟩ := db'
  subst hcommitted hpending
  exact ⟨hguarded, hi.committed, hi.view⟩

theorem Inv.rollback (hi : Inv db) (pid : Nat) : Inv (db.rollback pid) where
  guarded := hi.guarded.rollback pid
  committed := hi.committed
  view q runId := by
    by_cases hq : q = pid
    · subst hq
      rw [show Sequence.view q (db.rollback q) = _ from Db.view_rollback_self]
      exact hi.committed runId
    · rw [show Sequence.view q (db.rollback pid) = _ from Db.view_rollback_of_ne hq]
      exact hi.view q runId

/-- **A session commits what it sees; of a run another has written to, it has not written.** -/
theorem Inv.commit (hi : Inv db) (pid : Nat) : Inv (db.commit Write.apply pid) where
  guarded := hi.guarded.commit pid
  committed runId := hi.view pid runId
  view q runId := by
    by_cases hq : q = pid
    · subst hq
      rw [show Sequence.view q (db.commit Write.apply q) = _ from Db.view_commit_self]
      exact hi.view q runId
    · by_cases hlocked : db.locked runId = some q
      · rw [stays_eventsOf (Db.stays_commit hi.guarded hq) hlocked]
        exact hi.view q runId
      · have hnone : eventsIn runId (db.pending q) = [] :=
          eventsIn_eq_nil fun w hw htouches => hlocked (hi.guarded q w hw runId htouches)
        rw [eventsOf_view, show (db.commit Write.apply pid).pending q = db.pending q
          from Function.update_of_ne hq .., hnone,
          List.append_nil]
        exact hi.view pid runId

/-! ## Statements -/

/-- What a statement can do to the tables and the locks. -/
inductive Effect (pid : Nat) (db : Store) : Stmt → Store → Prop where
  | none (s : Stmt) : Effect pid db s db
  | insertRun (row : AgentRun) : Effect pid db (.insertRun row) (db.write pid (.run row))
  | insertEvent (row : EventRow) (small : row.event.sequenceNo ≤ maxInteger) :
      Effect pid db (.insertEvent row) (db.write pid (.event row))
  | lock (runId : UUID) (db' : Store) (granted : db.lock pid runId = some db') :
      Effect pid db (.lockRun runId) db'
  | update (runId : UUID) (change : RunUpdate) (db' : Store)
      (granted : db.lock pid runId = some db') :
      Effect pid db (.updateRun runId change) (db'.write pid (.update runId change))
  | commit : Effect pid db .commit (db.commit Write.apply pid)
  | rollback : Effect pid db .rollback (db.rollback pid)

theorem perform_effect {r : Except RunError s.Res} (h : perform pid db s = some (r, db')) :
    Effect pid db s db' := by
  cases s with
  | selectRun | maxSequence | selectEventsAfter | selectLatestEvent =>
    cases h
    exact .none _
  | insertRun row =>
    simp only [perform] at h
    split at h <;> cases h
    · exact .none _
    · exact .insertRun row
  | lockRun runId =>
    simp only [perform] at h
    split at h
    · cases h
      exact .none _
    · obtain ⟨db₁, hlock, heq⟩ := Option.map_eq_some_iff.mp h
      cases heq
      exact .lock runId _ hlock
  | insertEvent row =>
    simp only [perform] at h
    split at h
    · cases h
      exact .none _
    · next hsmall =>
      split at h <;> cases h
      · exact .none _
      · exact .insertEvent row (Nat.not_lt.mp hsmall)
  | updateRun runId change =>
    obtain ⟨db₁, hlock, heq⟩ := Option.map_eq_some_iff.mp h
    cases heq
    exact .update runId change db₁ hlock
  | commit =>
    cases h
    exact .commit
  | rollback =>
    cases h
    exact .rollback

theorem exec_effect {fault : Option Fault} {r : Except RunError s.Res}
    (h : exec pid s fault db = some (r, db')) :
    Effect pid db s db' := by
  unfold exec at h
  cases fault with
  | none => exact perform_effect h
  | some fault =>
    obtain ⟨done, error⟩ := fault
    cases s with
    | commit =>
      cases done <;> cases h
      · exact .none _
      · exact .commit
    | _ => cases done <;> cases h <;> exact .none _

/-- Only a commit changes what is committed, and only by what it adds. -/
theorem Effect.grows (h : Effect pid db s db') (runId : UUID) :
    db.committed.eventsOf runId <+: db'.committed.eventsOf runId := by
  cases h with
  | lock _ _ hlock =>
    exact (Db.lock_eq_some hlock).1 ▸ List.prefix_refl _
  | update _ change db₁ hlock =>
    show _ <+: db₁.committed.eventsOf runId
    exact (Db.lock_eq_some hlock).1 ▸ List.prefix_refl _
  | commit =>
    rw [show (db.commit Write.apply pid).committed.eventsOf runId = _ from eventsOf_view pid db]
    exact List.prefix_append ..
  | none | insertRun | insertEvent | rollback => exact List.prefix_refl _

theorem Inv.exec (hi : Inv db) (hp : permit pid s db) (h : Effect pid db s db') :
    Inv db' ∧ ∀ q, q ≠ pid → Db.Stays guard q db db' := by
  cases h with
  | none => exact ⟨hi, fun q _ => .refl q _⟩
  | insertRun row =>
    exact ⟨hi.write (fun _ h => h.elim) (fun _ h => nomatch h), fun q hq => Db.stays_write hq⟩
  | insertEvent row hsmall =>
    obtain ⟨hlocked, hnext⟩ := hp
    refine ⟨hi.write (fun runId hrow => ?_) (fun row' heq => ?_), fun q hq => Db.stays_write hq⟩
    · have hrow : row.runId = runId := hrow
      exact hrow ▸ hlocked
    · cases heq
      exact ⟨hnext, hsmall⟩
  | lock runId _ hlock => exact ⟨hi.lock hlock, fun q hq => Db.stays_lock hlock hq⟩
  | update runId change db₁ hlock =>
    have hlocked : ∀ id, guard.touches (.update runId change) id → db₁.locked id = some pid := by
      intro id hid
      obtain rfl : runId = id := hid
      exact (Db.lock_eq_some hlock).2.2.1
    exact ⟨(hi.lock hlock).write hlocked (fun _ h => nomatch h),
      fun q hq => (Db.stays_lock hlock hq).trans (Db.stays_write hq)⟩
  | commit => exact ⟨hi.commit pid, fun q hq => Db.stays_commit hi.guarded hq⟩
  | rollback => exact ⟨hi.rollback pid, fun q hq => Db.stays_rollback hq⟩

/-! ## Calls -/

abbrev SafeTo {α : Type} (pid : Nat) (post : Except RunError α → Store → Prop) (p : Session α)
    (db : Store) : Prop :=
  Safe machine spec pid post p db

/-- A statement that is always permitted. -/
theorem SafeTo.free (s : Stmt) (hs : ∀ db, permit pid s db) (db : Store) :
    SafeTo pid (fun _ _ => True) (.exec s) db :=
  Safe.stmt fun db₁ _ _ => ⟨hs db₁, fun _ _ _ _ _ => trivial⟩

theorem SafeTo.lockRun (runId : UUID) (db : Store) :
    SafeTo pid (fun r db => ∀ row, r = .ok (some row) → db.locked runId = some pid)
      (.exec (Stmt.lockRun runId)) db := by
  refine Safe.stmt fun db₁ _ _ => ⟨trivial, fun fault r db₂ hx _ row hr => ?_⟩
  subst hr
  cases fault with
  | some fault =>
    obtain ⟨done, error⟩ := fault
    cases done <;> cases hx
  | none =>
    simp only [machine, exec, perform] at hx
    split at hx
    · cases hx
    · obtain ⟨db₃, hlock, heq⟩ := Option.map_eq_some_iff.mp hx
      obtain rfl : db₃ = db₂ := (Prod.mk.inj heq).2
      exact (Db.lock_eq_some hlock).2.2.1

/-- The number read under the lock is the next one's still. -/
theorem SafeTo.maxSequence (hlocked : db.locked runId = some pid) :
    SafeTo pid (fun r db => ∀ current, r = .ok current → db.locked runId = some pid ∧
      current.getD 0 = ((view pid db).eventsOf runId).length)
        (.exec (Stmt.maxSequence runId)) db := by
  refine Safe.stmt fun db₁ hstays hi => ⟨trivial, fun fault r db₂ hx _ current hr => ?_⟩
  subst hr
  cases fault with
  | some fault =>
    obtain ⟨done, error⟩ := fault
    cases done <;> cases hx
  | none =>
    cases hx
    exact ⟨(hstays.locked runId).mpr hlocked, (hi.view pid runId).max⟩

theorem SafeTo.insertEvent {event : AgentEvent} (hlocked : db.locked runId = some pid)
    (hnext : event.sequenceNo = ((view pid db).eventsOf runId).length + 1) :
    SafeTo pid (fun _ _ => True) (.exec (Stmt.insertEvent ⟨runId, event⟩)) db := by
  refine Safe.stmt fun db₁ hstays _ =>
    ⟨⟨(hstays.locked runId).mpr hlocked, ?_⟩, fun _ _ _ _ _ => trivial⟩
  rw [stays_eventsOf hstays hlocked]
  exact hnext

/-- **Both writers number their event under the lock, after all the run's events.** -/
theorem SafeTo.appendEvent (runId : UUID) (eventType : AgentEventType) (payload : Payload)
    (db : Store) :
    SafeTo pid (fun _ _ => True) (appendEvent runId eventType payload) db := by
  refine (SafeTo.lockRun runId db).andThen (fun row db₁ hrow => ?_) fun _ _ _ => trivial
  cases row with
  | none => trivial
  | some row =>
    refine (SafeTo.maxSequence (hrow row rfl)).andThen (fun current db₂ hcurrent => ?_)
      fun _ _ _ => trivial
    obtain ⟨hlocked, hmax⟩ := hcurrent current rfl
    exact (SafeTo.insertEvent hlocked (congrArg (· + 1) hmax)).seq fun _ _ => trivial

theorem SafeTo.saveArtifact (runId : UUID) (artifactType artifact : String) (db : Store) :
    SafeTo pid (fun _ _ => True) (saveArtifact runId artifactType artifact) db := by
  refine Safe.andThen (show SafeTo pid (fun r db => ∀ number, r = .ok number →
    db.locked runId = some pid ∧
    number = ((view pid db).eventsOf runId).length + 1) _ db from ?_) (fun number db₁ hnumber => ?_)
      fun _ _ _ => trivial
  · refine (SafeTo.lockRun runId db).andThen (fun row db₁ hrow => ?_) fun _ _ _ _ h => nomatch h
    cases row with
    | none => exact fun _ h => nomatch h
    | some row =>
      refine (SafeTo.maxSequence (hrow row rfl)).andThen (fun current db₂ hcurrent => ?_)
        fun _ _ _ _ h => nomatch h
      obtain ⟨hlocked, hmax⟩ := hcurrent current rfl
      intro number hnumber
      cases hnumber
      exact ⟨hlocked, congrArg (· + 1) hmax⟩
  · obtain ⟨hlocked, hnext⟩ := hnumber number rfl
    exact SafeTo.insertEvent hlocked hnext

theorem SafeTo.lockedUpdate (runId : UUID) (change : RunUpdate) (db : Store) :
    SafeTo pid (fun _ _ => True) (lockedUpdate runId change) db := by
  refine (SafeTo.free (.lockRun runId) (fun _ => trivial) db).seq fun row db₁ => ?_
  cases row with
  | none => trivial
  | some row =>
    exact (SafeTo.free (.updateRun runId change) (fun _ => trivial) db₁).seq fun _ _ => trivial

theorem SafeTo.call (call : Call) (db : Store) : SafeTo pid (fun _ _ => True) call.session db := by
  cases call with
  | createRun => exact (SafeTo.free (.insertRun _) (fun _ => trivial) db).seq fun _ _ => trivial
  | getRun runId forUpdate =>
    have hrest : ∀ row db, SafeTo pid (fun _ _ => True) (withTerminal runId row) db := by
      intro row db
      cases row with
      | none => trivial
      | some row =>
        exact (SafeTo.free (.selectLatestEvent runId _) (fun _ => trivial) db).seq
          fun _ _ => trivial
    cases forUpdate with
    | false => exact (SafeTo.free (.selectRun runId) (fun _ => trivial) db).seq hrest
    | true => exact (SafeTo.free (.lockRun runId) (fun _ => trivial) db).seq hrest
  | appendEvent runId eventType payload => exact SafeTo.appendEvent runId eventType payload db
  | listEventsAfter runId afterSequence limit =>
    unfold Call.session Sequence.listEventsAfter
    dsimp only
    split
    · trivial
    · exact SafeTo.free (.selectEventsAfter runId afterSequence limit) (fun _ => trivial) db
  | latestEventOfType runId eventType =>
    exact SafeTo.free (.selectLatestEvent runId _) (fun _ => trivial) db
  | setStatus runId status => exact SafeTo.lockedUpdate runId _ db
  | setLifecycle runId status startedAt finishedAt => exact SafeTo.lockedUpdate runId _ db
  | saveArtifact runId artifactType artifact =>
    exact SafeTo.saveArtifact runId artifactType artifact db
  | commit => exact SafeTo.free .commit (fun _ => trivial) db
  | rollback => exact SafeTo.free .rollback (fun _ => trivial) db

theorem spec_fits : spec.Fits machine (fun _ => True) (fun _ _ _ => True) where
  start script pid db p db' _ hi h := by
    cases h
    exact ⟨hi.rollback pid, fun q hq => Db.stays_rollback hq, Safe.translate SafeTo.call script _⟩
  exec pid s fault db r db' hi hp _ hx := hi.exec hp (exec_effect hx)
  finish pid r db hi := ⟨hi.rollback pid, fun q hq => Db.stays_rollback hq⟩
  kill pid db hi := ⟨hi.rollback pid, fun q hq => Db.stays_rollback hq⟩
  env e := e.elim

end ProjectAgent.Runs.Sequence
