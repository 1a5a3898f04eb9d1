/-
How a run's event stream ends, beside the workers: the generator lists the
events in one snapshot and reads the status in another, so a run that ends in
between ends the stream before its last events are listed.
-/
import ProjectAgent.Runs.Reading
import ProjectAgent.Runs.Agreement
import ProjectAgent.Runs.Stale
import ProjectAgent.Lib.Watch

namespace ProjectAgent.Runs

open Interleave Log

variable {settings : Jobs.Settings} {w w' : RunWorld} {a : RunAction} {runId : UUID}
  {afterSequence : Nat}

/-- A generator and what it has yielded. -/
structure Watcher where
  generator : Generator
  yielded : List AgentEvent

def Watcher.start (afterSequence : Nat) : Watcher := ⟨.start afterSequence, []⟩

/-- The generator goes on, over the run as it is committed at that moment. -/
def observe (runId : UUID) (_ : Unit) (w : RunWorld) (o : Watcher) : Option Watcher :=
  (o.generator.next (w.shared.events runId) ((w.shared.runs runId).map (·.status))).map
    fun (g, event) =>
    ⟨g, o.yielded ++ event.toList⟩

abbrev RunWatch := Watch RunAction Unit

/-- The run's events, the earliest first. -/
def eventLog (w : RunWorld) (runId : UUID) : List AgentEvent := (w.shared.events runId).reverse

/-- Every event past the cursor has been yielded, and the run's last among them. -/
structure Complete (w : RunWorld) (runId : UUID) (afterSequence : Nat) (o : Watcher) : Prop where
  yielded : o.yielded = past AgentEvent.sequenceNo afterSequence (eventLog w runId)
  terminal : ∃ event ∈ eventLog w runId, event.eventType.terminal ∧
    (afterSequence < event.sequenceNo → event ∈ o.yielded)

/-- Where the stream of a run that is there ends, it is complete. -/
def EndsComplete (runId : UUID) (afterSequence : Nat) : RunWatch → RunWorld × Watcher → Prop
  | .move _, _ => True
  | .look _, (w, o) => (w.shared.runs runId).isSome → ∀ o', observe runId () w o = some o' →
      o'.generator.phase = .finished → Complete w runId afterSequence o'

/-- Where the stream is to end, nothing is committed past what has been listed:
no event past the cursor when the run is found to have ended, and none behind
its terminal event. -/
def Undisturbed (runId : UUID) : RunWatch → RunWorld × Watcher → Prop
  | .move _, _ => True
  | .look _, (w, o) =>
    match o.generator.phase with
    | .checking => (w.shared.runs runId).any (·.status.terminal) →
        past AgentEvent.sequenceNo o.generator.cursor (eventLog w runId) = []
    | .yielding event _ => event.eventType.terminal → (w.shared.runs runId).isSome →
        past AgentEvent.sequenceNo event.sequenceNo (eventLog w runId) = []
    | .listing | .finished => True

/-! ## The log grows -/

theorem adds_suffix {events events' : List AgentEvent}
    (h : Relation.ReflTransGen Adds events events') :
    events <:+ events' := by
  induction h with
  | refl => exact List.suffix_refl _
  | tail _ hadds ih =>
    obtain ⟨type, payload, -, -, -, rfl⟩ := hadds
    exact ih.trans (List.suffix_cons ..)

theorem Opens.suffix {σ σ' : RunStore} {opened : UUID} {type : AgentEventType} {payload : Payload}
    {jobType : String} (h : Opens settings σ σ' opened type payload jobType) (runId : UUID) :
    σ.events runId <:+ σ'.events runId := by
  rw [h.events]
  by_cases hr : runId = opened
  · subst hr
    rw [Function.update_self]
    exact List.suffix_cons ..
  · exact (Function.update_of_ne hr ..).symm ▸ List.suffix_refl _

theorem Effect.suffix {σ σ' : RunStore} {ends : Jobs.BackgroundJob → Prop} {fails : Bool}
    (h : Effect settings ends fails σ σ') (runId : UUID) : σ.events runId <:+ σ'.events runId := by
  cases h with
  | moves hm => exact adds_suffix (hm.events runId)
  | rewrites jobs' h => exact h ▸ List.suffix_refl _
  | creates _ _ ho => exact ho.suffix runId
  | resumes _ _ _ _ _ ho => exact ho.suffix runId
  | job _ h => exact h ▸ List.suffix_refl _

theorem eventLog_grows (hk : WorkKept w.shared) (hs : (machine settings).step a w = some w')
    (runId : UUID) :
    eventLog w runId <+: eventLog w' runId :=
  List.reverse_prefix.mpr ((work_step hk hs).effect.suffix runId)

theorem eventLog_numbered (hk : WorkKept w.shared) (runId : UUID) : Numbered (eventLog w runId) :=
  List.pairwise_reverse.mpr (hk.order runId).descending

theorem mem_eventLog {event : AgentEvent} :
    event ∈ eventLog w runId ↔ event ∈ w.shared.events runId :=
  List.mem_reverse

/-! ## The watcher -/

/-- The workers keep what they keep, and the watcher has yielded what lies between its first cursor
and its last. -/
structure Watched (runId : UUID) (afterSequence : Nat) (w : RunWorld) (o : Watcher) : Prop where
  kept : WorkKept w.shared
  agree : AllAgree w.shared.toRunStore
  reads : o.generator.Reads (eventLog w runId) afterSequence
  yielded : o.yielded = between AgentEvent.sequenceNo afterSequence o.generator.cursor
    (eventLog w runId)

namespace Watched

variable {o o' : Watcher}

theorem initial (h : Initial w) (runId : UUID) (afterSequence : Nat) :
    Watched runId afterSequence w (.start afterSequence) where
  kept := h.workKept
  agree runId row hrow := by
    rw [h.runs] at hrow
    cases hrow
  reads := .at_start (.inl rfl) (Nat.le_refl _)
  yielded := (between_self afterSequence _).symm

theorem move (h : Watched runId afterSequence w o) (hs : (machine settings).step a w = some w') :
    Watched runId afterSequence w' o := by
  have hwork := work_step h.kept hs
  have hkept := h.kept.step hwork
  have hnumbered := eventLog_numbered hkept runId
  obtain ⟨rest, hrest⟩ := eventLog_grows h.kept hs runId
  rw [← hrest] at hnumbered
  refine ⟨hkept, h.agree.effect h.kept.toKept hwork.effect, hrest ▸ h.reads.append rest, ?_⟩
  rw [← hrest, between_append hnumbered h.reads.known]
  exact h.yielded

theorem look (h : Watched runId afterSequence w o) (hl : observe runId () w o = some o') :
    Watched runId afterSequence w o' := by
  obtain ⟨⟨g, out⟩, hnext, rfl⟩ := Option.map_eq_some_iff.mp hl
  have hnumbered := eventLog_numbered h.kept runId
  obtain ⟨hreads, ⟨rfl, hcursor⟩ | ⟨event, tail, rfl, hpast, hcursor⟩⟩ :=
    h.reads.next hnumbered (List.reverse_perm _).symm hnext
  · refine ⟨h.kept, h.agree, hreads, ?_⟩
    dsimp only
    rw [hcursor, ← h.yielded]
    exact List.append_nil _
  · refine ⟨h.kept, h.agree, hreads, ?_⟩
    dsimp only
    rw [hcursor, between_next hnumbered hpast h.reads.le, ← h.yielded]
    rfl

/-- What has been yielded is all there is exactly if nothing lies past the cursor. -/
theorem yielded_eq_past (h : Watched runId afterSequence w o) :
    o.yielded = past AgentEvent.sequenceNo afterSequence (eventLog w runId) ↔
      past AgentEvent.sequenceNo o.generator.cursor (eventLog w runId) = [] := by
  constructor
  · intro hall
    refine List.eq_nil_iff_forall_not_mem.mpr fun event he => ?_
    obtain ⟨hmem, hlt⟩ := mem_past.mp he
    have hyielded : event ∈ o.yielded :=
      hall ▸ mem_past.mpr ⟨hmem, Nat.lt_of_le_of_lt h.reads.le hlt⟩
    rw [h.yielded] at hyielded
    have hle := (mem_between.mp hyielded).2.2
    omega
  · intro hnone
    rw [h.yielded, between_eq_past hnone]

/-- Where a stream ends: at a status that is terminal, or at a terminal event it yields. -/
theorem finished (h : Watched runId afterSequence w o) (hrun : (w.shared.runs runId).isSome)
    (hl : observe runId () w o = some o') (hfinished : o'.generator.phase = .finished) :
    (o.generator.phase = .checking ∧ o'.generator.cursor = o.generator.cursor ∧
      (w.shared.runs runId).any (·.status.terminal)) ∨
    ∃ event page, o.generator.phase = .yielding event page ∧ event.eventType.terminal ∧
      o'.generator.cursor = event.sequenceNo ∧ event ∈ eventLog w runId := by
  obtain ⟨⟨g, out⟩, hnext, rfl⟩ := Option.map_eq_some_iff.mp hl
  obtain ⟨⟨cursor, phase⟩, yielded⟩ := o
  cases phase with
  | listing =>
    simp only [Generator.next] at hnext
    split at hnext <;> cases hnext <;> cases hfinished
  | yielding event page =>
    cases hnext
    obtain ⟨rest, hrest⟩ := h.reads.page event page rfl
    have hmem : event ∈ eventLog w runId := (mem_past.mp (hrest ▸ List.mem_cons_self)).1
    refine .inr ⟨event, page, rfl, ?_, rfl, hmem⟩
    simp only [nextPhase] at hfinished
    split at hfinished
    · next ht => exact ht
    · cases page <;> cases hfinished
  | checking =>
    cases hnext
    refine .inl ⟨rfl, rfl, ?_⟩
    obtain ⟨row, hrow⟩ := Option.isSome_iff_exists.mp hrun
    rw [hrow] at hfinished ⊢
    dsimp only [Option.map_some, Option.all_some] at hfinished
    split at hfinished
    · next ht => exact ht
    · cases hfinished
  | finished => cases hnext

/-- A run whose status is terminal has a terminal event. -/
theorem exists_terminal (h : Watched runId afterSequence w o)
    (ht : (w.shared.runs runId).any (·.status.terminal)) :
    ∃ event ∈ eventLog w runId, event.eventType.terminal := by
  obtain ⟨row, hrow, hterminal⟩ := (Option.any_eq_true _ _).mp ht
  have hcount := (h.agree runId row hrow).terminal.mp hterminal
  have hpos : 0 < (w.shared.events runId).countP (·.eventType.terminal) := by omega
  obtain ⟨event, he, hevent⟩ := List.countP_pos_iff.mp hpos
  exact ⟨event, mem_eventLog.mpr he, hevent⟩

theorem complete (h : Watched runId afterSequence w o)
    (hyielded : past AgentEvent.sequenceNo o.generator.cursor (eventLog w runId) = [])
    (hterminal : ∃ event ∈ eventLog w runId, event.eventType.terminal) :
    Complete w runId afterSequence o := by
  have hall := h.yielded_eq_past.mpr hyielded
  obtain ⟨event, he, ht⟩ := hterminal
  exact ⟨hall, event, he, ht, fun hlt => hall ▸ mem_past.mpr ⟨he, hlt⟩⟩

/-- **One look ends the stream complete exactly if nothing has come in between.** -/
theorem ends_iff (h : Watched runId afterSequence w o) :
    EndsComplete runId afterSequence (.look ()) (w, o) ↔ Undisturbed runId (.look ()) (w, o) := by
  constructor
  · intro hends
    obtain ⟨⟨cursor, phase⟩, yielded⟩ := o
    cases phase with
    | listing | finished => trivial
    | checking =>
      intro ht
      obtain ⟨row, hrow, hterminal⟩ := (Option.any_eq_true _ _).mp ht
      have hl : observe runId () w ⟨⟨cursor, .checking⟩, yielded⟩ =
          some ⟨⟨cursor, .finished⟩, yielded ++ []⟩ := by
        unfold observe Generator.next
        simp only [hrow, Option.map_some, Option.all_some, hterminal, if_true, Option.toList_none]
      exact (h.look hl).yielded_eq_past.mp (hends (by rw [hrow]; rfl) _ hl rfl).yielded
    | yielding event page =>
      intro ht hrun
      have hl : observe runId () w ⟨⟨cursor, .yielding event page⟩, yielded⟩ =
          some ⟨⟨event.sequenceNo, .finished⟩, yielded ++ [event]⟩ := by
        unfold observe Generator.next nextPhase
        simp only [ht, if_true, Option.map_some, Option.toList_some]
      exact (h.look hl).yielded_eq_past.mp (hends hrun _ hl rfl).yielded
  · intro hundisturbed hrun o' hl hfinished
    have hwatched := h.look hl
    rcases h.finished hrun hl hfinished with ⟨hphase, hcursor, ht⟩ |
      ⟨event, page, hphase, ht, hcursor, he⟩
    · simp only [Undisturbed, hphase] at hundisturbed
      exact hwatched.complete (hcursor ▸ hundisturbed ht) (h.exists_terminal ht)
    · simp only [Undisturbed, hphase] at hundisturbed
      exact hwatched.complete (hcursor ▸ hundisturbed ht hrun) ⟨event, he, ht⟩

end Watched

/-- **A run's stream ends complete exactly where nothing is committed between
what it lists and its end**, whatever the workers do and wherever it began. -/
theorem stream_complete_iff (h : Initial w) (runId : UUID) (afterSequence : Nat)
    (steps : List RunWatch) :
    Watch.EachStep (machine settings).step (observe runId) (EndsComplete runId afterSequence) steps
      (w, .start afterSequence) ↔
    Watch.EachStep (machine settings).step (observe runId)
      (Undisturbed runId) steps (w, .start afterSequence) := by
  have hwatched : ∀ pre x, Watch.run (machine settings).step (observe runId) pre (w,
    .start afterSequence) = some x →
      Watched runId afterSequence x.1 x.2 := fun pre x hr =>
    Watch.invariant (P := fun x => Watched runId afterSequence x.1 x.2)
      (.initial h runId afterSequence)
      (fun _ _ _ _ hw hs => hw.move hs) (fun _ _ _ _ hw hl => hw.look hl) hr
  constructor <;> intro heach pre step hpre x₁ x₂ hr hs
  · cases step with
    | move => trivial
    | look => exact (hwatched pre x₁ hr).ends_iff.mp (heach pre _ hpre x₁ x₂ hr hs)
  · cases step with
    | move => trivial
    | look => exact (hwatched pre x₁ hr).ends_iff.mpr (heach pre _ hpre x₁ x₂ hr hs)

namespace Sample

/-- A client comes back with the last id 2 and is told of nothing newer; the run succeeds. -/
def endsBetween : List RunWatch :=
  [createsIssue, claims 0, .start (delivery 1 0) 0, .exec 0 (answers .SUCCEEDED),
    .exec 0 (answers .SUCCEEDED)].map .move ++
    [.look (), .move (.exec 0 (answers .SUCCEEDED))]

/-- Here the stream ends without an event that is past its cursor. -/
def misses (x : RunWorld × Watcher) : Bool :=
  (x.1.shared.runs run).isSome && (observe run () x.1 x.2).any fun o =>
    o.generator.phase == .finished && o.yielded.isEmpty &&
      !(past AgentEvent.sequenceNo 2 (eventLog x.1 run)).isEmpty

theorem endsBetween_misses :
    (Watch.run (machine queue).step (observe run) endsBetween (world, .start 2)).any misses =
      true := by
  decide +kernel

end Sample

/-- The client is never told that the run has succeeded. -/
theorem stream_ends_early : Initial Sample.world ∧
    ¬ Watch.EachStep (machine Sample.queue).step (observe Sample.run) (EndsComplete Sample.run 2)
      (Sample.endsBetween ++ [.look ()]) (Sample.world, .start 2) := by
  refine ⟨Sample.world_initial, fun heach => ?_⟩
  obtain ⟨⟨w, o⟩, hr, hmisses⟩ := (Option.any_eq_true _ _).mp Sample.endsBetween_misses
  simp only [Sample.misses, Bool.and_eq_true] at hmisses
  obtain ⟨hrun, hends⟩ := hmisses
  obtain ⟨o', hl, hends⟩ := (Option.any_eq_true _ _).mp hends
  simp only [Bool.and_eq_true, beq_iff_eq, List.isEmpty_iff, Bool.not_eq_true',
    List.isEmpty_eq_false_iff] at hends
  obtain ⟨⟨hfinished, hnone⟩, hpast⟩ := hends
  have hs : Watch.next (machine Sample.queue).step (observe Sample.run) (.look ()) (w, o) =
      some (w, o') := by
    show (observe Sample.run () w o).map _ = _
    rw [hl]
    rfl
  have hcomplete := heach Sample.endsBetween (.look ()) (List.prefix_refl _) (w, o)
    (w, o') hr hs hrun o' hl hfinished
  exact hpast (hcomplete.yielded.symm.trans hnone)

/-- So for the sample's client while it waits. -/
theorem stream_complete_waiting :
    Watch.EachStep (machine Sample.queue).step (observe Sample.run)
      (EndsComplete Sample.run 2) Sample.endsBetween
      (Sample.world, .start 2) ↔
    Watch.EachStep (machine Sample.queue).step (observe Sample.run)
      (Undisturbed Sample.run) Sample.endsBetween
      (Sample.world, .start 2) :=
  stream_complete_iff Sample.world_initial Sample.run 2 Sample.endsBetween

end ProjectAgent.Runs
