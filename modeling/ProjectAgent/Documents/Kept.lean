/-
Every permitted statement keeps the invariant, and so do a session's end and
the steps outside.
-/
import ProjectAgent.Documents.Spec

namespace ProjectAgent.Documents

open Interleave

variable {pid q : Nat} {c : Choice} {σ σ' : Store} {s : Stmt} {w : Write} {ws : List Write}
  {id : UUID}

theorem versionIds_append (ws ws' : List Write) :
    versionIds (ws ++ ws') = versionIds ws ++ versionIds ws' :=
  List.filterMap_append

theorem statusIds_append (ws ws' : List Write) :
    statusIds (ws ++ ws') = statusIds ws ++ statusIds ws' :=
  List.filterMap_append

theorem mem_versionIds_write : id ∈ versionIds ((σ.write pid w).pending q) ↔
    id ∈ versionIds (σ.pending q) ∨ q = pid ∧ ∃ row, w = .version row ∧ row.id = id := by
  simp only [mem_versionIds]
  constructor
  · rintro ⟨row, hw, hid⟩
    rcases Db.mem_pending_write.mp hw with hw | ⟨hq, hw⟩
    · exact .inl ⟨row, hw, hid⟩
    · exact .inr ⟨hq, row, hw.symm, hid⟩
  · rintro (⟨row, hw, hid⟩ | ⟨hq, row, hw, hid⟩)
    · exact ⟨row, Db.mem_pending_write.mpr (.inl hw), hid⟩
    · exact ⟨row, Db.mem_pending_write.mpr (.inr ⟨hq, hw.symm⟩), hid⟩

theorem pending_write_self : (σ.write pid w).pending pid = σ.pending pid ++ [w] :=
  Function.update_self ..

theorem pending_write_of_ne (hq : q ≠ pid) : (σ.write pid w).pending q = σ.pending q :=
  Function.update_of_ne hq ..

/-- A status is written under its lock and decided on what is committed; what is inserted has an id
just drawn. -/
theorem Inv.write (hi : Inv σ) {drawn : List UUID} (hdrawn : ∀ id ∈ σ.drawn, id ∈ drawn)
    (hinsert : ∀ row, w = .version row → (row.id ∉ σ.drawn ∧ row.id ∈ drawn) ∧
      row.lifecycleStatus = .DRAFT ∧ row.sourceUri.isSome ∧ row.contentHash.isSome)
    (hstatus : ∀ id seen target publishedAt, w = .status id seen target publishedAt →
      σ.locked (.version id) = some pid ∧ id ∉ statusIds (σ.pending pid) ∧
      canTransitionDocument seen target = true ∧ σ.committed.statusOf id = some seen ∧
      target ≠ .DELETED) :
    Inv { σ.write pid w with drawn := drawn } where
  guarded := by
    refine Db.Guarded.write hi.guarded fun k hk => ?_
    cases w with
    | document | version | audit => exact hk.elim
    | status versionId seen target publishedAt =>
      cases k with
      | document => exact hk.elim
      | version id =>
        have hid : versionId = id := hk
        subst hid
        exact (hstatus _ _ _ _ rfl).1
  ids := hi.ids
  committedDrawn id hid := hdrawn id (hi.committedDrawn id hid)
  pendingDrawn q id hid := by
    rcases mem_versionIds_write.mp hid with hid | ⟨-, row, hw, rfl⟩
    · exact hdrawn id (hi.pendingDrawn q id hid)
    · exact (hinsert row hw).1.2
  fresh q id hid := by
    rcases mem_versionIds_write.mp hid with hid | ⟨-, row, hw, rfl⟩
    · exact hi.fresh q id hid
    · exact fun hmem => (hinsert row hw).1.1 (hi.committedDrawn _ hmem)
  inserted q := by
    show (versionIds ((σ.write pid w).pending q)).Nodup
    by_cases hq : q = pid
    · subst hq
      rw [pending_write_self, versionIds_append, List.nodup_append]
      refine ⟨hi.inserted q, ?_, ?_⟩
      · cases w <;> simp [versionIds]
      · intro id hid id' hid' heq
        obtain ⟨row, hmem, hid'⟩ := mem_versionIds.mp hid'
        obtain hw := List.mem_singleton.mp hmem
        rw [heq, ← hid'] at hid
        exact (hinsert row hw.symm).1.1 (hi.pendingDrawn q _ hid)
    · rw [pending_write_of_ne hq]
      exact hi.inserted q
  apart p q id hp hq := by
    rcases mem_versionIds_write.mp hp with hold | ⟨rfl, row, hw, rfl⟩
    · rcases mem_versionIds_write.mp hq with hold' | ⟨-, row, hw, rfl⟩
      · exact hi.apart p q id hold hold'
      · exact absurd (hi.pendingDrawn p _ hold) (hinsert row hw).1.1
    · rcases mem_versionIds_write.mp hq with hold | ⟨rfl, -⟩
      · exact absurd (hi.pendingDrawn q _ hold) (hinsert row hw).1.1
      · rfl
  drafts q row hrow := by
    rcases Db.mem_pending_write.mp hrow with hrow | ⟨-, hw⟩
    · exact hi.drafts q row hrow
    · exact (hinsert row hw.symm).2
  complete := hi.complete
  statuses q id seen target publishedAt hw := by
    rcases Db.mem_pending_write.mp hw with hw | ⟨-, hw⟩
    · exact hi.statuses q id seen target publishedAt hw
    · obtain ⟨-, -, hallowed, hseen, -⟩ := hstatus id seen target publishedAt hw.symm
      exact ⟨hallowed, hseen⟩
  once q := by
    show (statusIds ((σ.write pid w).pending q)).Nodup
    by_cases hq : q = pid
    · subst hq
      rw [pending_write_self, statusIds_append, List.nodup_append]
      refine ⟨hi.once q, ?_, ?_⟩
      · cases w <;> simp [statusIds]
      · intro id hid id' hid' heq
        obtain ⟨seen, target, publishedAt, hmem⟩ := mem_statusIds.mp hid'
        obtain hw := List.mem_singleton.mp hmem
        exact (hstatus id' seen target publishedAt hw.symm).2.1 (heq ▸ hid)
    · rw [pending_write_of_ne hq]
      exact hi.once q
  notDeleted q id seen publishedAt hw := by
    rcases Db.mem_pending_write.mp hw with hw | ⟨-, hw⟩
    · exact hi.notDeleted q id seen publishedAt hw
    · exact (hstatus id seen .DELETED publishedAt hw.symm).2.2.2.2 rfl

theorem Inv.lock (hi : Inv σ) {k : Row} {db : Db Tables Write Row}
    (h : σ.toDb.lock pid k = some db) :
    Inv { σ with toDb := db } := by
  have hguarded := hi.guarded.lock h
  obtain ⟨hcommitted, hpending, -⟩ := Db.lock_eq_some h
  obtain ⟨committed, pending, locked⟩ := db
  subst hcommitted hpending
  exact { hi with guarded := hguarded }

theorem mem_versionIds_rollback (h : id ∈ versionIds ((σ.rollback pid).pending q)) :
    id ∈ versionIds (σ.pending q) := by
  obtain ⟨row, hw, hid⟩ := mem_versionIds.mp h
  exact mem_versionIds.mpr ⟨row, (Db.mem_pending_rollback.mp hw).2, hid⟩

theorem pending_rollback_self : (σ.rollback pid).pending pid = [] := Function.update_self ..

theorem pending_rollback_of_ne (hq : q ≠ pid) : (σ.rollback pid).pending q = σ.pending q :=
  Function.update_of_ne hq ..

theorem Inv.rollback (hi : Inv σ) (pid : Nat) : Inv (σ.rollback pid) where
  guarded := hi.guarded.rollback pid
  ids := hi.ids
  committedDrawn := hi.committedDrawn
  pendingDrawn q id hid := hi.pendingDrawn q id (mem_versionIds_rollback hid)
  fresh q id hid := hi.fresh q id (mem_versionIds_rollback hid)
  inserted q := by
    by_cases hq : q = pid
    · subst hq
      rw [pending_rollback_self]
      exact .nil
    · rw [pending_rollback_of_ne hq]
      exact hi.inserted q
  apart p q id hp hq := hi.apart p q id (mem_versionIds_rollback hp) (mem_versionIds_rollback hq)
  drafts q row hrow := hi.drafts q row (Db.mem_pending_rollback.mp hrow).2
  complete := hi.complete
  statuses q id seen target publishedAt hw :=
    hi.statuses q id seen target publishedAt (Db.mem_pending_rollback.mp hw).2
  once q := by
    by_cases hq : q = pid
    · subst hq
      rw [pending_rollback_self]
      exact .nil
    · rw [pending_rollback_of_ne hq]
      exact hi.once q
  notDeleted q id seen publishedAt hw :=
    hi.notDeleted q id seen publishedAt (Db.mem_pending_rollback.mp hw).2

/-- No two sessions write a version's status. -/
theorem Inv.statusIds_apart (hi : Inv σ) (hq : q ≠ pid) (h : id ∈ statusIds (σ.pending q)) :
    id ∉ statusIds (σ.pending pid) := by
  intro h'
  obtain ⟨seen, target, publishedAt, hw⟩ := mem_statusIds.mp h
  obtain ⟨seen', target', publishedAt', hw'⟩ := mem_statusIds.mp h'
  have howner := hi.guarded q _ hw (.version id) rfl
  have howner' := hi.guarded pid _ hw' (.version id) rfl
  rw [howner] at howner'
  exact hq (Option.some.inj howner')

/-- The version a status is written of is committed, and the session has not inserted it. -/
theorem Inv.not_inserted (hi : Inv σ) (p : Nat) (h : id ∈ statusIds (σ.pending q)) :
    id ∈ σ.committed.ids ∧ id ∉ versionIds (σ.pending p) := by
  obtain ⟨seen, target, publishedAt, hw⟩ := mem_statusIds.mp h
  obtain ⟨row, hrow, -⟩ := Option.map_eq_some_iff.mp (hi.statuses q id seen target publishedAt hw).2
  have hmem : id ∈ σ.committed.ids := Tables.version_isSome.mp (by rw [hrow]; rfl)
  exact ⟨hmem, fun hv => hi.fresh p id hv hmem⟩

theorem committed_commit :
    (σ.commit pid).committed = (σ.pending pid).foldl (fun t w => w.apply t) σ.committed :=
  rfl

theorem Inv.commit (hi : Inv σ) (pid : Nat) : Inv (σ.commit pid) := by
  have hpending : ∀ q id, id ∈ versionIds ((σ.commit pid).pending q) → q ≠ pid ∧
      id ∈ versionIds (σ.pending q) := by
    intro q id hid
    obtain ⟨row, hw, hrow⟩ := mem_versionIds.mp hid
    obtain ⟨hq, hw⟩ := Db.mem_pending_rollback.mp hw
    exact ⟨hq, mem_versionIds.mpr ⟨row, hw, hrow⟩⟩
  have hrollback := hi.rollback pid
  exact {
    guarded := hi.guarded.commit pid
    ids := by
      rw [committed_commit, ids_foldl, List.nodup_append]
      refine ⟨List.nodup_reverse.mpr (hi.inserted pid), hi.ids, ?_⟩
      intro id hid id' hid' heq
      exact hi.fresh pid id (List.mem_reverse.mp hid) (heq ▸ hid')
    committedDrawn := fun id hid => by
      rw [committed_commit, ids_foldl, List.mem_append, List.mem_reverse] at hid
      rcases hid with hid | hid
      · exact hi.pendingDrawn pid id hid
      · exact hi.committedDrawn id hid
    pendingDrawn := hrollback.pendingDrawn
    fresh := fun q id hid hmem => by
      obtain ⟨hq, hid⟩ := hpending q id hid
      rw [committed_commit, ids_foldl, List.mem_append, List.mem_reverse] at hmem
      rcases hmem with hmem | hmem
      · exact hq (hi.apart q pid id hid hmem)
      · exact hi.fresh q id hid hmem
    inserted := hrollback.inserted
    apart := hrollback.apart
    drafts := hrollback.drafts
    complete := fun row hrow => by
      obtain ⟨row₀, hfrom, hsame, -⟩ := version_foldl hrow
      rw [hsame.sourceUri, hsame.contentHash]
      rcases hfrom with hmem | hmem
      · exact hi.complete row₀ hmem
      · exact (hi.drafts pid row₀ hmem).2
    statuses := fun q id seen target publishedAt hw => by
      obtain ⟨hq, hw⟩ := Db.mem_pending_rollback.mp hw
      obtain ⟨hallowed, hseen⟩ := hi.statuses q id seen target publishedAt hw
      have hid : id ∈ statusIds (σ.pending q) := mem_statusIds.mpr ⟨_, _, _, hw⟩
      refine ⟨hallowed, ?_⟩
      rw [committed_commit, statusOf_foldl_of_not_mem (hi.statusIds_apart hq hid)
        (hi.not_inserted pid hid).2]
      exact hseen
    once := hrollback.once
    notDeleted := hrollback.notDeleted }

theorem Effect.inv (hi : Inv σ) (hp : permit pid s σ) (h : Effect pid c σ s σ') : Inv σ' := by
  cases h with
  | none => exact hi
  | insertDocument row hdrawn =>
    exact hi.write (fun id hid => List.mem_cons_of_mem _ hid) (fun _ => nofun) fun _ _ _ _ => nofun
  | insertVersion row hdrawn =>
    refine hi.write (fun id hid => List.mem_cons_of_mem _ hid) (fun row' hw => ?_)
      fun _ _ _ _ => nofun
    cases hw
    exact ⟨⟨hdrawn, List.mem_cons_self⟩, hp⟩
  | lock versionId document version db db' _ hdocument hversion =>
    exact (hi.lock hdocument).lock hversion
  | setStatus versionId seen target publishedAt =>
    refine hi.write (fun id hid => hid) (fun _ => nofun) fun id seen' target' publishedAt' hw => ?_
    cases hw
    exact hp
  | insertAudit record => exact hi.write (fun id hid => hid) (fun _ => nofun) fun _ _ _ _ => nofun
  | commit => exact hi.commit pid
  | failedCommit | rollback => exact hi.rollback pid

theorem outside_inv {e : Outside} (hi : Inv σ) (h : outside e σ = some σ') :
    Inv σ' ∧ ∀ q, Rely q σ σ' := by
  cases e with
  | bindProjectCode | bindKnowledgeSpaces =>
    cases h
    exact ⟨{ hi with }, fun q => ⟨.refl q _, rfl, .refl _⟩⟩

end ProjectAgent.Documents
