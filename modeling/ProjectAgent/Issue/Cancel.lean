/-
What a cancel settles. While it is the last decision on its draft, no `execute`
creates the draft's issue, and a draft nothing was reserved for stays cancelled
and gets none. One that was reserved before is a reconciliation's to finish,
cancelled or not.
-/
import ProjectAgent.Issue.Final
import ProjectAgent.Issue.Backed

namespace ProjectAgent.Issue

open Interleave

variable {deps : Deps} {d : UUID} {w w' w₁ w₂ : IssueWorld} {a : IssueAction}

/-- The draft's last decision is a cancel: what sessions hold of the draft is
cancelled, and none of them is in the middle of an operation on it. -/
structure CancelStands (deps : Deps) (d : UUID) (w : IssueWorld) : Prop where
  quiet : ∀ pid p, w.procs pid = some p →
    Avoids (Stmt.unsettles d) p ∨ ∃ calls, NoConfirm d calls ∧ p = session deps calls
  loaded : ∀ pid draft, w.shared.loaded pid d = some draft → draft.status = .CANCELLED
  writes : ∀ x ∈ w.shared.statusWrites, x.2.1 = d → x.2.2 = .CANCELLED

def cancelCommitted (d : UUID) (σ : Store) : Bool := (σ.drafts d).any (·.status == .CANCELLED)

def reservation (d : UUID) (σ : Store) : Bool := (σ.idempotency (IDEMPOTENCY_NAMESPACE, d)).isSome

/-- Since the first store `create_issue` was called for the draft in
reconciliations only, and only if the draft was reserved then. -/
def OnlyReconciled (d : UUID) (σ₁ σ₂ : Store) : Prop :=
  ∃ new, σ₂.trace = new ++ σ₁.trace ∧ ∀ op request, ⟨op, .createIssue request⟩ ∈ new →
    request.requestId = d →
    op.call = .reconcile d ∧ reservation d σ₁ = true

/-- A session that is not at work has no draft loaded. -/
def Unloaded (w : IssueWorld) : Prop :=
  ∀ pid, w.procs pid = none → ∀ id, w.shared.loaded pid id = none

theorem Unloaded.step (hu : Unloaded w) (h : (machine deps).step a w = some w') : Unloaded w' := by
  intro q hq id
  have hother {pid : Nat} {p? : Option (Session Unit)}
    (hp : w'.procs = Function.update w.procs pid p?)
      (hne : q ≠ pid) : w.procs q = none := by
    rw [hp, Function.update_of_ne hne] at hq
    exact hq
  have hclose (pid : Nat) (hs : w'.shared = w.shared.close pid)
    (hp : w'.procs = Function.update w.procs pid none) :
      w'.shared.loaded q id = none := by
    rw [hs]
    by_cases hne : q = pid
    · rw [hne]
      exact congrFun (Function.update_self pid _ w.shared.loaded) id
    · exact (congrFun (Function.update_of_ne hne _ w.shared.loaded) id).trans
        (hu q (hother hp hne) id)
  rcases Machine.step_cases h with ⟨k, pid, p, -, -, hs, hp⟩ | ⟨pid, c, s, k, r, -, -, hx, hp⟩ |
    ⟨pid, r, -, -, hs, hp⟩ | ⟨pid, p, -, -, hs, hp⟩ | ⟨e, -, hs, hp⟩
  · have hne : q ≠ pid := by
      rintro rfl
      rw [hp, Function.update_self] at hq
      cases hq
    have hshared : w'.shared = w.shared := (congrArg Prod.snd (Option.some.inj hs)).symm
    rw [hshared]
    exact hu q (hother hp hne) id
  · have hne : q ≠ pid := by
      rintro rfl
      rw [hp, Function.update_self] at hq
      cases hq
    rcases exec_cases hx with ⟨r₀, hdone, -⟩ | ⟨hsame, -⟩
    · rw [perform_loaded hdone hne]
      exact hu q (hother hp hne) id
    · rw [hsame]
      exact hu q (hother hp hne) id
  · exact hclose pid hs hp
  · exact hclose pid hs hp
  · rw [(outside_frame hs).loaded]
    exact hu q (hp ▸ hq) id

/-- Between sessions, with no update pending, a cancel stands. -/
theorem CancelStands.of_idle (hw : Initial w) {as : List IssueAction}
    (hr : (machine deps).run as w = some w₁) (hidle : ∀ pid, w₁.procs pid = none)
    (hwrites : w₁.shared.statusWrites = []) : CancelStands deps d w₁ := by
  have hunloaded : (machine deps).Always Unloaded as w :=
    Machine.always_of_step (fun pid _ id => hw.loaded pid id) Machine.eachStep_true
      fun _ _ _ hu _ => hu.step
  refine ⟨fun pid p hp => ?_, fun pid draft hl => ?_, fun x hx => ?_⟩
  · rw [hidle pid] at hp
    cases hp
  · rw [hunloaded.last hr pid (hidle pid) d] at hl
    cases hl
  · rw [hwrites] at hx
    cases hx

theorem CancelStands.good (hs : CancelStands deps d w) (hg : (spec deps).Good (machine deps) w) :
    (finalSpec d (reservation d w.shared) (cancelCommitted d w.shared)).Good (machine deps) w where
  inv :=
    { draftId := hg.inv.draftId
      loadedId := fun pid id draft h => (hg.inv.loaded pid id draft h).1
      record := Option.isSome_iff_exists.mp
      cancelled := fun hr =>
        { record := Option.not_isSome_iff_eq_none.mp (Bool.eq_false_iff.mp hr)
          draft := fun hc => by
            obtain ⟨draft, hd, hst⟩ := (Option.any_eq_true _ _).mp hc
            exact ⟨draft, hd, by simpa using hst⟩
          loaded := hs.loaded
          writes := hs.writes } }
  safe pid p hp := by
    rcases hs.quiet pid p hp with h | ⟨calls, hc, rfl⟩
    · exact h.safe (fun _ => permit_of_settled) w.shared
    · exact session_final hc

theorem OnlyReconciled.step (hg : (spec deps).Good (machine deps) w₁) {σ : Store}
    (hf : (finalSpec d (reservation d σ) (cancelCommitted d σ)).Good (machine deps) w₁)
    (h : OnlyReconciled d σ w₁.shared) (hs : (machine deps).step a w₁ = some w₂) :
    OnlyReconciled d σ w₂.shared := by
  obtain ⟨new, htrace, hnew⟩ := h
  rcases step_trace hg hs with hsame | ⟨pid, c, s, op, e, hd, hop, hlog, hcons⟩
  · exact ⟨new, hsame.trans htrace, hnew⟩
  · refine ⟨⟨op, e⟩ :: new, by rw [hcons, htrace]; rfl, fun op' request hmem hid => ?_⟩
    rcases List.mem_cons.mp hmem with heq | hmem
    · cases heq
      obtain rfl : s = .mark (.createIssue request) := hlog
      obtain ⟨k, hk⟩ := hd.issues
      obtain ⟨hreserved, hcreates⟩ := (hf.exec fits_final hk).1
      obtain ⟨op', hop', hcall⟩ := hcreates hid
      obtain rfl := Option.some.inj (hop.symm.trans hop')
      exact ⟨hcall, hreserved hid⟩
    · exact hnew op' request hmem hid

/-- **What a cancel settles.** From a world where the draft's last decision is a
cancel, along any run that records no new confirmation of the draft and in
which sessions read the cancel (as they all do once it is committed): no
`execute` calls `create_issue` for the draft, a reconciliation does only if the
draft was reserved before, and an unreserved draft stays cancelled. -/
theorem cancel_final (hw : Initial w) {pre post : List IssueAction}
    (hr : (machine deps).run pre w = some w₁) (hs : CancelStands deps d w₁)
    (hpost : (machine deps).EachStep (fun a w =>
      a.Allowed (NoConfirm d) (fun pid s σ => cancelCommitted d w₁.shared = true ∨
      ReadsCancelled d pid s σ) w) post w₁) :
    (machine deps).Always (fun w₂ => OnlyReconciled d w₁.shared w₂.shared ∧
      (reservation d w₁.shared = false → Cancelled d (cancelCommitted d w₁.shared) w₂.shared))
        post w₁ := by
  have hg₁ := hw.alwaysGood pre (List.prefix_refl pre) w₁ hr
  have hall := Machine.always_of_step (P := fun w₂ => (spec deps).Good (machine deps) w₂ ∧
      (finalSpec d (reservation d w₁.shared) (cancelCommitted d w₁.shared)).Good (machine deps) w₂ ∧
      OnlyReconciled d w₁.shared w₂.shared)
    ⟨hg₁, hs.good hg₁, [], rfl, fun _ _ h => absurd h List.not_mem_nil⟩ hpost
      fun a w₂ w₃ hgood ha h =>
      ⟨hgood.1.step fits (a.allowed_all w₂) h, hgood.2.1.step fits_final ha h,
        hgood.2.2.step hgood.1 hgood.2.1 h⟩
  exact hall.mono fun w₂ hgood => ⟨hgood.2.2, hgood.2.1.inv.cancelled⟩

/-! ## A cancel undone

The user confirms, `create_issue` times out, the user cancels, and the
reconciliation creates the issue. -/

/-- The cancelled draft gets no issue and stays cancelled. -/
def StaysCancelled (d : UUID) (σ₁ σ₂ : Store) : Prop :=
  (∀ new, σ₂.trace = new ++ σ₁.trace → ∀ op request, ⟨op, .createIssue request⟩ ∈ new →
    request.requestId ≠ d) ∧
    cancelCommitted d σ₂ = true

namespace Sample

def cancels : List IssueAction :=
  .start [.recordDecision draft.id draft.createdBy .CANCEL digest] 2 :: steps 2 10 9 ++ [.finish 2]

def timesOutThenCancels : List IssueAction :=
  decides .CONFIRM 0 ++ .start [executes] 1 :: steps 1 19 9 ++ [timesOut 1] ++ steps 1 3 9 ++
    [.finish 1] ++ cancels

def reconciles : List IssueAction := .start [.reconcile draft.id] 3 :: steps 3 13 9

theorem timesOutThenCancels_run : ((machine services).run timesOutThenCancels world).map (fun w =>
    (cancelCommitted draft.id w.shared, w.shared.issues.rows,
      ((machine services).run reconciles w).map fun w => cancelCommitted draft.id w.shared)) =
    some (true, [], some false) := by
  decide +kernel

def startsNoConfirm : IssueAction → IssueWorld → Bool
  | .start calls _, _ => calls.all fun call => match call with
    | .recordDecision _ _ .CONFIRM _ => false
    | _ => true
  | _, _ => true

theorem startsNoConfirm_sound {σ : Store} (hσ : cancelCommitted draft.id σ = true) (a : IssueAction)
    (w : IssueWorld) (h : startsNoConfirm a w = true) :
    a.Allowed (NoConfirm draft.id) (fun pid s σ' =>
      cancelCommitted draft.id σ = true ∨ ReadsCancelled draft.id pid s σ') w := by
  cases a with
  | start calls pid =>
    intro call hc actorId hash heq
    simp only [startsNoConfirm, List.all_eq_true] at h
    have hcall := h call hc
    rw [heq] at hcall
    cases hcall
  | exec pid c => exact fun _ _ _ => .inl hσ
  | finish | kill | env => trivial

/-- A replay, refused, and then the reconciliation. -/
def replays : List IssueAction :=
  .start [executes] 3 :: steps 3 4 9 ++ [.finish 3, .start [.reconcile draft.id] 4] ++ steps 4 13 9

def confirmsThenCancels : List IssueAction := decides .CONFIRM 0 ++ cancels

/-- The session's end is seen, no update is pending, and the rest of the run passes the test. -/
def restsThen (pre post : List IssueAction) : Option (Bool × Bool × Bool × Bool × Bool) :=
  ((machine services).run pre world).map fun w =>
    ((Machine.started pre).all fun q => (w.procs q).isNone, w.shared.statusWrites.isEmpty,
      cancelCommitted draft.id w.shared, reservation draft.id w.shared,
      (machine services).checks startsNoConfirm post w)

theorem replays_rests :
    restsThen timesOutThenCancels replays = some (true, true, true, true, true) := by
  decide +kernel

theorem executes_rests : restsThen confirmsThenCancels (.start [executes] 3 :: steps 3 4 9) =
    some (true, true, true, false, true) := by
  decide +kernel

end Sample

/-- Once the draft is cancelled and has no issue, a reconciliation still makes it `CREATED`. -/
theorem cancel_undone : Initial Sample.world ∧
    ∃ w₁, (machine Sample.services).run Sample.timesOutThenCancels Sample.world = some w₁ ∧
      cancelCommitted Sample.draft.id w₁.shared = true ∧ w₁.shared.issues.rows = [] ∧
      ¬ (machine Sample.services).Always (fun w₂ =>
        StaysCancelled Sample.draft.id w₁.shared w₂.shared)
        Sample.reconciles w₁ := by
  obtain ⟨w₁, hr, hobs⟩ := Option.map_eq_some_iff.mp Sample.timesOutThenCancels_run
  simp only [Prod.mk.injEq, Option.map_eq_some_iff] at hobs
  obtain ⟨hcancelled, hnone, w₂, hr₂, hcreated⟩ := hobs
  refine ⟨Sample.world_initial, w₁, hr, hcancelled, hnone, fun h => ?_⟩
  have hstays := (h.last hr₂).2
  rw [hcreated] at hstays
  cases hstays

theorem cancel_final_executes :
    (∃ w₁, (machine Sample.services).run Sample.timesOutThenCancels Sample.world = some w₁ ∧
      reservation Sample.draft.id w₁.shared = true ∧
        ((machine Sample.services).run Sample.replays w₁).isSome ∧
      (machine Sample.services).Always (fun w => OnlyReconciled Sample.draft.id w₁.shared w.shared)
        Sample.replays w₁) ∧
    ∃ w₁, (machine Sample.services).run Sample.confirmsThenCancels Sample.world = some w₁ ∧
      (machine Sample.services).Always (fun w => OnlyReconciled Sample.draft.id w₁.shared w.shared ∧
          Cancelled Sample.draft.id true w.shared)
        (.start [Sample.executes] 3 :: Sample.steps 3 4 9) w₁ := by
  constructor
  · obtain ⟨w₁, hr, hobs⟩ := Option.map_eq_some_iff.mp Sample.replays_rests
    simp only [Prod.mk.injEq] at hobs
    obtain ⟨hended, hwrites, hcancelled, hreserved, hchecks⟩ := hobs
    have hstands : CancelStands Sample.services Sample.draft.id w₁ :=
      CancelStands.of_idle Sample.world_initial hr
      (Machine.idle_of_run hr Sample.world_initial.idle hended) (List.isEmpty_iff.mp hwrites)
    have hall := cancel_final Sample.world_initial hr hstands
      (Machine.eachStep_of_checks (Sample.startsNoConfirm_sound hcancelled) hchecks)
    exact ⟨w₁, hr, hreserved, Machine.run_isSome_of_checks hchecks, hall.mono fun _ h => h.1⟩
  · obtain ⟨w₁, hr, hobs⟩ := Option.map_eq_some_iff.mp Sample.executes_rests
    simp only [Prod.mk.injEq] at hobs
    obtain ⟨hended, hwrites, hcancelled, hreserved, hchecks⟩ := hobs
    have hstands : CancelStands Sample.services Sample.draft.id w₁ :=
      CancelStands.of_idle Sample.world_initial hr
      (Machine.idle_of_run hr Sample.world_initial.idle hended) (List.isEmpty_iff.mp hwrites)
    have hall := cancel_final Sample.world_initial hr hstands
      (Machine.eachStep_of_checks (Sample.startsNoConfirm_sound hcancelled) hchecks)
    exact ⟨w₁, hr, hall.mono fun _ h => ⟨h.1, hcancelled ▸ h.2 hreserved⟩⟩

end ProjectAgent.Issue
