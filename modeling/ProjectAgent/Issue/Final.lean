/-
The state a cancel leaves a draft in, and that every operation but a new
confirmation keeps it: cancelled in every copy of it, or, where the draft was
reserved before, reserved for good.
-/
import ProjectAgent.Issue.Avoids

namespace ProjectAgent.Issue

open Interleave

variable {deps : Deps} {d : UUID} {reserved settled : Bool} {pid : Nat} {c : Choice}
  {σ σ' σ₀ : Store}
  {w w' : IssueWorld} {a : IssueAction} {α : Type}

/-- The draft is cancelled in every session's copy and update of it, in the
table too once the cancel is committed, and nothing is reserved for it. -/
structure Cancelled (d : UUID) (settled : Bool) (σ : Store) : Prop where
  record : σ.idempotency (IDEMPOTENCY_NAMESPACE, d) = none
  draft : settled = true → ∃ draft, σ.drafts d = some draft ∧ draft.status = .CANCELLED
  loaded : ∀ pid draft, σ.loaded pid d = some draft → draft.status = .CANCELLED
  writes : ∀ x ∈ σ.statusWrites, x.2.1 = d → x.2.2 = .CANCELLED

/-- The draft was reserved when it was cancelled, or it is cancelled for good. -/
structure Final (d : UUID) (reserved settled : Bool) (σ : Store) : Prop where
  draftId : ∀ id draft, σ.drafts id = some draft → draft.id = id
  loadedId : ∀ pid id draft, σ.loaded pid id = some draft → draft.id = id
  record : reserved = true → ∃ r, σ.idempotency (IDEMPOTENCY_NAMESPACE, d) = some r
  cancelled : reserved = false → Cancelled d settled σ

/-- The statement takes the draft out of its cancelled state, or reserves it, or creates for it. -/
def Stmt.unsettles (d : UUID) : Stmt → Prop
  | .setDraftStatus id status => id = d ∧ status ≠ .CANCELLED
  | .insertIdempotency _ requestId _ => requestId = d
  | .mark (.createIssue request) => request.requestId = d
  | _ => False

def Stmt.creates (d : UUID) : Stmt → Prop
  | .mark (.createIssue request) => request.requestId = d
  | _ => False

def Stmt.enters : Stmt → Prop
  | .enter _ => True
  | _ => False

/-- Nothing unsettles the draft, unless it was reserved: then all may, and reconciliations
create. -/
def finalPermit (d : UUID) (reserved : Bool) (pid : Nat) (s : Stmt) (σ : Store) : Prop :=
  (s.unsettles d → reserved = true) ∧
    (s.creates d → ∃ op, σ.ops pid = some op ∧ op.call = .reconcile d)

def finalSpec (d : UUID) (reserved settled : Bool) : Spec Stmt Store where
  inv := Final d reserved settled
  rely pid σ σ' := σ'.ops pid = σ.ops pid
  permit := finalPermit d reserved
  refl _ _ := rfl
  trans _ _ _ _ h h' := h'.trans h

/-- What the statement reads of the draft's row, it reads as cancelled. -/
def ReadsCancelled (d : UUID) (pid : Nat) (s : Stmt) (σ : Store) : Prop :=
  s = .getDraft d → σ.loaded pid d = none → ∀ draft, σ.drafts d = some draft →
    draft.status = .CANCELLED

/-! ## Every permitted statement keeps it -/

theorem Final.load (h : Final d reserved settled σ) {draft : IssueDraft}
    (hc : draft.id = d → reserved = false → draft.status = .CANCELLED) :
    Final d reserved settled (σ.load pid draft) where
  draftId := h.draftId
  loadedId p id x hx := by
    simp only [Store.load, Function.update_apply] at hx
    split at hx
    · next hp =>
      rw [Function.update_apply] at hx
      split at hx
      · next hid => cases hx; exact hid.symm
      · exact h.loadedId p id x (hp ▸ hx)
    · exact h.loadedId p id x hx
  record := h.record
  cancelled hr := {
    record := (h.cancelled hr).record
    draft := (h.cancelled hr).draft
    writes := (h.cancelled hr).writes
    loaded := fun p x hx => by
      simp only [Store.load, Function.update_apply] at hx
      split at hx
      · next hp =>
        rw [Function.update_apply] at hx
        split at hx
        · next hid => cases hx; exact hc hid.symm hr
        · exact (h.cancelled hr).loaded p x (hp ▸ hx)
      · exact (h.cancelled hr).loaded p x hx }

/-- Only what `Final` reads matters. -/
theorem Final.frame (h : Final d reserved settled σ) (hd : σ'.drafts = σ.drafts)
    (hl : σ'.loaded = σ.loaded) (hi : σ'.idempotency = σ.idempotency)
    (hw : σ'.statusWrites = σ.statusWrites) : Final d reserved settled σ' where
  draftId := hd ▸ h.draftId
  loadedId := hl ▸ h.loadedId
  record hr := hi ▸ h.record hr
  cancelled hr := ⟨hi ▸ (h.cancelled hr).record, hd ▸ (h.cancelled hr).draft,
    hl ▸ (h.cancelled hr).loaded,
    hw ▸ (h.cancelled hr).writes⟩

/-- A record is written under some key; under the draft's only where the draft was reserved. -/
theorem Final.write (h : Final d reserved settled σ) {ns : String} {requestId : UUID}
    {r : IdempotencyRecord} (hk : (ns, requestId) = (IDEMPOTENCY_NAMESPACE, d) → reserved = true) :
    Final d reserved settled { σ with
      idempotency := Function.update σ.idempotency (ns, requestId) (some r) } where
  draftId := h.draftId
  loadedId := h.loadedId
  record hr := by
    by_cases heq : (IDEMPOTENCY_NAMESPACE, d) = (ns, requestId)
    · exact ⟨r, heq ▸ Function.update_self ..⟩
    · obtain ⟨r', hr'⟩ := h.record hr
      exact ⟨r', (Function.update_of_ne heq _ _).trans hr'⟩
  cancelled hr := by
    have hc := h.cancelled hr
    have hne : (IDEMPOTENCY_NAMESPACE, d) ≠ (ns, requestId) := fun heq => by
      rw [hk heq.symm] at hr
      cases hr
    exact ⟨(Function.update_of_ne hne _ _).trans hc.record, hc.draft, hc.loaded, hc.writes⟩

theorem Final.commit (h : Final d reserved settled σ) :
    Final d reserved settled (σ.commit pid) where
  draftId id draft hd := by
    obtain ⟨x, hx, rfl⟩ := Option.map_eq_some_iff.mp hd
    split <;> exact h.draftId id x hx
  loadedId := h.loadedId
  record := h.record
  cancelled hr := by
    have hc := h.cancelled hr
    refine ⟨hc.record, fun hs => ?_, hc.loaded, fun x hx => hc.writes x (List.mem_filter.mp hx).1⟩
    obtain ⟨draft, hd, hst⟩ := hc.draft hs
    simp only [Store.commit, Store.commitDraft, hd, Option.map_some]
    split
    · next status hown =>
      obtain ⟨x, hfind, rfl⟩ := Option.map_eq_some_iff.mp hown
      have hmatch := List.find?_some hfind
      simp only [Bool.and_eq_true, beq_iff_eq] at hmatch
      exact ⟨_, rfl, hc.writes x (List.mem_of_find?_eq_some hfind) hmatch.2⟩
    · exact ⟨draft, rfl, hst⟩

theorem Final.close (h : Final d reserved settled σ) : Final d reserved settled (σ.close pid) where
  draftId := h.draftId
  loadedId p id draft hl := by
    simp only [Store.close, Function.update_apply] at hl
    split at hl
    · cases hl
    · exact h.loadedId p id draft hl
  record := h.record
  cancelled hr := by
    have hc := h.cancelled hr
    refine ⟨hc.record, hc.draft, fun p draft hl => ?_, fun x hx =>
      hc.writes x (List.mem_filter.mp hx).1⟩
    simp only [Store.close, Function.update_apply] at hl
    split at hl
    · cases hl
    · exact hc.loaded p draft hl

theorem perform_final (h : Final d reserved settled σ) {s : Stmt}
    (hp : finalPermit d reserved pid s σ) (hread : settled = true ∨ ReadsCancelled d pid s σ)
    {r : Except Exc s.Res} (hx : perform pid c σ s = some (r, σ')) :
    Final d reserved settled σ' := by
  cases s with
  | getDraft draftId =>
    simp only [perform] at hx
    split at hx <;> cases hx
    · exact h
    · next draft hl hd =>
      refine h.load fun hid hr => ?_
      obtain rfl := h.draftId _ _ hd
      rcases hread with hs | hread
      · obtain ⟨x, hx, hst⟩ := (h.cancelled hr).draft hs
        rw [hid, hx] at hd
        cases hd
        exact hst
      · rw [hid] at hl hd
        exact hread (by rw [hid]) hl draft hd
    · exact h
  | setDraftStatus draftId status =>
    obtain ⟨locks, rfl | ⟨draft, hd, rfl⟩⟩ := perform_setDraftStatus hx
    · exact h.frame rfl rfl rfl rfl
    · obtain rfl := h.draftId _ _ hd
      have hstatus : draft.id = d → reserved = false → status = .CANCELLED := fun hid hr => by
        by_contra hne
        rw [hp.1 ⟨hid, hne⟩] at hr
        cases hr
      have hload : Final d reserved settled (σ.load pid { draft with
          status := status }) := h.load hstatus
      refine ⟨hload.draftId, hload.loadedId, hload.record, fun hr => ?_⟩
      have hc := hload.cancelled hr
      refine ⟨hc.record, hc.draft, hc.loaded, fun x hx hid => ?_⟩
      rcases List.mem_cons.mp hx with rfl | hx
      · exact hstatus hid hr
      · exact hc.writes x hx hid
  | insertIdempotency ns requestId projectId =>
    simp only [perform] at hx
    split at hx <;> cases hx
    · exact h
    · exact (h.write fun hk => hp.1 (Prod.mk.inj hk).2).frame rfl rfl rfl rfl
  | completeIdempotency ns requestId resourceType resourceId response =>
    simp only [perform] at hx
    split at hx
    · cases hx
      exact h
    · next r₀ hr₀ =>
      cases hx
      refine (h.write fun hk => ?_).frame rfl rfl rfl rfl
      cases reserved with
      | true => rfl
      | false =>
        rw [hk, (h.cancelled rfl).record] at hr₀
        cases hr₀
  | insertConfirmation =>
    simp only [perform] at hx
    split at hx
    · cases hx
    · split at hx <;> cases hx <;> exact h.frame rfl rfl rfl rfl
  | insertIssue =>
    simp only [perform] at hx
    split at hx
    · cases hx
    · split at hx
      · cases hx; exact h
      · split at hx <;> cases hx <;> exact h.frame rfl rfl rfl rfl
  | commit => cases hx; exact h.commit
  | enter | mark | clock | uuid4 | listCandidateLinks | selectConfirmation | getConfirmation
      | getActiveMembership |
    listPublishedVersions | listActiveKnowledgeSpaceIds | selectIdempotency | selectIssue |
    selectActiveSandboxProjects | enqueue =>
    cases hx; exact h.frame rfl rfl rfl rfl

theorem outside_final (h : Final d reserved settled σ) {e : Outside} (hx : outside e σ = some σ') :
    Final d reserved settled σ' := by
  cases e with
  | tick n => cases hx; exact h.frame rfl rfl rfl rfl
  | direct directory => cases hx; exact h.frame rfl rfl rfl rfl
  | createDraft draft =>
    simp only [outside] at hx
    split at hx
    · next hnew =>
      cases hx
      refine ⟨fun id x hd => ?_, h.loadedId, h.record, fun hr => ?_⟩
      · simp only [Function.update_apply] at hd
        split at hd
        · next hid => cases hd; exact hid.symm
        · exact h.draftId id x hd
      · have hc := h.cancelled hr
        refine ⟨hc.record, fun hs => ?_, hc.loaded, hc.writes⟩
        obtain ⟨x, hd, hst⟩ := hc.draft hs
        have hne : d ≠ draft.id := fun hid => by
          rw [hid, hnew.2] at hd
          cases hd
        exact ⟨x, (Function.update_of_ne hne _ _).trans hd, hst⟩
    · cases hx

/-! ## Every operation but a confirmation issues only what is permitted -/

theorem Stmt.unsettles.guarded {s : Stmt} (h : s.unsettles d) : s.Guarded := by
  cases s with
  | mark e => cases e <;> trivial
  | _ => trivial

theorem Stmt.creates.unsettles {s : Stmt} (h : s.creates d) : s.unsettles d := by
  cases s with
  | mark e => cases e <;> exact h
  | _ => cases h

theorem Stmt.enters.guarded {s : Stmt} (h : s.enters) : s.Guarded := by
  cases s <;> trivial

theorem spares_unsettles {id : UUID} (hid : id ≠ d) : Spares (Stmt.unsettles d) id where
  setDraftStatus _ h := hid h.1
  insertIdempotency _ _ h := hid h
  createIssue _ hr h := hid (hr.symm.trans h)

theorem spares_enters (draftId : UUID) : Spares Stmt.enters draftId :=
  ⟨fun _ => id, fun _ _ => id, fun _ _ => id⟩

theorem permit_of_settled {s : Stmt} (h : ¬ s.unsettles d) (σ : Store) :
    finalPermit d reserved pid s σ :=
  ⟨fun hs => absurd hs h, fun hs => absurd hs.unsettles h⟩

theorem permit_of_reserved {s : Stmt} (h : ¬ s.creates d) (σ : Store) :
    finalPermit d true pid s σ :=
  ⟨fun _ => rfl, fun hs => absurd hs h⟩

theorem Final.gives (h : Final d reserved settled σ) {s : Stmt} {r : Except Exc s.Res}
    (hx : exec pid s c σ = some (r, σ')) : Gives s r := by
  cases s with
  | getDraft id =>
    intro draft hr
    subst hr
    have hp := exec_ok hx
    simp only [perform] at hp
    split at hp <;> cases hp
    · next hl => exact h.loadedId _ _ _ hl
    · next hd => exact h.draftId _ _ hd
  | _ => trivial

/-- A program whose statements are permitted in any state is safe in any. -/
theorem Avoids.safe {bad : Stmt → Prop} {p : Session α} (h : Avoids bad p)
    (hp : ∀ s, ¬ bad s → ∀ σ, finalPermit d reserved pid s σ) (σ₀ : Store) :
    Safe (machine deps) (finalSpec d reserved settled) pid (fun _ _ => True) p σ₀ := by
  induction p generalizing σ₀ with
  | ret a => trivial
  | raise e => trivial
  | stmt s k ih =>
    exact fun σ₁ _ hi => ⟨hp s h.1 σ₁, fun c r σ₂ hx _ => ih r (h.2 r (hi.gives hx)) σ₂⟩

/-- In a reconciliation of a reserved draft everything is permitted. -/
theorem Avoids.reconciling {p : Session α} (h : Avoids Stmt.enters p) {op : Op}
    (hcall : op.call = .reconcile d) (hop : σ₀.ops pid = some op) :
    Safe (machine deps) (finalSpec d true settled) pid (fun _ _ => True) p σ₀ := by
  induction p generalizing σ₀ with
  | ret a => trivial
  | raise e => trivial
  | stmt s k ih =>
    intro σ₁ hr hi
    have hop₁ : σ₁.ops pid = some op := hr.trans hop
    refine ⟨⟨fun _ => rfl, fun _ => ⟨op, hop₁, hcall⟩⟩, fun c r σ₂ hx _ =>
      ih r (h.2 r (hi.gives hx)) ?_⟩
    have hgrows := exec_grows (q := pid) hx (.inr fun call hs => h.1 (by rw [hs]; trivial))
    exact hgrows.op.trans hop₁

theorem getDraft_final : Safe (machine deps) (finalSpec d reserved settled) pid
    (Returns fun draft _ => draft.id = d ∧ (reserved = false → draft.status = .CANCELLED))
      (getDraft d) σ₀ := by
  intro σ₁ _ hi
  refine ⟨permit_of_settled id σ₁, fun c r σ₂ hx hi₂ => ?_⟩
  match r, hx with
  | .error _, _ => trivial
  | .ok none, _ => trivial
  | .ok (some draft), hx =>
    refine ⟨hi.gives hx draft rfl, fun hr => ?_⟩
    have hp := exec_ok hx
    simp only [perform] at hp
    clear hx
    split at hp <;> cases hp
    · next hl => exact (hi.cancelled hr).loaded pid draft hl
    · next hd =>
      have hid := hi.draftId _ _ hd
      refine (hi₂.cancelled hr).loaded pid draft ?_
      simp [Store.load, hid]

/-- A cancelled draft is not accepted for execution, whatever the receipt. -/
theorem acceptConfirmation_final {draft : IssueDraft} (hst : draft.status = .CANCELLED)
    (confirmationId actorId : UUID) :
    Safe (machine deps) (finalSpec d reserved settled) pid (Returns fun _ _ => False)
      (acceptConfirmation deps draft confirmationId actorId) σ₀ := by
  have hget := getConfirmation_avoids (fun _ => Stmt.unsettles.guarded (d := d)) confirmationId
  refine Safe.bind (((hget.tryCatch fun e => ?_).safe (fun _ => permit_of_settled) σ₀).mono
    fun r σ₁ _ => ?_)
  · split <;> trivial
  cases r with
  | error e => trivial
  | ok receipt =>
    dsimp only
    split_ifs with _ _ _ hconfirmed
    · trivial
    · trivial
    · trivial
    · trivial
    · rw [hst] at hconfirmed
      exact absurd (by decide) hconfirmed

/-- A reservation of a reserved draft meets the old record. -/
theorem reserve_final (projectId : UUID) : Safe (machine deps) (finalSpec d true settled) pid
    (Returns fun r _ => r.2 = false) (reserve IDEMPOTENCY_NAMESPACE d projectId) σ₀ := by
  intro σ₁ _ hi
  refine ⟨permit_of_reserved id σ₁, fun c r σ₂ hx _ => ?_⟩
  cases r with
  | error e => trivial
  | ok created =>
    obtain ⟨record, hrecord⟩ := hi.record rfl
    have hp := exec_ok hx
    simp only [perform, hrecord] at hp
    cases hp
    refine fun σ₃ _ _ => ⟨permit_of_reserved id σ₃, fun c r σ₄ _ _ => ?_⟩
    rcases r with e | _ | r
    · trivial
    · trivial
    · change Safe _ _ _ _ (if r.projectId ≠ projectId then _ else _) _
      split <;> trivial

theorem execute_final (confirmationId actorId : UUID) :
    Safe (machine deps) (finalSpec d reserved settled) pid (fun _ _ => True)
      (execute deps d confirmationId actorId) σ₀ := by
  refine Safe.bind (getDraft_final.mono fun r σ₁ h => ?_)
  cases r with
  | error e => trivial
  | ok draft =>
    obtain ⟨rfl, hst⟩ := h
    cases reserved with
    | false =>
      refine Safe.bind ((acceptConfirmation_final (hst rfl) _ _).mono fun r σ₂ h => ?_)
      cases r with
      | ok receipt => exact h.elim
      | error e => trivial
    | true =>
      have hb : ∀ s : Stmt, s.creates draft.id → s.Guarded := fun s hs => hs.unsettles.guarded
      have hsafe {β : Type} {p : Session β} (h : Avoids (Stmt.creates draft.id) p) (σ : Store) :
          Safe (machine deps) (finalSpec draft.id true settled) pid (fun _ _ => True) p σ :=
        h.safe (fun _ => permit_of_reserved) σ
      refine (hsafe (acceptConfirmation_avoids hb deps ..) σ₁).seq fun receipt σ₂ => ?_
      refine (hsafe (authorizeProject_avoids hb ..) σ₂).seq fun context σ₃ => ?_
      refine (hsafe (Avoids.exec (hb _)) σ₃).seq fun _ σ₄ => ?_
      refine (hsafe (assertCanCreate_avoids hb _) σ₄).seq fun _ σ₅ => ?_
      refine (hsafe (Avoids.exec (hb _)) σ₅).seq fun existing σ₆ => ?_
      split
      · exact hsafe (outcomeFromRecord_avoids ..) σ₆
      · refine (hsafe (Avoids.exec (hb _)) σ₆).seq fun now σ₇ => ?_
        split_ifs
        · trivial
        · refine Safe.bind ((reserve_final _).mono fun r σ₈ h => ?_)
          match r with
          | .error _ => trivial
          | .ok (record, created) =>
            obtain rfl : created = false := h
            dsimp only
            split_ifs
            · exact hsafe (outcomeFromRecord_avoids ..) σ₈
            · have hafter : Avoids _ (afterReserve draft (deps.buildCreateRequest draft) false) :=
                afterReserve_avoids hb id fun h => by cases h
              exact hsafe hafter σ₈

theorem reconcile_final {op : Op} (hcall : op.call = .reconcile d) (hop : σ₀.ops pid = some op) :
    Safe (machine deps) (finalSpec d reserved settled) pid (fun _ _ => True)
      ((reconcile deps d).bind fun outcome => mark (.answered outcome)) σ₀ := by
  have hb : ∀ s : Stmt, s.enters → s.Guarded := fun s => Stmt.enters.guarded
  cases reserved with
  | true =>
    have hall : Avoids Stmt.enters ((reconcile deps d).bind fun outcome =>
        mark (.answered outcome)) :=
      Avoids.bind (reconcile_avoids hb deps (spares_enters d)) fun outcome =>
        Avoids.exec (hb (.mark (.answered outcome)))
    exact hall.reconciling hcall hop
  | false =>
    refine Safe.seq (Safe.bind (getDraft_final.mono fun r σ₁ h => ?_)) fun outcome σ₂ => ?_
    · cases r with
      | error e => trivial
      | ok draft =>
        obtain ⟨rfl, -⟩ := h
        refine fun σ₂ _ hi => ⟨permit_of_settled id σ₂, fun c r σ₃ hx _ => ?_⟩
        cases r with
        | error e => trivial
        | ok record =>
          -- nothing was reserved, so there is nothing to reconcile
          have hp := exec_ok hx
          simp only [perform, Deps.buildCreateRequest, (hi.cancelled rfl).record] at hp
          cases hp
          trivial
    · have hmark : Avoids (Stmt.unsettles d) (mark (.answered outcome)) := Avoids.exec id
      exact hmark.safe (fun _ => permit_of_settled) σ₂

/-- No call of the session confirms the draft. -/
def NoConfirm (d : UUID) (calls : List Call) : Prop :=
  ∀ call ∈ calls, ∀ actorId hash, call ≠ .recordDecision d actorId .CONFIRM hash

theorem runCall_final {call : Call}
    (hc : ∀ actorId hash, call ≠ .recordDecision d actorId .CONFIRM hash) :
    Safe (machine deps) (finalSpec d reserved settled) pid (fun _ _ => True)
      (runCall deps call) σ₀ := by
  have hb : ∀ s : Stmt, s.unsettles d → s.Guarded := fun s => Stmt.unsettles.guarded
  by_cases hid : call.draftId = d
  · cases call with
    | recordDecision draftId actorId action hash =>
      obtain rfl : draftId = d := hid
      cases action with
      | CONFIRM => exact absurd rfl (hc actorId hash)
      | CANCEL =>
        have hdecide : Avoids (Stmt.unsettles draftId)
            (runCall deps (.recordDecision draftId actorId .CANCEL hash)) :=
          runDecision_avoids hb deps (fun h => h.2 rfl) id
        exact hdecide.safe (fun _ => permit_of_settled) σ₀
    | execute draftId confirmationId actorId =>
      obtain rfl : draftId = d := hid
      refine fun σ₁ _ _ => ⟨permit_of_settled id σ₁, fun c r σ₂ hx _ => ?_⟩
      cases hx
      refine Safe.tryCatch (((execute_final confirmationId actorId).seq fun outcome σ₃ => ?_).mono
        fun r σ₃ _ => ?_)
      · have hmark : Avoids (Stmt.unsettles draftId) (mark (.answered outcome)) := Avoids.exec id
        exact hmark.safe (fun _ => permit_of_settled) σ₃
      · cases r with
        | ok _ => trivial
        | error e =>
          dsimp only
          split <;> trivial
    | reconcile draftId =>
      obtain rfl : draftId = d := hid
      refine fun σ₁ _ _ => ⟨permit_of_settled id σ₁, fun c r σ₂ hx _ => ?_⟩
      cases hx
      exact reconcile_final rfl (Function.update_self ..)
  · exact (runCall_avoids hb deps (spares_unsettles hid) id).safe (fun _ => permit_of_settled) σ₀

theorem session_final {calls : List Call} (hc : NoConfirm d calls) :
    Safe (machine deps) (finalSpec d reserved settled) pid (fun _ _ => True)
      (session deps calls) σ₀ := by
  refine Safe.seq (Safe.each (fun call hcall σ => runCall_final (hc call hcall)) σ₀) fun _ σ => ?_
  have hcommit : Avoids (Stmt.unsettles d) (Prog.exec Stmt.commit) := Avoids.exec id
  exact hcommit.safe (fun _ => permit_of_settled) σ

theorem fits_final : (finalSpec d reserved settled).Fits (machine deps) (NoConfirm d) fun pid s σ =>
    settled = true ∨ ReadsCancelled d pid s σ where
  start calls pid σ p σ' hc hi hs := by
    cases hs
    exact ⟨hi, fun _ _ => rfl, session_final hc⟩
  exec pid s c σ r σ' hi hp hread hx := by
    refine ⟨?_, fun q hq => (exec_grows hx (.inl hq)).op⟩
    rcases exec_cases hx with ⟨r₀, hdone, -⟩ | ⟨rfl, -⟩
    · exact perform_final hi hp hread hdone
    · exact hi
  finish pid r σ hi := ⟨hi.close, fun q hq => (close_grows hq).op⟩
  kill pid σ hi := ⟨hi.close, fun q hq => (close_grows hq).op⟩
  env e σ σ' hi h := ⟨outside_final hi h, fun q => (outside_grows h).op⟩

end ProjectAgent.Issue
