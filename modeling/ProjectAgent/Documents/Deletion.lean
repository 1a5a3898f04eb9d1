/-
Whether a deletion can be finished. Its status is committed before the
provider is called, and from then on every further attempt is refused before
it comes to the call.
-/
import ProjectAgent.Documents.Transitions

namespace ProjectAgent.Documents

open Interleave

variable {pid : Nat} {w w' w₀ : DocumentWorld} {a : DocumentAction} {as : List DocumentAction}
  {σ : Store} {v : UUID}
  {document : Document} {row : DocumentVersion} {actor : DocumentActor}

/-- The session is about to have the provider delete what it holds of this version. -/
def AtProvider (pid : Nat) (v : UUID) (w : DocumentWorld) : Prop :=
  ∃ request k, w.procs pid = some (.stmt (.deleteDocument request) k) ∧
    request.documentVersionId = v.str

/-! ## Once the status is committed -/

theorem Gone.not_mem (hi : Inv σ) (h : Gone σ.committed v) (q : Nat) :
    v ∉ statusIds (σ.pending q) := by
  intro hmem
  obtain ⟨seen, target, publishedAt, hw⟩ := mem_statusIds.mp hmem
  obtain ⟨hallowed, hseen⟩ := hi.statuses q v seen target publishedAt hw
  have htarget : target ≠ .DELETED := fun heq => hi.notDeleted q v seen publishedAt (heq ▸ hw)
  rcases h with h | h
  · rw [h] at hseen
    cases hseen
    cases target <;> first | exact htarget rfl | cases hallowed
  · rw [h] at hseen
    cases hseen
    cases target <;> cases hallowed

/-- No session at work has committed this version's status. -/
def Unchanged (v : UUID) (w : DocumentWorld) : Prop :=
  ∀ q, (w.procs q).isSome → v ∉ w.shared.changed q

theorem unchanged_step (hg : spec.Good machine w) (hgone : Gone w.shared.committed v)
    (h : Unchanged v w) (hs : machine.step a w = some w') : Unchanged v w' := by
  intro q hq hmem
  have hwas := Machine.procs_of_step hs hq
  rcases step_committed hs with ⟨p, hcommits, heq⟩ | ⟨-, ⟨request, p, rfl, heq⟩ | ⟨hstart, heq⟩⟩
  · obtain ⟨c, k, rfl, -⟩ := hcommits
    refine h q (hwas.resolve_right fun ⟨_, ha⟩ => nomatch ha) ?_
    rw [heq] at hmem
    by_cases hqp : q = p
    · subst hqp
      rw [changed_commit_self] at hmem
      exact (List.mem_append.mp hmem).resolve_left (hgone.not_mem hg.inv q)
    · have hsame : (w.shared.commit p).changed q = w.shared.changed q :=
        Function.update_of_ne hqp ..
      rw [hsame] at hmem
      exact hmem
  · rw [heq] at hmem
    by_cases hqp : q = p
    · subst hqp
      rw [Function.update_self] at hmem
      cases hmem
    · rw [Function.update_of_ne hqp] at hmem
      refine h q (hwas.resolve_right fun ⟨_, ha⟩ => hqp ?_) hmem
      cases ha
      rfl
  · rw [heq] at hmem
    exact h q (hwas.resolve_right fun ⟨request, ha⟩ => hstart request q ha) hmem

/-- A version whose deletion is committed no session comes to delete at the provider any more. -/
theorem never_atProvider (hg : spec.Good machine w) (hquiet : ∀ q, w.procs q = none)
    (hgone : Gone w.shared.committed v) (h : machine.run as w = some w') :
    ¬ AtProvider pid v w' := by
  have halways : machine.Always (fun w => spec.Good machine w ∧ Gone w.shared.committed v ∧
      Unchanged v w) as w := by
    refine Machine.always_of_step ⟨hg, hgone, fun q hq => ?_⟩ Machine.eachStep_true
      fun a w₁ w₂ ⟨hg₁, hgone₁, h₁⟩ _ hs => ?_
    · rw [hquiet q] at hq
      cases hq
    · exact ⟨hg₁.step fits (a.allowed_all w₁) hs, gone_step hg₁ hs hgone₁,
        unchanged_step hg₁ hgone₁ h₁ hs⟩
  obtain ⟨hg', -, hunchanged⟩ := halways.last h
  rintro ⟨request, k, hp, hrequest⟩
  obtain ⟨versionId, heq, hchanged⟩ := (hg'.safe pid _ hp w'.shared (.refl pid _) hg'.inv).1
  obtain rfl := UUID.str_inj (hrequest.symm.trans heq)
  exact hunchanged pid (by rw [hp]; rfl) hchanged

/-! ## Quiet worlds -/

/-- A process that is not at work has written nothing, and locked nothing. -/
def Quiet (w : DocumentWorld) : Prop :=
  ∀ pid, w.procs pid = none → w.shared.pending pid = [] ∧ ∀ k, w.shared.locked k ≠ some pid

theorem quiet_step (hg : spec.Good machine w) (h : Quiet w) (hs : machine.step a w = some w') :
    Quiet w' := by
  -- What is not at work has just ended, and is rolled back; or it was not at work, and nothing of
  -- it has changed.
  have hother : ∀ {q}, Rely q w.shared w'.shared → w.procs q = none →
      w'.shared.pending q = [] ∧ ∀ k, w'.shared.locked k ≠ some q := by
    intro q hr hq
    obtain ⟨hpending, hlocked⟩ := h q hq
    exact ⟨hr.stays.pending.trans hpending, fun k hk => hlocked k ((hr.stays.locked k).mp hk)⟩
  have hended : ∀ {pid}, w'.shared = w.shared.rollback pid →
      w'.shared.pending pid = [] ∧ ∀ k, w'.shared.locked k ≠ some pid := by
    intro pid heq
    rw [heq]
    exact ⟨pending_rollback_self, fun k hk => (Db.locked_rollback.mp hk).1 rfl⟩
  intro q hq
  rcases Machine.step_cases hs with ⟨request, pid, p, -, hnone, hx, hp⟩ |
    ⟨pid, c, s, k, r, -, hwas, hx, hp⟩ |
    ⟨pid, r, -, -, hx, hp⟩ | ⟨pid, p, -, -, hx, hp⟩ | ⟨e, -, hx, hp⟩
  · by_cases hqp : q = pid
    · subst hqp
      rw [hp, Function.update_self] at hq
      cases hq
    · rw [hp, Function.update_of_ne hqp] at hq
      exact hother ((fits.start request pid _ p _ trivial hg.inv hx).2.1 q hqp) hq
  · by_cases hqp : q = pid
    · subst hqp
      rw [hp, Function.update_self] at hq
      cases hq
    · rw [hp, Function.update_of_ne hqp] at hq
      exact hother ((exec_effect hx).rely hg.inv hqp) hq
  · by_cases hqp : q = pid
    · subst hqp
      exact hended hx
    · rw [hp, Function.update_of_ne hqp] at hq
      exact hother (hx ▸ rollback_rely hqp) hq
  · by_cases hqp : q = pid
    · subst hqp
      exact hended hx
    · rw [hp, Function.update_of_ne hqp] at hq
      exact hother (hx ▸ rollback_rely hqp) hq
  · rw [hp] at hq
    exact hother ((outside_inv hg.inv hx).2 q) hq

theorem Initial.quiet (h₀ : Initial w₀) (h : machine.run as w₀ = some w) : Quiet w := by
  have halways : machine.Always (fun w => spec.Good machine w ∧ Quiet w) as w₀ := by
    refine Machine.always_of_step ⟨.of_idle h₀.inv h₀.idle, fun pid _ =>
      ⟨h₀.pending pid, fun k hk => ?_⟩⟩
      Machine.eachStep_true fun a w₁ w₂ ⟨hg₁, h₁⟩ _ hs =>
        ⟨hg₁.step fits (a.allowed_all w₁) hs, quiet_step hg₁ h₁ hs⟩
    rw [h₀.locked] at hk
    cases hk
  exact (halways.last h).2

/-! ## A deletion by itself -/

theorem exec_of_faultless {s : Stmt} {c : Choice} (h : c.fault = none) :
    exec pid s c σ = perform pid c σ s := by
  unfold exec
  rw [h]

/-- What is left of a deletion once its status is committed. -/
def cleanUp (current pending : DocumentVersionRecord) : Session DocumentVersionRecord :=
  (projectCode current.projectId).bind fun code =>
    (knowledgeSpaceId current.projectId).bind fun space =>
    (Prog.exec (Stmt.deleteDocument ⟨code, current.versionId.str, space⟩)).bind fun _ =>
      .ret pending

theorem toRecord_of_complete (huri : row.sourceUri.isSome) (hhash : row.contentHash.isSome) :
    ∃ record, toRecord document row = .ok record ∧ record.versionId = row.id ∧
      record.projectId = document.projectId ∧ record.lifecycleStatus = row.lifecycleStatus := by
  obtain ⟨uri, huri⟩ := Option.isSome_iff_exists.mp huri
  obtain ⟨hash, hhash⟩ := Option.isSome_iff_exists.mp hhash
  unfold toRecord
  rw [huri, hhash]
  exact ⟨_, rfl, rfl, rfl, rfl⟩

/-- Where nothing is locked, the version and its document are. -/
theorem lockVersion_goes {c : Choice} (hf : c.fault = none) (hview : σ.view pid = σ.committed)
    (hlocked : ∀ k, σ.locked k = none) (hload : σ.committed.load v = some (document, row)) :
    ∃ σ' : Store, σ'.directory = σ.directory ∧ σ'.pending = σ.pending ∧
      exec pid (.lockVersion v) c σ = some (.ok (some (document, row)), σ') := by
  rw [exec_of_faultless hf]
  have hfree : Function.update σ.locked (.document document.id) (some pid)
      (.version row.id) = none := by
    rw [Function.update_of_ne (by simp)]
    exact hlocked _
  have hdocument : σ.toDb.lock pid (.document document.id) =
      some { σ.toDb with locked := Function.update σ.locked (.document document.id) (some pid) } :=
    Db.lock_of_free (hlocked _)
  have hversion : Db.lock pid (.version row.id)
      { σ.toDb with
        locked := Function.update σ.locked (.document document.id) (some pid) } = some _ :=
    Db.lock_of_free hfree
  simp only [perform, hview, hload, hdocument, Option.bind_eq_bind, Option.bind_some, hversion]
  refine ⟨_, ?_, ?_, rfl⟩ <;> rfl

/-- By itself, a deletion that is permitted and allowed commits its status. -/
theorem alone_deleteDocument (pid : Nat) (σ : Store) {c₁ c₂ c₃ c₄ c₅ : Choice}
    (hpending : σ.pending pid = []) (hlocked : ∀ k, σ.locked k = none)
    (hload : σ.committed.load v = some (document, row)) (huri : row.sourceUri.isSome)
    (hhash : row.contentHash.isSome) (hpermitted : "archive_document" ∈ actor.permissions)
    (hallowed : canTransitionDocument row.lifecycleStatus .DELETE_PENDING = true)
    (hf : ∀ c ∈ [c₁, c₂, c₃, c₄, c₅], c.fault = none) :
    ∃ current pending σ', current.versionId = v ∧ current.projectId = document.projectId ∧
      σ'.directory = σ.directory ∧
      machine.alone pid [c₁, c₂, c₃, c₄, c₅] (deleteDocument v actor) σ =
        some (cleanUp current pending, σ') := by
  have hview : σ.view pid = σ.committed := by
    show List.foldl _ _ (σ.pending pid) = _
    rw [hpending]
    rfl
  obtain ⟨-, hid, -⟩ := load_eq_some hload
  obtain ⟨current, hcurrent, hversion, hproject, hstatus⟩ : ∃ record,
      toRecord document row = .ok record ∧ _ :=
    toRecord_of_complete huri hhash
  obtain ⟨pending, hpendingRecord, -⟩ : ∃ record,
      toRecord document (setRowStatus .DELETE_PENDING none row) = .ok record ∧ _ :=
    toRecord_of_complete huri hhash
  simp only [List.mem_cons, List.not_mem_nil, or_false, forall_eq_or_imp, forall_eq] at hf
  obtain ⟨hf₁, hf₂, hf₃, hf₄, hf₅⟩ := hf
  have h₁ : machine.exec pid (.loadVersion v) c₁ σ = some (.ok (some (document, row)), σ) := by
    show exec pid _ c₁ σ = _
    rw [exec_of_faultless hf₁, perform, hview, hload]
  obtain ⟨σ₂, hdirectory, hpending₂, h₂⟩ := lockVersion_goes hf₂ hview hlocked hload
  have h₂ : machine.exec pid (.lockVersion v) c₂ σ = some (.ok (some (document, row)), σ₂) := h₂
  have h₃ : machine.exec pid (.setStatus v row.lifecycleStatus .DELETE_PENDING none) c₃ σ₂ =
      some (.ok (), σ₂.write pid (.status v row.lifecycleStatus .DELETE_PENDING none)) :=
        exec_of_faultless hf₃
  have h₄ : ∀ record σ₃, machine.exec pid (.insertAudit record) c₄ σ₃ =
      some (.ok (), σ₃.write pid (.audit record)) :=
    fun record σ₃ => exec_of_faultless hf₄
  have h₅ : ∀ σ₄ : Store, versionIds (σ₄.pending pid) = [] →
      machine.exec pid .commit c₅ σ₄ = some (.ok (), σ₄.commit pid) := by
    intro σ₄ h
    show exec pid _ c₅ σ₄ = _
    rw [exec_of_faultless hf₅, perform, numberTaken_of_nil h]
    rfl
  unfold deleteDocument getVersion transition addAudit
  simp only [hpermitted, not_true_eq_false, if_false, Prog.bind_eq, Prog.bind_assoc]
  rw [Machine.alone_exec h₁]
  simp only [requireVersion, Prog.pure_eq, Prog.ret_bind, hcurrent, ofExcept]
  rw [Machine.alone_exec h₂]
  simp only [Prog.ret_bind, hstatus, transitionDocumentStatus, hallowed, ne_eq,
    not_true_eq_false, if_true,
    if_false, Prog.bind_assoc]
  rw [Machine.alone_exec h₃]
  simp only [hpendingRecord, Prog.ret_bind]
  rw [Machine.alone_exec (h₄ _ _), Machine.alone_exec (h₅ _ ?_)]
  · refine ⟨current, pending, _, hversion.trans hid, hproject, ?_, rfl⟩
    exact hdirectory
  · rw [pending_write_self, pending_write_self, hpending₂, hpending]
    rfl

/-- The project's code and its one active space can be looked up. -/
def LooksUp (directory : Directory) (projectId : UUID) : Prop :=
  (directory.projectCode projectId).isSome ∧ ∃ space, directory.activeSpaces projectId = [space]

/-- The session of a request that answers with a version. -/
def served (p : Session DocumentVersionRecord) : Session Unit :=
  ((p.bind fun _ => pure ()).bind fun _ => Prog.exec Stmt.commit).tryCatch fun e =>
    (Prog.exec (Stmt.rollback e)).bind fun _ => throw e

theorem alone_served {cs : List Choice} {p p' : Session DocumentVersionRecord} {σ' : Store}
    (h : machine.alone pid cs p σ = some (p', σ')) :
    machine.alone pid cs (served p) σ = some (served p', σ') :=
  Machine.alone_tryCatch (Machine.alone_bind (Machine.alone_bind h))

/-- Where they can, the provider is called next; where not, the session is not about to call it. -/
theorem alone_cleanUp (pid : Nat) (σ : Store) {c₆ c₇ : Choice}
    (current pending : DocumentVersionRecord) (hf₆ : c₆.fault = none) (hf₇ : c₇.fault = none) :
    ∃ p σ', machine.alone pid [c₆, c₇] (served (cleanUp current pending)) σ = some (p, σ') ∧
      ((∃ request k, p = .stmt (.deleteDocument request) k ∧
        request.documentVersionId = current.versionId.str) ↔
        LooksUp σ.directory current.projectId) := by
  have h₆ : machine.exec pid (.selectProjectCode current.projectId) c₆ σ =
      some (.ok (σ.directory.projectCode current.projectId), σ) := exec_of_faultless hf₆
  cases hcode : σ.directory.projectCode current.projectId with
  | none =>
    rw [hcode] at h₆
    have h₇ : ∀ e, machine.exec pid (.rollback e) c₇ σ = some (.ok (), σ.rollback pid) :=
      fun e => exec_of_faultless hf₇
    refine ⟨.raise (.lookupError ("project " ++ current.projectId.str ++ " does not exist")),
      σ.rollback pid, ?_, ?_, ?_⟩
    · show (machine.exec pid (.selectProjectCode current.projectId) c₆ σ).bind _ = _
      rw [h₆]
      show (machine.exec pid (.rollback _) c₇ σ).bind _ = _
      rw [h₇]
      rfl
    · rintro ⟨request, k, hp, -⟩
      cases hp
    · rintro ⟨hsome, -⟩
      rw [hcode] at hsome
      cases hsome
  | some code =>
    rw [hcode] at h₆
    have h₇ : machine.exec pid (.selectKnowledgeSpaceId current.projectId) c₇ σ =
        some (.ok (σ.directory.activeSpaces current.projectId), σ) := exec_of_faultless hf₇
    have hmiss : ∀ {e k}, machine.alone pid [c₆, c₇] (served (cleanUp current pending)) σ =
        some (.stmt (.rollback e) k, σ) →
          (¬ ∃ space, σ.directory.activeSpaces current.projectId = [space]) →
        ∃ p σ', machine.alone pid [c₆, c₇] (served (cleanUp current pending)) σ = some (p, σ') ∧
          ((∃ request k, p = .stmt (.deleteDocument request) k ∧
            request.documentVersionId = current.versionId.str) ↔
            LooksUp σ.directory current.projectId) := by
      refine fun hrun hspaces => ⟨_, σ, hrun, ?_, fun hlooks => absurd hlooks.2 hspaces⟩
      rintro ⟨request, k, hp, -⟩
      cases hp
    cases hspaces : σ.directory.activeSpaces current.projectId with
    | nil =>
      have hrun : ∃ k, machine.alone pid [c₆, c₇] (served (cleanUp current pending)) σ =
        some (.stmt (.rollback
          (.lookupError ("project " ++ current.projectId.str ++
            " has no active RAGFlow knowledge space"))) k, σ) := by
        refine ⟨?_, ?_⟩
        rotate_left
        · show (machine.exec pid (.selectProjectCode current.projectId) c₆ σ).bind _ = _
          rw [h₆]
          show (machine.exec pid (.selectKnowledgeSpaceId current.projectId) c₇ σ).bind _ = _
          rw [h₇, hspaces]
          rfl
      obtain ⟨k, hrun⟩ := hrun
      exact hmiss hrun (by simp [hspaces])
    | cons space spaces =>
      cases spaces with
      | nil =>
        have hrun : ∃ k, machine.alone pid [c₆, c₇] (served (cleanUp current pending)) σ =
            some (.stmt (.deleteDocument ⟨code, current.versionId.str, space⟩) k, σ) := by
          refine ⟨?_, ?_⟩
          rotate_left
          · show (machine.exec pid (.selectProjectCode current.projectId) c₆ σ).bind _ = _
            rw [h₆]
            show (machine.exec pid (.selectKnowledgeSpaceId current.projectId) c₇ σ).bind _ = _
            rw [h₇, hspaces]
            rfl
        obtain ⟨k, hrun⟩ := hrun
        exact ⟨_, σ, hrun, fun _ => ⟨by rw [hcode]; rfl, space, hspaces⟩, fun _ => ⟨_, k, rfl, rfl⟩⟩
      | cons space' spaces =>
        have hrun : ∃ k, machine.alone pid [c₆, c₇] (served (cleanUp current pending)) σ =
            some (.stmt (.rollback .multipleResultsFound) k, σ) := by
          refine ⟨?_, ?_⟩
          rotate_left
          · show (machine.exec pid (.selectProjectCode current.projectId) c₆ σ).bind _ = _
            rw [h₆]
            show (machine.exec pid (.selectKnowledgeSpaceId current.projectId) c₇ σ).bind _ = _
            rw [h₇, hspaces]
            rfl
        obtain ⟨k, hrun⟩ := hrun
        exact hmiss hrun (by simp [hspaces])

/-- A deletion that is started where nothing else is at work, and loses no statement. -/
def Reaches (v : UUID) (actor : DocumentActor) (pid : Nat) (w : DocumentWorld) : Prop :=
  ∀ cs : List Choice, cs.length = 7 → (∀ c ∈ cs, c.fault = none) →
    ∃ w', machine.run (.start (.delete v actor) pid :: cs.map (.exec pid)) w = some w' ∧
      AtProvider pid v w'

theorem reaches_iff (hg : spec.Good machine w) (hq : Quiet w) (hidle : ∀ q, w.procs q = none)
    (hload : w.shared.committed.load v = some (document, row))
    (hpermitted : "archive_document" ∈ actor.permissions) (hgone : ¬ Gone w.shared.committed v) :
    Reaches v actor pid w ↔ LooksUp w.shared.directory document.projectId := by
  obtain ⟨hmem, hid, -⟩ := load_eq_some hload
  obtain ⟨huri, hhash⟩ := hg.inv.complete row hmem
  have hstatus : w.shared.committed.statusOf v = some row.lifecycleStatus := by
    unfold Tables.statusOf
    rw [← hid, Tables.version_of_mem hg.inv.ids hmem]
    rfl
  have hallowed : canTransitionDocument row.lifecycleStatus .DELETE_PENDING = true := by
    cases hs : row.lifecycleStatus with
    | DELETE_PENDING => exact absurd (.inl (hs ▸ hstatus)) hgone
    | DELETED => exact absurd (.inr (hs ▸ hstatus)) hgone
    | _ => rfl
  let σ₀ : Store := { w.shared.rollback pid with
    changed := Function.update w.shared.changed pid [] }
  let w₁ : DocumentWorld :=
    ⟨σ₀, Function.update w.procs pid (some (served (deleteDocument v actor)))⟩
  have hstart : machine.step (.start (.delete v actor) pid) w = some w₁ := by
    simp only [Machine.step, hidle pid]
    rfl
  have hlocked : ∀ k, σ₀.locked k = none := by
    intro k
    cases hk : σ₀.locked k with
    | none => rfl
    | some q => exact absurd (Db.locked_rollback.mp hk).2 ((hq q (hidle q)).2 k)
  have hall : ∀ c₁ c₂ c₃ c₄ c₅ c₆ c₇ : Choice,
    (∀ c ∈ [c₁, c₂, c₃, c₄, c₅, c₆, c₇], c.fault = none) →
      ∃ w', machine.run (.start (.delete v actor) pid ::
        [c₁, c₂, c₃, c₄, c₅, c₆, c₇].map (.exec pid)) w = some w' ∧
        (AtProvider pid v w' ↔ LooksUp w.shared.directory document.projectId) := by
    intro c₁ c₂ c₃ c₄ c₅ c₆ c₇ hf
    obtain ⟨current, pending, σ', hversion, hproject, hdirectory, hrun⟩ :=
      alone_deleteDocument pid σ₀ pending_rollback_self hlocked hload huri hhash hpermitted hallowed
        (fun c hc => hf c (List.mem_append_left [c₆, c₇] hc))
    obtain ⟨p, σ'', hrun', hiff⟩ := alone_cleanUp pid σ' current pending
      (hf c₆ (by simp)) (hf c₇ (by simp))
    have halone : machine.alone pid ([c₁, c₂, c₃, c₄, c₅] ++ [c₆, c₇])
      (served (deleteDocument v actor)) σ₀ =
        some (p, σ'') := by
      rw [Machine.alone_append, alone_served hrun]
      exact hrun'
    refine ⟨⟨σ'', Function.update w₁.procs pid (some p)⟩, ?_, ?_⟩
    · rw [Machine.run_cons, hstart, Option.bind_some, Machine.run_alone _ (Function.update_self ..)]
      show (machine.alone pid _ _ σ₀).map _ = _
      rw [show [c₁, c₂, c₃, c₄, c₅, c₆, c₇] = [c₁, c₂, c₃, c₄, c₅] ++ [c₆, c₇] from rfl, halone]
      rfl
    · rw [← hproject]
      have hdirectory : σ'.directory = w.shared.directory := hdirectory
      rw [← hdirectory, ← hiff, hversion]
      constructor
      · rintro ⟨request, k, hp, hrequest⟩
        refine ⟨request, k, ?_, hrequest⟩
        exact Option.some.inj ((Function.update_self pid _ _).symm.trans hp)
      · rintro ⟨request, k, hp, hrequest⟩
        exact ⟨request, k, (Function.update_self pid _ _).trans (congrArg some hp), hrequest⟩
  constructor
  · intro hreaches
    let c : Choice := ⟨none, .ofNat 0, 0, ⟨"", ""⟩, "", ⟨.SUCCEEDED, none⟩⟩
    have hf : ∀ c' ∈ [c, c, c, c, c, c, c], c'.fault = none := by
      intro c' hc'
      simp only [List.mem_cons, List.not_mem_nil, or_false, or_self] at hc'
      rw [hc']
    obtain ⟨w', hr, hat⟩ := hreaches [c, c, c, c, c, c, c] rfl hf
    obtain ⟨w'', hr', hiff⟩ := hall c c c c c c c hf
    rw [hr] at hr'
    cases hr'
    exact hiff.mp hat
  · intro hlooks cs hlength hf
    obtain ⟨c₁, cs, rfl⟩ := List.exists_of_length_succ cs hlength
    obtain ⟨c₂, cs, rfl⟩ := List.exists_of_length_succ cs (Nat.succ.inj hlength)
    obtain ⟨c₃, c₄, c₅, c₆, c₇, rfl⟩ : ∃ c₃ c₄ c₅ c₆ c₇, cs = [c₃, c₄, c₅, c₆, c₇] := by
      rcases cs with _ | ⟨c₃, _ | ⟨c₄, _ | ⟨c₅, _ | ⟨c₆, _ | ⟨c₇, _ | ⟨c₈, cs⟩⟩⟩⟩⟩⟩ <;>
        simp at hlength ⊢
    obtain ⟨w', hr, hiff⟩ := hall c₁ c₂ c₃ c₄ c₅ c₆ c₇ hf
    exact ⟨w', hr, hiff.mpr hlooks⟩

/-- **A deletion can be finished** exactly before its status is committed: where no other request is
at work, the delete operation comes to the provider's call just if the version is not yet to be
deleted, and the project's code and space are there; once it is to be deleted, no request ever comes
to the call. -/
theorem deletion_reaches_iff (h₀ : Initial w₀) (h : machine.run as w₀ = some w)
    (hidle : ∀ q, w.procs q = none) (hload : w.shared.committed.load v = some (document, row))
    (hpermitted : "archive_document" ∈ actor.permissions) :
    (Reaches v actor pid w ↔ ¬ Gone w.shared.committed v ∧
      LooksUp w.shared.directory document.projectId) ∧
      (Gone w.shared.committed v → ∀ bs w' q, machine.run bs w = some w' →
        ¬ AtProvider q v w') := by
  have hg : spec.Good machine w := (h₀.good as).last h
  have hnever : Gone w.shared.committed v → ∀ bs w' q, machine.run bs w = some w' →
      ¬ AtProvider q v w' :=
    fun hgone bs w' q hr => never_atProvider hg hidle hgone hr
  refine ⟨⟨fun hreaches => ?_, fun ⟨hgone, hlooks⟩ => ?_⟩, hnever⟩
  · have hgone : ¬ Gone w.shared.committed v := by
      intro hgone
      let c : Choice := ⟨none, .ofNat 0, 0, ⟨"", ""⟩, "", ⟨.SUCCEEDED, none⟩⟩
      obtain ⟨w', hr, hat⟩ := hreaches (List.replicate 7 c) rfl fun c' hc' => by
        rw [List.eq_of_mem_replicate hc']
      exact hnever hgone _ w' pid hr hat
    exact ⟨hgone, (reaches_iff hg (h₀.quiet h) hidle hload hpermitted hgone).mp hreaches⟩
  · exact (reaches_iff hg (h₀.quiet h) hidle hload hpermitted hgone).mpr hlooks

/-! ## A deletion that fails at the provider -/

namespace Sample

def uploads : List DocumentAction := serves 1 (upload none) 6

/-- The provider's call raises once the status is committed. -/
def failsToDelete : List DocumentAction :=
  uploads ++ .start (.delete versionId owner) 2 ::
    (List.range 7).map (fun i => .exec 2 (choice i)) ++
    [.exec 2 { choice 7 with
      fault := some (false, "KnowledgeProviderError") }, .exec 2 (choice 8), .finish 2]

/-- The sessions have ended, the version has this status, and the lookups find what they look
for. -/
def settled (status : DocumentLifecycleStatus) (w : DocumentWorld) : Bool :=
  (w.procs 1).isNone && (w.procs 2).isNone && w.shared.committed.statusOf versionId ==
    some status &&
    (w.shared.committed.load versionId).any (fun (document, _) => document.projectId == .ofNat 3) &&
    w.shared.directory.projectCode (.ofNat 3) == some "P-1" &&
      w.shared.directory.activeSpaces (.ofNat 3) == ["dataset"]

theorem uploads_settled : (machine.run uploads world).any (settled .DRAFT) = true := by
  decide +kernel

theorem failsToDelete_settled :
    (machine.run failsToDelete world).any (settled .DELETE_PENDING) = true := by
  decide +kernel

/-- The second attempt is rolled back, as no transition leads from where the first has left the
version. -/
example : (machine.run (failsToDelete ++
    [.start (.delete versionId owner) 3, .exec 3 (choice 0), .exec 3 (choice 1)]) world).any
      (fun w =>
      match w.procs 3 with
      | some (.stmt (.rollback e) _) => e == .invalidTransition .DELETE_PENDING .DELETE_PENDING
      | _ => false) = true := by
  decide +kernel

theorem of_settled {w : DocumentWorld} {as : List DocumentAction} {status : DocumentLifecycleStatus}
    (h : machine.run as world = some w)
    (hstarts : ∀ request q, .start request q ∈ as → q = 1 ∨ q = 2) (hs : settled status w = true) :
    (∀ q, w.procs q = none) ∧ w.shared.committed.statusOf versionId = some status ∧
      ∃ document row, w.shared.committed.load versionId = some (document, row) ∧
        LooksUp w.shared.directory document.projectId := by
  simp only [settled, Bool.and_eq_true, beq_iff_eq, Option.isNone_iff_eq_none] at hs
  obtain ⟨⟨⟨⟨⟨hidle₁, hidle₂⟩, hstatus⟩, hload⟩, hcode⟩, hspaces⟩ := hs
  refine ⟨fun q => ?_, hstatus, ?_⟩
  · by_contra hq
    rcases Machine.procs_of_run h (Option.isSome_iff_ne_none.mpr hq) with hstarted | ⟨request, hmem⟩
    · cases hstarted
    · rcases hstarts request q hmem with rfl | rfl
      · exact hq hidle₁
      · exact hq hidle₂
  · obtain ⟨⟨document, row⟩, hload, hproject⟩ := (Option.any_eq_true _ _).mp hload
    refine ⟨document, row, hload, ?_⟩
    rw [beq_iff_eq.mp hproject]
    exact ⟨by rw [hcode]; rfl, "dataset", hspaces⟩

theorem uploads_starts (request : Request) (q : Nat) (h : .start request q ∈ uploads) :
    q = 1 ∨ q = 2 := by
  simp [uploads, serves] at h
  exact .inl h.2

theorem failsToDelete_starts (request : Request) (q : Nat) (h : .start request q ∈ failsToDelete) :
    q = 1 ∨ q = 2 := by
  simp [failsToDelete, uploads, serves] at h
  rcases h with h | h
  · exact .inl h.2
  · exact .inr h.2

end Sample

/-- The provider has not deleted anything, and no further attempt comes to it. -/
theorem deletion_refused :
    ∃ w, machine.run Sample.failsToDelete Sample.world = some w ∧ (∀ q, w.procs q = none) ∧
    (∃ document row, w.shared.committed.load Sample.versionId = some (document, row) ∧
      LooksUp w.shared.directory document.projectId) ∧
        "archive_document" ∈ Sample.owner.permissions ∧
    ¬ Reaches Sample.versionId Sample.owner 3 w := by
  obtain ⟨w, hr, hs⟩ := (Option.any_eq_true _ _).mp Sample.failsToDelete_settled
  obtain ⟨hidle, hstatus, hfound⟩ := Sample.of_settled hr Sample.failsToDelete_starts hs
  have hg : spec.Good machine w := (Sample.world_initial.good _).last hr
  refine ⟨w, hr, hidle, hfound, by decide, fun hreaches => ?_⟩
  obtain ⟨w', hr', hat⟩ := hreaches (List.replicate 7 (Sample.choice 0)) rfl
    fun c hc => by rw [List.eq_of_mem_replicate hc]; rfl
  exact never_atProvider hg hidle (.inl hstatus) hr' hat

/-- A first attempt does. -/
theorem deletion_reaches_uploaded :
    ∃ w, machine.run Sample.uploads Sample.world = some w ∧
      Reaches Sample.versionId Sample.owner 2 w := by
  obtain ⟨w, hr, hs⟩ := (Option.any_eq_true _ _).mp Sample.uploads_settled
  obtain ⟨hidle, hstatus, document, row, hload, hlooks⟩ :=
    Sample.of_settled hr Sample.uploads_starts hs
  refine ⟨w, hr, (deletion_reaches_iff Sample.world_initial hr hidle hload (by decide)).1.mpr
    ⟨?_, hlooks⟩⟩
  rintro (h | h) <;> rw [hstatus] at h <;> cases h

end ProjectAgent.Documents
