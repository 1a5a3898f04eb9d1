/-
The use cases, and with them every session a request is served in, keep to the
specification; so every world the machine reaches is a good one.
-/
import ProjectAgent.Documents.Sessions

namespace ProjectAgent.Documents

open Interleave

variable {pid : Nat} {c : Choice} {σ σ' σ₀ : Store} {s : Stmt} {v : UUID}

/-- A use case is through: its session may be committed, and what it raises as a rejection has
committed no status. -/
def Ends (pid : Nat) {α : Type} : Except DocumentError α → Store → Prop
  | .ok _, σ => Publication (σ.pending pid) σ.committed ∧
      (σ.changed pid = [] ∨ versionIds (σ.pending pid) = [])
  | .error e, σ => e.rejects → σ.changed pid = []

theorem Idle.ends {α : Type} (h : Idle pid σ) (r : Except DocumentError α) : Ends pid r σ := by
  cases r with
  | ok => exact ⟨publication_of_nil h.statuses, .inl h.changed⟩
  | error e => exact fun _ => h.changed

theorem Writes.ends {α : Type} {r : Except DocumentError α} (h : Writes v pid r σ) :
    Ends pid r σ := by
  cases r with
  | ok => exact ⟨h.2.publication, .inl h.2.changed⟩
  | error e => exact fun _ => h.2

theorem Ends.discard {α : Type} {p : Session α} (h : SafeTo pid (Ends pid) p σ₀) :
    SafeTo pid (Ends pid) (p.bind fun _ => pure ()) σ₀ :=
  Safe.andThen h (fun _ _ hσ => hσ) fun _ _ hσ => hσ

/-! ## Upload, review and approval -/

/-- What an upload issues. -/
def Uploads : Stmt → Prop
  | .insertVersion row =>
    row.lifecycleStatus = .DRAFT ∧ row.sourceUri.isSome ∧ row.contentHash.isSome
  | .putObject _ _ | .insertDocument _ | .getDocument _ | .maxVersionNo _ | .insertAudit _ => True
  | _ => False

theorem only_uploadDocument (command : UploadDocumentCommand) :
    (uploadDocument command).Only Uploads := by
  refine Prog.Only.bind (.exec trivial) fun stored => Prog.Only.bind ?_ fun record => ?_
  · refine Prog.Only.bind ?_ fun document => Prog.Only.bind (.exec trivial) fun maxVersion =>
      Prog.Only.bind (.exec ⟨rfl, rfl, rfl⟩) fun version => ?_
    · unfold draftDocument
      split
      · exact .exec trivial
      · refine Prog.Only.bind (.exec trivial) fun found => ?_
        cases found with
        | none => trivial
        | some document =>
          dsimp only
          split
          · trivial
          · split <;> trivial
    · unfold toRecord
      split <;> trivial
  · split
    · trivial
    · exact Prog.Only.bind (.exec trivial) fun _ => trivial

theorem uploadDocument_safe (command : UploadDocumentCommand) (h : Idle pid σ₀) :
    SafeTo pid (Ends pid) (uploadDocument command) σ₀ := by
  have hsafe : SafeTo pid (fun _ σ => statusIds (σ.pending pid) = [] ∧ σ.changed pid = [])
      (uploadDocument command) σ₀ := by
    refine Safe.only (fun σ₁ σ₂ h hr => ?_) (fun s σ₁ hs h _ => ⟨?_, fun c r σ₂ hx => ?_⟩)
      (only_uploadDocument command)
      ⟨h.statuses, h.changed⟩
    · exact ⟨by rw [hr.stays.pending]; exact h.1, hr.changed.trans h.2⟩
    · cases s with
      | insertVersion row => exact hs
      | putObject | insertDocument | getDocument | maxVersionNo | insertAudit => trivial
      | _ => exact hs.elim
    · cases exec_effect hx with
      | none => exact h
      | insertDocument | insertVersion | insertAudit =>
        refine ⟨?_, h.2⟩
        show statusIds (Function.update σ₁.pending pid (σ₁.pending pid ++ [_]) pid) = []
        rw [Function.update_self, statusIds_append, h.1]
        rfl
      | lock | setStatus | commit | failedCommit | rollback => exact hs.elim
  refine hsafe.mono fun r σ hσ => ?_
  cases r with
  | ok record => exact ⟨publication_of_nil hσ.1, .inl hσ.2⟩
  | error e => exact fun _ => hσ.2

/-- What is written is audited. -/
theorem audited_safe {α : Type} {p : Session α} (record : DocumentAuditRecord)
    (h : SafeTo pid (Writes v pid) p σ₀) :
    SafeTo pid (Writes v pid) (p.bind fun a => (addAudit record).bind fun _ => pure a) σ₀ := by
  refine Safe.andThen h (fun a σ hσ => ?_) fun e σ hσ => ⟨fun j heq => ?_, hσ.2⟩
  · have haudit : SafeTo pid (fun r σ => NotPending r ∧ Written v pid σ) (addAudit record) σ := by
      intro σ₁ hr hi
      obtain ⟨hp, hx⟩ := addAudit_written record hσ.2 σ₁ hr hi
      refine ⟨hp, fun c r σ₂ hx₂ hi₂ => ?_⟩
      have hwritten := hx c r σ₂ hx₂ hi₂
      have hraised := exec_notPending hx₂ (fun h => nomatch h) (fun _ h => nomatch h)
      cases r with
      | ok => exact ⟨fun _ h => (nomatch h), hwritten⟩
      | error e =>
        refine ⟨fun j heq => ?_, hwritten⟩
        cases heq
        exact hraised j rfl
    refine Safe.andThen haudit (fun _ σ₁ hσ₁ => ⟨fun _ h => (nomatch h), hσ₁.2⟩)
      fun e σ₁ hσ₁ => ⟨fun j heq => ?_, hσ₁.2.changed⟩
    cases heq
    exact hσ₁.1 j rfl
  · cases heq
    exact hσ.1 j rfl

/-- A use case that reads the version, asks for a permission and moves the version on. -/
theorem moved_safe {versionId : UUID} {denied : DocumentVersionRecord → Prop}
    [∀ current, Decidable (denied current)]
    {text : String} {expected target : DocumentLifecycleStatus} (ht : target ≠ .PUBLISHED)
    (hd : target ≠ .DELETED)
    (record : DocumentVersionRecord → DocumentAuditRecord) (h : Idle pid σ₀) :
    SafeTo pid (Ends pid) ((getVersion versionId).bind fun current =>
      if denied current then throw (.permissionDenied text)
      else (transition versionId expected target).bind fun updated =>
        (addAudit (record current)).bind fun _ => pure updated) σ₀ := by
  refine Safe.andThen (getVersion_safe versionId h) (fun current σ hσ => ?_) fun e σ hσ =>
    hσ.1.ends _
  split
  · exact fun _ => hσ.1.changed
  · exact (audited_safe (record current) (transition_safe expected ht hd hσ.1)).mono fun _ _ =>
      Writes.ends

theorem submitDocumentReview_safe (versionId : UUID) (actor : DocumentActor) (h : Idle pid σ₀) :
    SafeTo pid (Ends pid) (submitDocumentReview versionId actor) σ₀ := by
  unfold submitDocumentReview
  refine moved_safe ?_ ?_ (fun current => ⟨_, current.projectId, versionId, actor.userId, _⟩) h
  · exact fun h => nomatch h
  · exact fun h => nomatch h

theorem approveDocument_safe (versionId : UUID) (actor : DocumentActor) (h : Idle pid σ₀) :
    SafeTo pid (Ends pid) (approveDocument versionId actor) σ₀ := by
  unfold approveDocument
  refine moved_safe ?_ ?_ (fun current => ⟨_, current.projectId, versionId, actor.userId, _⟩) h
  · exact fun h => nomatch h
  · exact fun h => nomatch h

/-! ## Publication -/

theorem only_projectCode (projectId : UUID) : (projectCode projectId).Only Plain := by
  refine Prog.Only.bind (.exec trivial) fun code => ?_
  cases code <;> trivial

theorem only_knowledgeSpaceId (projectId : UUID) : (knowledgeSpaceId projectId).Only Plain := by
  refine Prog.Only.bind (.exec trivial) fun spaces => ?_
  split <;> trivial

/-- A publication is through; where it is pending, nothing is written. -/
def Publishes (pid : Nat) {α : Type} (r : Except DocumentError α) (σ : Store) : Prop :=
  Ends pid r σ ∧ ∀ ingestionJobId, r = .error (.publishPending ingestionJobId) → Idle pid σ

theorem Idle.publishes {α : Type} (h : Idle pid σ) (r : Except DocumentError α) :
    Publishes pid r σ :=
  ⟨h.ends r, fun _ _ => h⟩

theorem finalizePublication_safe {current : DocumentVersionRecord} (ingestionJobId : String)
    (actor : DocumentActor) (h : Idle pid σ₀)
    (hn : Named current.versionId current.supersedesVersionId σ₀.committed) :
    SafeTo pid (Publishes pid) (finalizePublication current ingestionJobId actor) σ₀ := by
  refine Safe.andThen (SafeTo.named (idle_safe (.exec trivial) h) hn) (fun status σ hσ => ?_)
    fun e σ hσ => hσ.1.publishes _
  obtain ⟨hidle, hn⟩ := hσ
  split
  · refine (idle_safe ?_ hidle).mono fun r σ' hσ' => hσ'.publishes r
    exact Prog.Only.bind (.exec trivial) fun _ => Prog.Only.bind (.exec trivial) fun _ => trivial
  · split
    · exact hidle.publishes _
    · refine (audited_safe _ (completePublication_safe hidle hn)).mono fun r σ' hσ' =>
        ⟨hσ'.ends, fun j heq => ?_⟩
      exact absurd heq (hσ'.1 j)

theorem publishDocument_safe (versionId : UUID) (actor : DocumentActor) (h : Idle pid σ₀) :
    SafeTo pid (Publishes pid) (publishDocument versionId actor) σ₀ := by
  unfold publishDocument
  split
  · exact h.publishes _
  · refine Safe.andThen (getVersion_safe versionId h) (fun current σ hσ => ?_) fun e σ hσ =>
      hσ.1.publishes _
    obtain ⟨hidle, -, hn⟩ := hσ
    obtain ⟨rfl, hn⟩ := hn current rfl
    split
    · exact hidle.publishes _
    · refine Safe.andThen (SafeTo.named (idle_safe (only_projectCode _) hidle) hn)
        (fun code σ₁ hσ₁ => ?_)
        fun e σ₁ hσ₁ => hσ₁.1.publishes _
      refine Safe.andThen (SafeTo.named (idle_safe (only_knowledgeSpaceId _) hσ₁.1) hσ₁.2)
        (fun space σ₂ hσ₂ => ?_)
        fun e σ₂ hσ₂ => hσ₂.1.publishes _
      refine Safe.andThen (SafeTo.named (idle_safe (.exec trivial) hσ₂.1) hσ₂.2)
        (fun ingestionJobId σ₃ hσ₃ => ?_)
        fun e σ₃ hσ₃ => hσ₃.1.publishes _
      refine Safe.andThen (SafeTo.named (idle_safe (.exec trivial) hσ₃.1) hσ₃.2)
        (fun _ σ₄ hσ₄ => ?_)
        fun e σ₄ hσ₄ => hσ₄.1.publishes _
      refine Safe.andThen (SafeTo.named (idle_safe (.exec trivial) hσ₄.1) hσ₄.2)
        (fun _ σ₅ hσ₅ => ?_)
        fun e σ₅ hσ₅ => hσ₅.1.publishes _
      exact finalizePublication_safe ingestionJobId actor hσ₅.1 hσ₅.2

theorem finalizeDocument_safe (versionId : UUID) (ingestionJobId : String) (actor : DocumentActor)
    (h : Idle pid σ₀) :
    SafeTo pid (Publishes pid) (finalizeDocument versionId ingestionJobId actor) σ₀ := by
  unfold finalizeDocument
  split
  · exact h.publishes _
  · refine Safe.andThen (getVersion_safe versionId h) (fun current σ hσ => ?_) fun e σ hσ =>
      hσ.1.publishes _
    obtain ⟨hidle, -, hn⟩ := hσ
    obtain ⟨rfl, hn⟩ := hn current rfl
    split
    · exact hidle.publishes _
    · exact finalizePublication_safe ingestionJobId actor hidle hn

theorem answerPending_safe {p : Session DocumentVersionRecord}
    (h : SafeTo pid (Publishes pid) p σ₀) :
    SafeTo pid (Ends pid) (useCase.answerPending p) σ₀ := by
  have hbody : SafeTo pid (Publishes pid) (p.bind fun _ => pure ()) σ₀ := by
    refine Safe.andThen h (fun _ σ hσ => ⟨hσ.1, fun _ h => nomatch h⟩) fun e σ hσ =>
      ⟨hσ.1, fun j heq => ?_⟩
    cases heq
    exact hσ.2 j rfl
  refine Safe.tryCatch (hbody.mono fun r σ hσ => ?_)
  cases r with
  | ok => exact hσ.1
  | error e =>
    dsimp only
    split
    · next ingestionJobId => exact (hσ.2 ingestionJobId rfl).ends (.ok ())
    · exact hσ.1

/-! ## Deletion -/

/-- The session has committed the version's status, and written nothing since. -/
structure Cleaned (v : UUID) (pid : Nat) (σ : Store) : Prop where
  pending : σ.pending pid = []
  changed : v ∈ σ.changed pid

theorem Cleaned.rely (h : Cleaned v pid σ) (hr : Rely pid σ σ') : Cleaned v pid σ' :=
  ⟨hr.stays.pending.trans h.pending, by rw [hr.changed]; exact h.changed⟩

theorem Cleaned.ends {α : Type} {r : Except DocumentError α} (h : Cleaned v pid σ)
    (he : ∀ e, r = .error e → ¬ e.rejects) :
    Ends pid r σ := by
  cases r with
  | ok =>
    refine ⟨publication_of_nil ?_, .inr ?_⟩
    · rw [h.pending]
      rfl
    · rw [h.pending]
      rfl
  | error e => exact fun hrejects => absurd hrejects (he e rfl)

/-- What a commit can come to. -/
theorem commit_cases {r : Except DocumentError Unit} (h : exec pid .commit c σ = some (r, σ')) :
    (r = .ok () ∧ σ.numberTaken pid = false ∧ σ' = σ.commit pid) ∨
    (r = .error .integrityError ∧ σ.numberTaken pid = true ∧ σ' = σ.rollback pid) ∨
    ∃ typeName, r = .error (.raised typeName) ∧
      (σ' = σ ∨ σ' = σ.rollback pid ∨ σ' = σ.commit pid) := by
  have hperform : ∀ {r'}, perform pid c σ .commit = some (r', σ') →
      (r' = .ok () ∧ σ.numberTaken pid = false ∧ σ' = σ.commit pid) ∨
      r' = .error .integrityError ∧ σ.numberTaken pid = true ∧ σ' = σ.rollback pid := by
    intro r' h
    simp only [perform] at h
    split at h
    · next ht =>
      cases h
      exact .inr ⟨rfl, ht, rfl⟩
    · next ht =>
      cases h
      exact .inl ⟨rfl, Bool.eq_false_iff.mpr ht, rfl⟩
  rcases exec_cases h with h | ⟨e, rfl, rfl | ⟨-, r', h⟩⟩
  · rcases hperform h with h | h
    · exact .inl h
    · exact .inr (.inl h)
  · exact .inr (.inr ⟨e, rfl, .inl rfl⟩)
  · rcases hperform h with ⟨-, -, h⟩ | ⟨-, -, h⟩
    · exact .inr (.inr ⟨e, rfl, .inr (.inr h)⟩)
    · exact .inr (.inr ⟨e, rfl, .inr (.inl h)⟩)

theorem not_rejects_project (text : String) :
    ¬ (DocumentError.lookupError ("project " ++ text)).rejects := by
  rintro ⟨versionId, h⟩
  have hhead := congrArg (fun text => text.toList.head?) h
  simp [String.toList_append] at hhead

/-- The lookups a deletion makes once the status is committed reject nothing. -/
theorem cleaned_lookup {α : Type} {f : s.Res → Session α}
    (hs : s = .selectProjectCode v ∨ s = .selectKnowledgeSpaceId v) {u : UUID}
    (h : Cleaned u pid σ₀) (hf : ∀ a, (∃ b, f a = .ret b) ∨ ∃ e, f a = .raise e ∧ ¬ e.rejects) :
    SafeTo pid (fun r σ => Cleaned u pid σ ∧ ∀ e, r = .error e → ¬ e.rejects)
      ((Prog.exec s).bind f) σ₀ := by
  have hexec : SafeTo pid (fun r σ => Cleaned u pid σ ∧ ∀ e, r = .error e → ¬ e.rejects)
      (Prog.exec s) σ₀ := by
    refine Safe.stmt fun σ hr _ => ⟨?_, fun c r σ' hx _ => ⟨?_, fun e he => ?_⟩⟩
    · rcases hs with rfl | rfl <;> trivial
    · rcases hs with rfl | rfl <;> cases exec_effect hx <;> exact h.rely hr
    · subst he
      obtain ⟨typeName, rfl⟩ : ∃ typeName, e = .raised typeName := by
        rcases hs with rfl | rfl <;> exact exec_error hx (fun h => nomatch h) fun _ h => nomatch h
      exact id
  refine Safe.andThen hexec (fun a σ hσ => ?_) fun e σ hσ => ⟨hσ.1, fun e' heq => ?_⟩
  · rcases hf a with ⟨b, hb⟩ | ⟨e, he, hrejects⟩
    · rw [hb]
      exact ⟨hσ.1, fun _ h => nomatch h⟩
    · rw [he]
      refine ⟨hσ.1, fun e' heq => ?_⟩
      cases heq
      exact hrejects
  · cases heq
    exact hσ.2 e rfl

theorem deleteDocument_safe (versionId : UUID) (actor : DocumentActor) (h : Idle pid σ₀) :
    SafeTo pid (Ends pid) (deleteDocument versionId actor) σ₀ := by
  unfold deleteDocument
  split
  · exact h.ends _
  · refine Safe.andThen (getVersion_safe versionId h) (fun current σ hσ => ?_) fun e σ hσ =>
      hσ.1.ends _
    obtain ⟨hidle, -, hn⟩ := hσ
    obtain ⟨hid, -⟩ := hn current rfl
    refine Safe.andThen (transition_safe current.lifecycleStatus (fun h => nomatch h)
      (fun h => nomatch h) hidle) (fun pending σ₁ hσ₁ => ?_)
      fun e σ₁ hσ₁ => fun _ => hσ₁.2
    refine Safe.andThen (addAudit_written _ hσ₁.2) (fun _ σ₂ hσ₂ => ?_) fun e σ₂ hσ₂ => fun _ =>
      hσ₂.changed
    have hcommit : SafeTo pid (fun r σ => match r with
        | .ok _ => Cleaned versionId pid σ
        | .error e => e.rejects → σ.changed pid = []) (Prog.exec Stmt.commit) σ₂ := by
      refine Safe.stmt fun σ₃ hr _ => ?_
      have hw := hσ₂.rely hr
      refine ⟨hw.publication, fun c r σ₄ hx _ => ?_⟩
      rcases commit_cases hx with ⟨rfl, -, rfl⟩ | ⟨rfl, -, rfl⟩ | ⟨typeName, rfl, -⟩
      · refine ⟨pending_commit_self, ?_⟩
        rw [changed_commit_self]
        exact List.mem_append_left _ hw.status
      · exact fun _ => hw.changed
      · exact False.elim
    refine Safe.andThen hcommit (fun _ σ₃ hσ₃ => ?_) fun e σ₃ hσ₃ => hσ₃
    refine Safe.andThen (cleaned_lookup (.inl rfl) hσ₃ fun code => ?_) (fun code σ₄ hσ₄ => ?_)
      fun e σ₄ hσ₄ => hσ₄.1.ends fun e' heq => by cases heq; exact hσ₄.2 e rfl
    · cases code with
      | none => exact .inr ⟨_, rfl, by rw [String.append_assoc]; exact not_rejects_project _⟩
      | some code => exact .inl ⟨code, rfl⟩
    refine Safe.andThen (cleaned_lookup (.inr rfl) hσ₄.1 fun spaces => ?_) (fun space σ₅ hσ₅ => ?_)
      fun e σ₅ hσ₅ => hσ₅.1.ends fun e' heq => by cases heq; exact hσ₅.2 e rfl
    · match spaces with
      | [] => exact .inr ⟨_, rfl, by rw [String.append_assoc]; exact not_rejects_project _⟩
      | [space] => exact .inl ⟨space, rfl⟩
      | _ :: _ :: _ => exact .inr ⟨_, rfl, id⟩
    have hdelete : SafeTo pid (fun r σ => Cleaned versionId pid σ ∧ ∀ e, r = .error e → ¬ e.rejects)
        (Prog.exec (Stmt.deleteDocument ⟨code, current.versionId.str, space⟩)) σ₅ := by
      refine Safe.stmt fun σ₆ hr _ => ?_
      have hcleaned := hσ₅.1.rely hr
      refine ⟨⟨versionId, by rw [hid], hcleaned.changed⟩, fun c r σ₇ hx _ => ⟨?_, fun e he => ?_⟩⟩
      · cases exec_effect hx
        exact hcleaned
      · subst he
        obtain ⟨typeName, rfl⟩ := exec_error hx (fun h => nomatch h) fun _ h => nomatch h
        exact id
    exact Safe.andThen hdelete (fun _ σ₆ hσ₆ => hσ₆.1.ends fun _ h => nomatch h)
      fun e σ₆ hσ₆ => hσ₆.1.ends fun e' heq => by cases heq; exact hσ₆.2 e rfl

/-! ## Sessions -/

theorem useCase_safe (request : Request) (h : Idle pid σ₀) :
    SafeTo pid (Ends pid) (useCase request) σ₀ := by
  cases request with
  | upload command => exact Ends.discard (uploadDocument_safe command h)
  | submitReview versionId actor => exact Ends.discard (submitDocumentReview_safe versionId actor h)
  | approve versionId actor => exact Ends.discard (approveDocument_safe versionId actor h)
  | publish versionId actor => exact answerPending_safe (publishDocument_safe versionId actor h)
  | finalize versionId ingestionJobId actor =>
    exact answerPending_safe (finalizeDocument_safe versionId ingestionJobId actor h)
  | delete versionId actor => exact Ends.discard (deleteDocument_safe versionId actor h)

theorem numberTaken_of_nil (h : versionIds (σ.pending pid) = []) : σ.numberTaken pid = false := by
  unfold Store.numberTaken
  rw [List.any_eq_false]
  intro w hw
  cases w with
  | version row =>
    have hmem : row.id ∈ versionIds (σ.pending pid) := mem_versionIds.mpr ⟨row, hw, rfl⟩
    rw [h] at hmem
    cases hmem
  | document | status | audit => simp

theorem serve_safe (request : Request) (h : Idle pid σ₀) :
    SafeTo pid (fun _ _ => True) (serve request) σ₀ := by
  have hbody : SafeTo pid (fun r σ => ∀ e, r = .error e → e.rejects → σ.changed pid = [])
      ((useCase request).bind fun _ => Prog.exec Stmt.commit) σ₀ := by
    refine Safe.andThen (useCase_safe request h) (fun _ σ hσ => ?_) fun e σ hσ e' heq => ?_
    · refine Safe.stmt fun σ₁ hr _ => ⟨?_, fun c r σ₂ hx _ e heq hrejects => ?_⟩
      · show Publication (σ₁.pending pid) σ₁.committed
        rw [hr.stays.pending]
        exact hσ.1.grow hr.grows
      · rcases commit_cases hx with ⟨rfl, -⟩ | ⟨rfl, htaken, rfl⟩ | ⟨typeName, rfl, -⟩
        · cases heq
        · rcases hσ.2 with hchanged | hnone
          · exact hr.changed.trans hchanged
          · rw [← hr.stays.pending] at hnone
            rw [numberTaken_of_nil hnone] at htaken
            cases htaken
        · cases heq
          exact hrejects.elim
    · cases heq
      exact hσ
  refine Safe.tryCatch (hbody.mono fun r σ hσ => ?_)
  cases r with
  | ok => trivial
  | error e =>
    refine Safe.bind (Safe.stmt fun σ₁ hr _ =>
      ⟨fun hrejects => hr.changed.trans (hσ e rfl hrejects), fun c r σ₂ _ _ => ?_⟩)
    cases r <;> trivial

theorem fits : spec.Fits machine (fun _ => True) fun _ _ _ => True where
  start request pid σ p σ' _ hi h := by
    cases h
    have hrollback := hi.rollback pid
    refine ⟨{ hrollback with }, fun q hq => ?_,
      serve_safe request ⟨?_, ?_, Function.update_self ..⟩⟩
    · exact ⟨Db.stays_rollback hq, Function.update_of_ne hq .., .refl _⟩
    · show statusIds ((σ.rollback pid).pending pid) = []
      rw [pending_rollback_self]
      rfl
    · show versionIds ((σ.rollback pid).pending pid) = []
      rw [pending_rollback_self]
      rfl
  exec pid s c σ r σ' hi hp _ hx :=
    ⟨(exec_effect hx).inv hi hp, fun _ hq => (exec_effect hx).rely hi hq⟩
  finish pid r σ hi := ⟨hi.rollback pid, fun _ hq => rollback_rely hq⟩
  kill pid σ hi := ⟨hi.rollback pid, fun _ hq => rollback_rely hq⟩
  env e σ σ' hi hx := outside_inv hi hx

theorem Initial.inv {w : DocumentWorld} (h : Initial w) : Inv w.shared := by
  have hids : w.shared.committed.ids = [] := by
    unfold Tables.ids
    rw [h.versions]
    rfl
  exact {
    guarded := fun pid write hw => by rw [h.pending] at hw; cases hw
    ids := by rw [hids]; exact .nil
    committedDrawn := fun id hid => by rw [hids] at hid; cases hid
    pendingDrawn := fun pid id hid => by rw [h.pending] at hid; cases hid
    fresh := fun pid id hid => by rw [h.pending] at hid; cases hid
    inserted := fun pid => by rw [h.pending]; exact .nil
    apart := fun pid q id hid => by rw [h.pending] at hid; cases hid
    drafts := fun pid row hrow => by rw [h.pending] at hrow; cases hrow
    complete := fun row hrow => by rw [h.versions] at hrow; cases hrow
    statuses := fun pid id seen target publishedAt hw => by rw [h.pending] at hw; cases hw
    once := fun pid => by rw [h.pending]; exact .nil
    notDeleted := fun pid id seen publishedAt hw => by rw [h.pending] at hw; cases hw }

/-- Every world a run reaches from an initial one is good. -/
theorem Initial.good {w : DocumentWorld} (h : Initial w) (as : List DocumentAction) :
    machine.Always (spec.Good machine) as w :=
  (Spec.Good.of_idle h.inv h.idle).all fits

end ProjectAgent.Documents
