/-
Programs that issue no statement of some kind, whatever they are answered: a
lemma for each program, in terms of the few statements such a kind may be
about. An operation on one draft issues none that is about another.
-/
import ProjectAgent.Issue.Steps

namespace ProjectAgent.Issue

open Interleave

variable {bad : Stmt → Prop} {α β : Type}

/-- What a kind of statements may be about. -/
def Stmt.Guarded : Stmt → Prop
  | .enter _ | .setDraftStatus _ _ | .insertIdempotency _ _ _ | .mark (.createIssue _) => True
  | _ => False

/-- The answers a statement can give: a draft that is read has the id it is read by. -/
def Gives : (s : Stmt) → Except Exc s.Res → Prop
  | .getDraft id, r => ∀ draft, r = .ok (some draft) → draft.id = id
  | _, _ => True

def Avoids (bad : Stmt → Prop) : Session α → Prop
  | .ret _ => True
  | .raise _ => True
  | .stmt s k => ¬ bad s ∧ ∀ r, Gives s r → Avoids bad (k r)

def Call.draftId : Call → UUID
  | .recordDecision draftId _ _ _ | .execute draftId _ _ | .reconcile draftId => draftId

/-- The kind leaves the draft alone. -/
structure Spares (bad : Stmt → Prop) (id : UUID) : Prop where
  setDraftStatus : ∀ status, ¬ bad (.setDraftStatus id status)
  insertIdempotency : ∀ ns projectId, ¬ bad (.insertIdempotency ns id projectId)
  createIssue : ∀ request, request.requestId = id → ¬ bad (.mark (.createIssue request))

namespace Avoids

theorem exec {s : Stmt} (h : ¬ bad s) : Avoids bad (Prog.exec s : Session s.Res) :=
  ⟨h, fun r _ => by cases r <;> trivial⟩

theorem bind {x : Session α} {f : α → Session β} (hx : Avoids bad x) (hf : ∀ a, Avoids bad (f a)) :
    Avoids bad (x.bind f) := by
  induction x with
  | ret a => exact hf a
  | raise e => trivial
  | stmt s k ih => exact ⟨hx.1, fun r hr => ih r (hx.2 r hr)⟩

theorem tryCatch {x : Session α} {f : Exc → Session α} (hx : Avoids bad x)
    (hf : ∀ e, Avoids bad (f e)) :
    Avoids bad (x.tryCatch f) := by
  induction x with
  | ret a => trivial
  | raise e => exact hf e
  | stmt s k ih => exact ⟨hx.1, fun r hr => ih r (hx.2 r hr)⟩

theorem each {f : β → Session Unit} {bs : List β} (hf : ∀ b ∈ bs, Avoids bad (f b)) :
    Avoids bad (Prog.each f bs) := by
  induction bs with
  | nil => trivial
  | cons b bs ih => exact bind (hf b (by simp)) fun _ => ih fun b' hb => hf b' (by simp [hb])

end Avoids

theorem setDraftStatus_avoids {id : UUID} {status : IssueDraftStatus}
    (h : ¬ bad (.setDraftStatus id status)) :
    Avoids bad (setDraftStatus id status) :=
  Avoids.bind (Avoids.exec h) fun draft? => by cases draft? <;> trivial

theorem outcomeFromRecord_avoids (response : Option IdempotencyResponse) (draftId requestId : UUID)
    (status : IssueCreationStatus) :
    Avoids bad (outcomeFromRecord response draftId requestId status) := by
  cases response <;> trivial

section
variable (hb : ∀ s, bad s → s.Guarded)
include hb

theorem getDraft_avoids {id : UUID} {f : IssueDraft → Session β}
    (hf : ∀ draft : IssueDraft, draft.id = id → Avoids bad (f draft)) :
    Avoids bad ((getDraft id).bind f) := by
  refine ⟨hb _, fun r hr => ?_⟩
  match r, hr with
  | .error _, _ => trivial
  | .ok none, _ => trivial
  | .ok (some draft), hr => exact hf draft (hr draft rfl)

theorem saveConfirmation_avoids (receipt : ToolConfirmationReceipt) :
    Avoids bad (saveConfirmation receipt) := by
  refine Avoids.bind (Avoids.exec (hb _)) fun existing => ?_
  cases existing with
  | some existing => trivial
  | none => exact Avoids.bind (Avoids.exec (hb _)) fun _ => trivial

theorem getConfirmation_avoids (confirmationId : UUID) :
    Avoids bad (getConfirmation confirmationId) :=
  Avoids.bind (Avoids.exec (hb _)) fun receipt? => by cases receipt? <;> trivial

theorem authorizeProject_avoids (userId projectId : UUID) :
    Avoids bad (authorizeProject userId projectId) := by
  refine Avoids.bind (Avoids.exec (hb _)) fun now =>
    Avoids.bind (Avoids.exec (hb _)) fun membership => ?_
  cases membership with
  | none => trivial
  | some membership =>
    refine Avoids.bind (Avoids.bind (Avoids.exec (hb _)) fun _ => trivial) fun documents => ?_
    exact Avoids.bind (Avoids.exec (hb _)) fun _ => trivial

theorem assertCanCreate_avoids (roleIds : List String) : Avoids bad (assertCanCreate roleIds) := by
  unfold assertCanCreate
  split
  · exact Avoids.exec (hb _)
  · trivial

theorem getIssueByRequestId_avoids (projectId requestId : UUID) :
    Avoids bad (getIssueByRequestId projectId requestId) :=
  Avoids.bind (Avoids.exec (hb _)) fun _ => trivial

theorem createIssue_avoids {request : CreateIssueRequest}
    (h : ¬ bad (.mark (.createIssue request))) :
    Avoids bad (createIssue request) := by
  refine Avoids.bind (Avoids.exec h) fun _ => Avoids.bind (getIssueByRequestId_avoids hb _ _)
    fun existing => ?_
  cases existing with
  | some existing => trivial
  | none =>
    refine Avoids.bind (Avoids.exec (hb _)) fun projects => Avoids.bind ?_ fun project? => ?_
    · unfold oneOrNone
      split <;> trivial
    · cases project? with
      | none => trivial
      | some project =>
        refine Avoids.bind (Avoids.exec (hb _)) fun modelId =>
          Avoids.bind (Avoids.exec (hb _)) fun inserted => ?_
        cases inserted with
        | some inserted => trivial
        | none =>
          exact Avoids.bind (getIssueByRequestId_avoids hb _ _) fun existing => by
            cases existing <;> trivial

theorem reserve_avoids {ns : String} {requestId projectId : UUID}
    (h : ¬ bad (.insertIdempotency ns requestId projectId)) :
    Avoids bad (reserve ns requestId projectId) := by
  refine Avoids.bind (Avoids.exec h) fun created =>
    Avoids.bind (Avoids.exec (hb _)) fun record => ?_
  cases record with
  | none => trivial
  | some record =>
    dsimp only
    split_ifs <;> trivial

theorem completeRecord_avoids (ns : String) (requestId : UUID) (resourceType resourceId : String)
    (response : IdempotencyResponse) :
    Avoids bad (completeRecord ns requestId resourceType resourceId response) :=
  Avoids.bind (Avoids.exec (hb _)) fun record => by cases record <;> trivial

theorem complete_avoids {draftId : UUID} (h : ¬ bad (.setDraftStatus draftId .CREATED))
    (requestId : UUID) (created : CreatedIssue) (status : IssueCreationStatus) :
    Avoids bad (complete draftId requestId created status) :=
  Avoids.bind (completeRecord_avoids hb ..) fun _ =>
    Avoids.bind (setDraftStatus_avoids h) fun _ => trivial

theorem pendingReconciliation_avoids (draftId requestId : UUID) :
    Avoids bad (pendingReconciliation draftId requestId) := by
  refine Avoids.bind ?_ fun _ => trivial
  unfold enqueueReconciliation enqueue
  split
  · trivial
  · exact Avoids.exec (hb _)

variable (deps : Deps)

theorem acceptConfirmation_avoids (draft : IssueDraft) (confirmationId actorId : UUID) :
    Avoids bad (acceptConfirmation deps draft confirmationId actorId) := by
  refine Avoids.bind (Avoids.tryCatch (getConfirmation_avoids hb _) fun e => ?_) fun receipt => ?_
  · split <;> trivial
  · split_ifs
    · trivial
    · trivial
    · trivial
    · trivial
    · exact Avoids.bind (Avoids.exec (hb _)) fun _ => trivial

/-- Only a new reservation lets `execute` call `create_issue`. -/
theorem afterReserve_avoids {draft : IssueDraft} {request : CreateIssueRequest} {created : Bool}
    (hd : ¬ bad (.setDraftStatus draft.id .CREATED))
    (hc : created = true → ¬ bad (.mark (.createIssue request))) :
    Avoids bad (afterReserve draft request created) := by
  refine Avoids.bind (getIssueByRequestId_avoids hb _ _) fun existing => ?_
  cases existing with
  | some existing => exact complete_avoids hb hd ..
  | none =>
    dsimp only
    split_ifs with hnew
    · refine Avoids.bind (Avoids.tryCatch (Avoids.bind (createIssue_avoids hb (hc hnew))
        fun _ => trivial)
        fun e => ?_) fun created => ?_
      · split <;> trivial
      · cases created with
        | none => exact pendingReconciliation_avoids hb ..
        | some created => exact complete_avoids hb hd ..
    · exact pendingReconciliation_avoids hb ..

theorem execute_avoids {draftId : UUID} (hs : Spares bad draftId) (confirmationId actorId : UUID) :
    Avoids bad (execute deps draftId confirmationId actorId) := by
  refine getDraft_avoids hb fun draft hdraft => ?_
  subst hdraft
  refine Avoids.bind (acceptConfirmation_avoids hb deps ..) fun receipt => ?_
  refine Avoids.bind (authorizeProject_avoids hb _ _) fun context =>
    Avoids.bind (Avoids.exec (hb _)) fun _ => ?_
  refine Avoids.bind (assertCanCreate_avoids hb _) fun _ =>
    Avoids.bind (Avoids.exec (hb _)) fun existing => ?_
  split
  · exact outcomeFromRecord_avoids ..
  · refine Avoids.bind (Avoids.exec (hb _)) fun now => ?_
    split_ifs
    · trivial
    · refine Avoids.bind (reserve_avoids hb (hs.insertIdempotency _ _)) fun ⟨record, created⟩ => ?_
      dsimp only
      split_ifs
      · exact outcomeFromRecord_avoids ..
      · exact afterReserve_avoids hb (hs.setDraftStatus _) fun _ => hs.createIssue _ rfl

theorem reconcile_avoids {draftId : UUID} (hs : Spares bad draftId) :
    Avoids bad (reconcile deps draftId) := by
  refine getDraft_avoids hb fun draft hdraft => ?_
  subst hdraft
  refine Avoids.bind (Avoids.exec (hb _)) fun record => ?_
  cases record with
  | none => trivial
  | some record =>
    dsimp only
    split_ifs
    · exact outcomeFromRecord_avoids ..
    · refine Avoids.bind (getIssueByRequestId_avoids hb _ _) fun existing => ?_
      cases existing with
      | some existing => exact complete_avoids hb (hs.setDraftStatus _) ..
      | none =>
        exact Avoids.bind (createIssue_avoids hb (hs.createIssue _ rfl)) fun _ =>
          complete_avoids hb (hs.setDraftStatus _) ..

theorem recordDecision_avoids {draftId : UUID} {action : ConfirmationAction}
    (h : ¬ bad (.setDraftStatus draftId (draftStatus (decisionStatus action)))) (actorId : UUID)
    (hash : String) :
    Avoids bad (recordDecision deps draftId actorId action hash) := by
  refine Avoids.bind (getDraft_avoids hb fun draft _ =>
    Avoids.bind (Avoids.exec (hb _)) fun _ => trivial)
    fun prepared => Avoids.bind (Avoids.exec (hb _)) fun now => ?_
  split_ifs
  · trivial
  · trivial
  · refine getDraft_avoids hb fun draft _ => Avoids.bind (Avoids.exec (hb _)) fun receiptId => ?_
    exact Avoids.bind (saveConfirmation_avoids hb _) fun _ =>
      Avoids.bind (setDraftStatus_avoids h) fun _ => trivial

theorem runDecision_avoids {draftId actorId : UUID} {action : ConfirmationAction} {hash : String}
    (h : ¬ bad (.setDraftStatus draftId (draftStatus (decisionStatus action))))
    (he : ¬ bad (.enter (.recordDecision draftId actorId action hash))) :
    Avoids bad (runCall deps (.recordDecision draftId actorId action hash)) := by
  refine Avoids.bind (Avoids.exec he) fun _ => ?_
  refine Avoids.tryCatch (Avoids.bind (recordDecision_avoids hb deps h ..) fun _ => trivial)
    fun e => ?_
  split <;> trivial

theorem runCall_avoids {call : Call} (hs : Spares bad call.draftId) (he : ¬ bad (.enter call)) :
    Avoids bad (runCall deps call) := by
  cases call with
  | recordDecision draftId actorId action hash =>
    exact runDecision_avoids hb deps (hs.setDraftStatus _) he
  | execute draftId confirmationId actorId =>
    refine Avoids.bind (Avoids.exec he) fun _ => ?_
    refine Avoids.tryCatch (Avoids.bind (execute_avoids hb deps hs ..) fun _ => Avoids.exec (hb _))
      fun e => ?_
    split <;> trivial
  | reconcile draftId =>
    refine Avoids.bind (Avoids.exec he) fun _ => ?_
    exact Avoids.bind (reconcile_avoids hb deps hs) fun _ => Avoids.exec (hb _)

end

end ProjectAgent.Issue
