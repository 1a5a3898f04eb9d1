/-
Authorization in a store that nobody writes: a user who has several active
memberships in a project is given the role of the one that the database returns
first, so that the roles are a function of the store exactly if all these
memberships have one role. Nothing else bounds them: the same user and project
may have memberships that overlap and differ in the time they begin.
-/
import ProjectAgent.Issue.Services
import ProjectAgent.Lib.Evaluated

namespace ProjectAgent.Issue

open Interleave

variable {pid : Nat} {c : Choice} {σ : Store} {userId projectId : UUID}
  {membership : MembershipAccessRecord}

/-! ## One run -/

/-- The answer to a statement that waits for nobody. -/
def respond (pid : Nat) (c : Choice) (s : Stmt) (σ : Store) : Except Exc s.Res × Store :=
  (perform pid c σ s).getD (.error .timeoutError, σ)

/-- `authorize_project`, if the database returns the rows in the order of `c`. -/
def authorized (pid : Nat) (c : Choice) (σ : Store) (userId projectId : UUID) :
    Except Exc AuthorizedProjectContext :=
  (Prog.eval (respond pid c) (authorizeProject userId projectId) σ).1

def authorizedRoles (pid : Nat) (c : Choice) (σ : Store) (userId projectId : UUID) :
    Except Exc (List String) :=
  (authorized pid c σ userId projectId).map (·.roleIds)

/-- `authorize_project`, then `assert_can_create` of its roles. -/
def authorizeWrite (userId projectId : UUID) : Session Unit := do
  let context ← authorizeProject userId projectId
  assertCanCreate context.roleIds

def mayWrite (pid : Nat) (c : Choice) (σ : Store) (userId projectId : UUID) : Except Exc Unit :=
  (Prog.eval (respond pid c) (authorizeWrite userId projectId) σ).1

/-- The memberships of the user in the project that are active now. -/
def active (σ : Store) (userId projectId : UUID) : List MembershipAccessRecord :=
  σ.directory.activeMemberships userId projectId σ.now

theorem findActiveMembership_eval (pid : Nat) (c : Choice) (σ : Store) (userId projectId : UUID)
    (t : Nat) :
    Prog.eval (respond pid c) (findActiveMembership userId projectId t) σ =
      (.ok (pickFrom c (σ.directory.activeMemberships userId projectId t)),
        σ.log pid (.membership userId projectId t
          (pickFrom c (σ.directory.activeMemberships userId projectId t)))) :=
  Prog.eval_exec _

variable (pid) in
theorem authorizeProject_none (h : pickFrom c (active σ userId projectId) = none) :
    ∃ σ', Prog.eval (respond pid c) (authorizeProject userId projectId) σ =
      (.error (.authorizationDenied "active project membership is required"), σ') := by
  have hclock : Prog.eval (respond pid c) clock σ = (.ok σ.now, σ) := Prog.eval_exec _
  have hfound := findActiveMembership_eval pid c σ userId projectId σ.now
  unfold active at h
  rw [h] at hfound
  refine ⟨_, (Prog.eval_bind_ok hclock).trans ((Prog.eval_bind_ok hfound).trans rfl)⟩

variable (pid) in
theorem authorizeProject_some (h : pickFrom c (active σ userId projectId) = some membership) :
    ∃ context σ', Prog.eval (respond pid c) (authorizeProject userId projectId) σ =
      (.ok context, σ') ∧
      context.roleIds = [membership.role.value] ∧ context.companyId = membership.companyId := by
  have hclock : Prog.eval (respond pid c) clock σ = (.ok σ.now, σ) := Prog.eval_exec _
  have hfound := findActiveMembership_eval pid c σ userId projectId σ.now
  unfold active at h
  rw [h] at hfound
  have hversions (σ₁ : Store) : Prog.eval (respond pid c)
    (listPublishedDocumentAccess projectId) σ₁ =
      (.ok (newestOfEach (σ₁.directory.publishedVersions projectId)), σ₁) :=
    (Prog.eval_bind_ok (Prog.eval_exec _)).trans rfl
  have hspaces (σ₁ : Store) : Prog.eval (respond pid c) (listActiveKnowledgeSpaceIds projectId) σ₁ =
      (.ok (σ₁.directory.activeKnowledgeSpaceIds projectId), σ₁) := Prog.eval_exec _
  refine ⟨_, _, (Prog.eval_bind_ok hclock).trans ((Prog.eval_bind_ok hfound).trans
    ((Prog.eval_bind_ok (hversions _)).trans ((Prog.eval_bind_ok (hspaces _)).trans rfl))), rfl,
      rfl⟩

theorem authorizedRoles_eq : authorizedRoles pid c σ userId projectId =
    match pickFrom c (active σ userId projectId) with
    | none => .error (.authorizationDenied "active project membership is required")
    | some membership => .ok [membership.role.value] := by
  unfold authorizedRoles authorized
  cases hfound : pickFrom c (active σ userId projectId) with
  | none =>
    obtain ⟨σ', hrun⟩ := authorizeProject_none pid hfound
    rw [hrun]
    rfl
  | some membership =>
    obtain ⟨context, σ', hrun, hroles, -⟩ := authorizeProject_some pid hfound
    rw [hrun]
    exact congrArg Except.ok hroles

theorem role_allowed_iff (role : ProjectRole) :
    (ALLOWED_ROLES.map ProjectRole.value).any ([role.value].contains ·) = true ↔
      role ∈ ALLOWED_ROLES := by
  cases role <;> decide

theorem mayWrite_ok (h : pickFrom c (active σ userId projectId) = some membership)
    (hrole : membership.role ∈ ALLOWED_ROLES) :
    mayWrite pid c σ userId projectId = .ok () := by
  obtain ⟨context, σ', hrun, hroles, -⟩ := authorizeProject_some pid h
  have hcheck : (Prog.eval (respond pid c) (assertCanCreate context.roleIds) σ').1 = .ok () := by
    unfold assertCanCreate
    rw [hroles, if_pos ((role_allowed_iff _).mpr hrole)]
    rfl
  have hbind := Prog.eval_bind_ok (f := fun context => assertCanCreate context.roleIds) hrun
  exact (congrArg Prod.fst hbind).trans hcheck

/-! ## Every order -/

/-- All the memberships have one role. -/
def OneRole (σ : Store) (userId projectId : UUID) : Prop :=
  ∀ membership ∈ active σ userId projectId, ∀ other ∈ active σ userId projectId,
    membership.role = other.role

theorem value_injective {role other : ProjectRole} (h : role.value = other.value) :
    role = other := by
  revert h
  cases role <;> cases other <;> decide

/-- Every membership is the first in some order. -/
theorem exists_pick (h : membership ∈ active σ userId projectId) :
    ∃ c, pickFrom c (active σ userId projectId) = some membership := by
  obtain ⟨i, hi, hget⟩ := List.mem_iff_getElem.mp h
  refine ⟨⟨none, userId, i⟩, ?_⟩
  unfold pickFrom
  rw [Nat.mod_eq_of_lt hi, List.getElem?_eq_getElem hi, hget]

/-- **The roles and the right to write are a function of the store exactly if all the memberships
have one role.** -/
theorem authorization_function_iff (pid : Nat) (σ : Store) (userId projectId : UUID) :
    ((∀ c c', authorizedRoles pid c σ userId projectId =
      authorizedRoles pid c' σ userId projectId) ∧
      ((∃ membership ∈ active σ userId projectId, membership.role ∈ ALLOWED_ROLES) →
        ∀ c, mayWrite pid c σ userId projectId = .ok ())) ↔
      OneRole σ userId projectId := by
  constructor
  · rintro ⟨hroles, -⟩ membership hmembership other hother
    obtain ⟨c, hc⟩ := exists_pick hmembership
    obtain ⟨c', hc'⟩ := exists_pick hother
    have hsame := hroles c c'
    rw [authorizedRoles_eq, authorizedRoles_eq, hc, hc'] at hsame
    exact value_injective (List.cons.inj (Except.ok.inj hsame)).1
  · intro hone
    constructor
    · intro c c'
      rw [authorizedRoles_eq, authorizedRoles_eq]
      cases hc : pickFrom c (active σ userId projectId) with
      | none =>
        rw [pickFrom_none hc]
        rfl
      | some membership =>
        cases hc' : pickFrom c' (active σ userId projectId) with
        | none => exact absurd (pickFrom_none hc' ▸ pickFrom_mem hc) List.not_mem_nil
        | some other =>
          have hsame := hone membership (pickFrom_mem hc) other (pickFrom_mem hc')
          exact congrArg (fun role => Except.ok [ProjectRole.value role]) hsame
    · rintro ⟨allowed, hallowed, hrole⟩ c
      cases hc : pickFrom c (active σ userId projectId) with
      | none => exact absurd (pickFrom_none hc ▸ hallowed) List.not_mem_nil
      | some membership =>
        refine mayWrite_ok hc ?_
        rw [hone membership (pickFrom_mem hc) allowed hallowed]
        exact hrole

/-- A developer who has been a viewer of the project since before. -/
def overlapping : Store where
  drafts _ := none
  loaded _ _ := none
  rowLocks := []
  statusWrites := []
  confirmations := ⟨[], []⟩
  issues := ⟨[], []⟩
  idempotency _ := none
  directory :=
    { memberships := [⟨.ofNat 4, .ofNat 3, .VIEWER, 0, none⟩, ⟨.ofNat 4, .ofNat 3, .DEVELOPER, 1, none⟩]
      projects := [⟨.ofNat 3, .ofNat 5, .ofNat 6, "ALPHA", .ACTIVE⟩]
      sandboxProjects := []
      publishedVersions := fun _ => []
      activeKnowledgeSpaceIds := fun _ => []
      candidateLinks := fun _ => [] }
  jobs := []
  now := 2
  opened := 0
  ops _ := none
  trace := []

/-- One order gives the developer, who may write, and the other the viewer, who may not. -/
theorem overlapping_denied :
    authorizedRoles 0 ⟨none, .ofNat 0, 0⟩ overlapping (.ofNat 4) (.ofNat 3) = .ok ["viewer"] ∧
      authorizedRoles 0 ⟨none, .ofNat 0, 1⟩ overlapping (.ofNat 4) (.ofNat 3) = .ok ["developer"] ∧
      mayWrite 0 ⟨none, .ofNat 0, 0⟩ overlapping (.ofNat 4) (.ofNat 3) =
        .error (.issueCreationDenied "current project role cannot create issues") := by
  exact ⟨rfl, rfl, rfl⟩

end ProjectAgent.Issue
