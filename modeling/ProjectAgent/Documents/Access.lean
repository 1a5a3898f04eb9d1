/-
`DocumentAccessService`: which operations on documents a user may start, by the
role of the membership that is found, and the actor the use cases are given.
-/
import ProjectAgent.Documents.Services
import ProjectAgent.Issue.Authorization

namespace ProjectAgent.Documents

open Interleave
open Issue (active authorizeProject exists_pick pickFrom pickFrom_mem pickFrom_none respond)

inductive DocumentOperation where
  | UPLOAD | SUBMIT_REVIEW | APPROVE | PUBLISH | ARCHIVE
deriving DecidableEq

def DocumentOperation.value : DocumentOperation → String
  | UPLOAD => "upload_document"
  | SUBMIT_REVIEW => "submit_review"
  | APPROVE => "approve_document"
  | PUBLISH => "publish_document"
  | ARCHIVE => "archive_document"

/-- `_ROLE_DOCUMENT_PERMISSIONS`. -/
def roleDocumentPermissions : ProjectRole → List String
  | .PROJECT_MANAGER =>
    [DocumentOperation.UPLOAD.value, DocumentOperation.SUBMIT_REVIEW.value,
      DocumentOperation.APPROVE.value,
      DocumentOperation.PUBLISH.value, DocumentOperation.ARCHIVE.value]
  | .DEVELOPER | .QA | .IMPLEMENTATION | .SUPPORT =>
    [DocumentOperation.UPLOAD.value, DocumentOperation.SUBMIT_REVIEW.value]
  | .VIEWER => []

/-- `ProjectRole(value)`. -/
def roleOf (value : String) : Option ProjectRole :=
  [ProjectRole.PROJECT_MANAGER, .DEVELOPER, .QA, .IMPLEMENTATION, .SUPPORT,
    .VIEWER].find? (·.value = value)

theorem roleOf_value (role : ProjectRole) : roleOf role.value = some role := by
  cases role <;> decide

structure AuthorizedDocumentActor where
  context : Issue.AuthorizedProjectContext
  actor : DocumentActor

/-- The role of a context that has one. -/
def roleIn (roleIds : List String) : Issue.Session ProjectRole :=
  match roleIds with
  | [roleId] =>
    match roleOf roleId with
    | some role => pure role
    | none => throw (.authorizationDenied "unknown project role")
  | _ => throw (.authorizationDenied "exactly one project role is required")

def authorizeProjectOperation (userId projectId : UUID) (operation : DocumentOperation)
    (expectedCompanyId : Option UUID) :
    Issue.Session AuthorizedDocumentActor := do
  let context ← authorizeProject userId projectId
  if expectedCompanyId.any (context.companyId ≠ ·) then
    throw (.authorizationDenied "membership company does not match requested company")
  else
    let role ← roleIn context.roleIds
    if operation.value ∉ roleDocumentPermissions role then
      throw (.authorizationDenied (operation.value ++ " permission is required"))
    else pure ⟨context, userId, roleDocumentPermissions role⟩

/-- `authorize_version_operation`, of a version that has been found. -/
def authorizeVersionOperation (userId : UUID) (version : DocumentVersionRecord)
    (operation : DocumentOperation) :
    Issue.Session AuthorizedDocumentActor :=
  authorizeProjectOperation userId version.projectId operation (some version.companyId)

/-! ## Who is authorized -/

/-- The operation's answer, if the database returns the memberships in the order of `c`. -/
def accessed (pid : Nat) (c : Issue.Choice) (σ : Issue.Store) (userId projectId : UUID)
    (operation : DocumentOperation) (expectedCompanyId : Option UUID) :
    Except Exc AuthorizedDocumentActor :=
  (Prog.eval (respond pid c)
    (authorizeProjectOperation userId projectId operation expectedCompanyId) σ).1

def versionAccessed (pid : Nat) (c : Issue.Choice) (σ : Issue.Store) (userId : UUID)
    (version : DocumentVersionRecord) (operation : DocumentOperation) :
    Except Exc AuthorizedDocumentActor :=
  (Prog.eval (respond pid c) (authorizeVersionOperation userId version operation) σ).1

/-- The membership permits the operation, and is of the company that is expected. -/
def Permits (operation : DocumentOperation) (expectedCompanyId : Option UUID)
    (membership : Issue.MembershipAccessRecord) : Prop :=
  expectedCompanyId.all (membership.companyId = ·) = true ∧
    operation.value ∈ roleDocumentPermissions membership.role

variable {pid : Nat} {c : Issue.Choice} {σ : Issue.Store} {userId projectId : UUID}
  {operation : DocumentOperation}
  {expectedCompanyId : Option UUID} {membership : Issue.MembershipAccessRecord}
    {actor : DocumentActor}

theorem accessed_none (h : pickFrom c (active σ userId projectId) = none)
    (access : AuthorizedDocumentActor) :
    accessed pid c σ userId projectId operation expectedCompanyId ≠ .ok access := by
  obtain ⟨σ', hrun⟩ := Issue.authorizeProject_none pid h
  intro hok
  unfold accessed authorizeProjectOperation at hok
  rw [Prog.bind_eq, Prog.eval_bind_error hrun] at hok
  cases hok

theorem roleIn_eval (role : ProjectRole) (σ₁ : Issue.Store) :
    Prog.eval (respond pid c) (roleIn [role.value]) σ₁ = (.ok role, σ₁) := by
  unfold roleIn
  dsimp only
  rw [roleOf_value]
  rfl

theorem accessed_some (h : pickFrom c (active σ userId projectId) = some membership) :
    (∃ access, accessed pid c σ userId projectId operation expectedCompanyId = .ok access ∧
      access.actor = actor) ↔
      Permits operation expectedCompanyId membership ∧
        actor = ⟨userId, roleDocumentPermissions membership.role⟩ := by
  obtain ⟨context, σ', hrun, hroles, hcompany⟩ := Issue.authorizeProject_some pid h
  unfold accessed authorizeProjectOperation
  rw [Prog.bind_eq, Prog.eval_bind_ok hrun, hroles, hcompany]
  unfold Permits
  by_cases hother : expectedCompanyId.any (membership.companyId ≠ ·) = true
  · have hall : ¬ expectedCompanyId.all (membership.companyId = ·) = true := by
      cases expectedCompanyId with
      | none => cases hother
      | some company => simpa using hother
    rw [if_pos hother]
    refine ⟨?_, fun hpermits => absurd hpermits.1.1 hall⟩
    rintro ⟨access, hok, -⟩
    cases hok
  · have hall : expectedCompanyId.all (membership.companyId = ·) = true := by
      cases expectedCompanyId with
      | none => rfl
      | some company => simpa using hother
    rw [if_neg hother, Prog.bind_eq, Prog.eval_bind_ok (roleIn_eval membership.role σ')]
    by_cases hpermitted : operation.value ∈ roleDocumentPermissions membership.role
    · rw [if_neg (not_not.mpr hpermitted)]
      constructor
      · rintro ⟨access, hok, rfl⟩
        cases hok
        exact ⟨⟨hall, hpermitted⟩, rfl⟩
      · rintro ⟨-, rfl⟩
        exact ⟨_, rfl, rfl⟩
    · rw [if_pos hpermitted]
      refine ⟨?_, fun hpermits => absurd hpermits.1.2 hpermitted⟩
      rintro ⟨access, hok, -⟩
      cases hok

theorem accessed_ok_iff :
    (∃ access, accessed pid c σ userId projectId operation expectedCompanyId = .ok access ∧
      access.actor = actor) ↔
    ∃ membership, pickFrom c (active σ userId projectId) = some membership ∧
      Permits operation expectedCompanyId membership ∧
      actor = ⟨userId, roleDocumentPermissions membership.role⟩ := by
  cases hfound : pickFrom c (active σ userId projectId) with
  | none =>
    refine ⟨?_, ?_⟩
    · rintro ⟨access, hok, -⟩
      exact absurd hok (accessed_none hfound access)
    · rintro ⟨membership, hnone, -⟩
      cases hnone
  | some membership =>
    rw [accessed_some hfound]
    refine ⟨fun h => ⟨membership, rfl, h⟩, ?_⟩
    rintro ⟨other, hother, h⟩
    cases hother
    exact h

theorem versionAccessed_ok_iff {version : DocumentVersionRecord} :
    (∃ access, versionAccessed pid c σ userId version operation = .ok access) ↔
      ∃ membership, pickFrom c (active σ userId version.projectId) = some membership ∧
        membership.companyId = version.companyId ∧
          operation.value ∈ roleDocumentPermissions membership.role := by
  constructor
  · rintro ⟨access, hok⟩
    obtain ⟨membership, hpick, hpermits, -⟩ := accessed_ok_iff.mp ⟨access, hok, rfl⟩
    exact ⟨membership, hpick, of_decide_eq_true hpermits.1, hpermits.2⟩
  · rintro ⟨membership, hpick, hcompany, hpermitted⟩
    have hpermits : Permits operation (some version.companyId) membership :=
      ⟨decide_eq_true hcompany, hpermitted⟩
    obtain ⟨access, hok, -⟩ := accessed_ok_iff.mpr ⟨membership, hpick, hpermits, rfl⟩
    exact ⟨access, hok⟩

theorem manager_of_permits (h : Permits operation expectedCompanyId membership)
    (hmanaged : operation = .APPROVE ∨ operation = .PUBLISH ∨ operation = .ARCHIVE) :
    membership.role = .PROJECT_MANAGER := by
  have hpermitted := h.2
  revert hpermitted
  rcases hmanaged with rfl | rfl | rfl <;> cases membership.role <;> decide

/-- **Who may start an operation on a project's documents.** In every order the database may return
the memberships in, a user is authorized exactly if the membership that is found is of the expected
company and its role permits the operation, and the use case is given that role's permissions and no
others. So every order authorizes exactly if there is an active membership and all of them permit
it, and some order does exactly if one of them does; an operation on a version needs a membership in
the version's own project and company; who approves, publishes or archives is a project manager. -/
theorem document_access (pid : Nat) (σ : Issue.Store) (userId projectId : UUID)
    (operation : DocumentOperation) (expectedCompanyId : Option UUID) :
    (∀ c actor, (∃ access, accessed pid c σ userId projectId operation expectedCompanyId =
      .ok access ∧ access.actor = actor) ↔
      ∃ membership, pickFrom c (active σ userId projectId) = some membership ∧
        Permits operation expectedCompanyId membership ∧
          actor = ⟨userId, roleDocumentPermissions membership.role⟩) ∧
    ((∀ c, ∃ access, accessed pid c σ userId projectId operation expectedCompanyId = .ok access) ↔
      active σ userId projectId ≠ [] ∧ ∀ membership ∈ active σ userId projectId,
        Permits operation expectedCompanyId membership) ∧
    ((∃ c access, accessed pid c σ userId projectId operation expectedCompanyId = .ok access) ↔
      ∃ membership ∈ active σ userId projectId, Permits operation expectedCompanyId membership) ∧
    (∀ c version, (∃ access, versionAccessed pid c σ userId version operation = .ok access) ↔
      ∃ membership, pickFrom c (active σ userId version.projectId) = some membership ∧
        membership.companyId = version.companyId ∧
          operation.value ∈ roleDocumentPermissions membership.role) ∧
    (operation = .APPROVE ∨ operation = .PUBLISH ∨ operation = .ARCHIVE →
      ∀ membership, Permits operation expectedCompanyId membership →
        membership.role = .PROJECT_MANAGER) := by
  have hfound {c : Issue.Choice} {access : AuthorizedDocumentActor}
      (hok : accessed pid c σ userId projectId operation expectedCompanyId = .ok access) :
      ∃ membership, pickFrom c (active σ userId projectId) = some membership ∧
        Permits operation expectedCompanyId membership := by
    obtain ⟨membership, hpick, hpermits, -⟩ := accessed_ok_iff.mp ⟨access, hok, rfl⟩
    exact ⟨membership, hpick, hpermits⟩
  have hgiven {c : Issue.Choice} {membership : Issue.MembershipAccessRecord}
      (hpick : pickFrom c (active σ userId projectId) = some membership)
        (hpermits : Permits operation expectedCompanyId membership) :
      ∃ access, accessed pid c σ userId projectId operation expectedCompanyId = .ok access := by
    obtain ⟨access, hok, -⟩ := accessed_ok_iff.mpr ⟨membership, hpick, hpermits, rfl⟩
    exact ⟨access, hok⟩
  refine ⟨fun c actor => accessed_ok_iff,
    ⟨fun h => ⟨?_, fun membership hmem => ?_⟩, fun h c => ?_⟩, ⟨?_, ?_⟩,
    fun c version => versionAccessed_ok_iff, fun hmanaged membership hpermits =>
      manager_of_permits hpermits hmanaged⟩
  · intro hnone
    obtain ⟨access, hok⟩ := h ⟨none, userId, 0⟩
    obtain ⟨membership, hpick, -⟩ := hfound hok
    have hmem := pickFrom_mem hpick
    rw [hnone] at hmem
    cases hmem
  · obtain ⟨c, hc⟩ := exists_pick hmem
    obtain ⟨access, hok⟩ := h c
    obtain ⟨found, hpick, hpermits⟩ := hfound hok
    rw [hc] at hpick
    cases hpick
    exact hpermits
  · cases hpick : pickFrom c (active σ userId projectId) with
    | none => exact absurd (pickFrom_none hpick) h.1
    | some membership => exact hgiven hpick (h.2 membership (pickFrom_mem hpick))
  · rintro ⟨c, access, hok⟩
    obtain ⟨membership, hpick, hpermits⟩ := hfound hok
    exact ⟨membership, pickFrom_mem hpick, hpermits⟩
  · rintro ⟨membership, hmem, hpermits⟩
    obtain ⟨c, hc⟩ := exists_pick hmem
    obtain ⟨access, hok⟩ := hgiven hc hpermits
    exact ⟨c, access, hok⟩

end ProjectAgent.Documents
