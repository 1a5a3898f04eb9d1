/-
`ProjectAccessPolicy`: what a retrieval may ask for, and what of its answer is
kept. A set of strings that is sorted is a list of them without repetitions.
-/
import ProjectAgent.Evidence.Domain
import Mathlib.Data.List.Sort

namespace ProjectAgent.Evidence

structure ProjectAccessScope where
  companyId : UUID
  userId : UUID
  allowedClientIds : List UUID
  allowedProjectIds : List UUID
  allowedDocumentVersionIds : Option (List UUID)
  allowedDocumentCategories : List String
  roleIds : List String
  maxSecurityLevel : Int
  policyVersion : String
deriving DecidableEq

structure AuthorizedProjectContext where
  scope : ProjectAccessScope
  projectCode : String
  knowledgeSpaceIds : List String
deriving DecidableEq

structure KnowledgeRetrievalRequest where
  projectId : String
  query : String
  limit : Int
  documentVersionIds : List String
  knowledgeSpaceIds : List String
deriving DecidableEq

structure AuthorizationDenied where
  text : String
deriving DecidableEq

def sortedSet (values : List String) : List String := values.eraseDups.insertionSort (· ≤ ·)

/-- `allowed_versions`. -/
def AuthorizedProjectContext.versions (context : AuthorizedProjectContext) : List String :=
  (context.scope.allowedDocumentVersionIds.getD []).map (·.str)

/-- What is requested of what is allowed; all of it, if nothing is requested. -/
def narrowed (allowed requested : List String) : List String :=
  if requested.isEmpty then sortedSet allowed else sortedSet (allowed.filter (· ∈ requested))

def constrainRetrieval (request : KnowledgeRetrievalRequest) (context : AuthorizedProjectContext) :
    Except AuthorizationDenied (Option KnowledgeRetrievalRequest) :=
  if request.projectId ≠ context.projectCode then
    .error ⟨"retrieval project does not match authorized project"⟩
  else if context.versions.isEmpty || context.knowledgeSpaceIds.isEmpty then .ok none
  else
    let versions := narrowed context.versions request.documentVersionIds
    let spaces := narrowed context.knowledgeSpaceIds request.knowledgeSpaceIds
    if versions.isEmpty || spaces.isEmpty then .ok none
    else .ok (some ⟨context.projectCode, request.query, request.limit, versions, spaces⟩)

def postfilterEvidence (chunks : List KnowledgeChunk) (context : AuthorizedProjectContext) :
    List KnowledgeChunk :=
  if context.versions.isEmpty || context.knowledgeSpaceIds.isEmpty then []
  else chunks.filter fun chunk => chunk.projectId == context.projectCode &&
    context.versions.contains chunk.documentVersionId &&
    chunk.knowledgeSpaceId.any context.knowledgeSpaceIds.contains

/-- **What is kept is of the project, of an allowed version and of an allowed space.** -/
theorem mem_postfilter {chunks : List KnowledgeChunk} {context : AuthorizedProjectContext}
    {chunk : KnowledgeChunk} (h : chunk ∈ postfilterEvidence chunks context) :
    chunk ∈ chunks ∧ chunk.projectId = context.projectCode ∧
      (∃ versions, context.scope.allowedDocumentVersionIds = some versions ∧
        ∃ versionId ∈ versions, chunk.documentVersionId = versionId.str) ∧
      ∃ space ∈ context.knowledgeSpaceIds, chunk.knowledgeSpaceId = some space := by
  unfold postfilterEvidence at h
  split at h
  · cases h
  · obtain ⟨hmem, hkept⟩ := List.mem_filter.mp h
    simp only [Bool.and_eq_true, beq_iff_eq, List.contains_iff_mem] at hkept
    obtain ⟨⟨hcode, hversion⟩, hspace⟩ := hkept
    refine ⟨hmem, hcode, ?_, ?_⟩
    · unfold AuthorizedProjectContext.versions at hversion
      obtain ⟨versionId, hin, heq⟩ := List.mem_map.mp hversion
      cases hallowed : context.scope.allowedDocumentVersionIds with
      | none =>
        rw [hallowed] at hin
        cases hin
      | some versions =>
        rw [hallowed] at hin
        exact ⟨versions, rfl, versionId, hin, heq.symm⟩
    · cases hspaceId : chunk.knowledgeSpaceId with
      | none =>
        rw [hspaceId] at hspace
        cases hspace
      | some space =>
        rw [hspaceId] at hspace
        exact ⟨space, List.contains_iff_mem.mp hspace, rfl⟩

end ProjectAgent.Evidence
