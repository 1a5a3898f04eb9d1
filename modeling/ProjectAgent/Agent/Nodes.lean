/-
The nodes of the question answering graph. A node returns the state with what
it writes already written over what was there.
-/
import ProjectAgent.Agent.Prompts
import ProjectAgent.Evidence.Bundles
import ProjectAgent.Evidence.Current

namespace ProjectAgent.Agent

open Evidence (AuthorizedProjectContext DocumentEvidenceMetadata FrozenEvidenceBundle
  GovernedEvidencePack
  GroundedAnswerDraft KnowledgeChunk KnowledgeRetrievalRequest Score StoreError)
open Identifiers (IdentifierResolution QueryAnalysis QueryExactIdentifier lookedUp resolution
  sortedIds uniqueVersions)
open Interleave

/-- What the graph is built with. -/
structure Deps where
  modelAlias : String
  allowSecondRound : Bool
  maxEvidence : Nat
  /-- `IdentifierExtractor.extract`, of a stripped query. -/
  extract : String → List QueryExactIdentifier
  reprScore : Score → String

/-! ## The query -/

def loadPromptSnapshotNode (deps : Deps) (state : AgentState) : Node AgentState := do
  let runId ← required "run_id" state.runId
  let snapshot ← call (.getSnapshot "prompt.qa.answer")
  let artifactId ← call (.recordPromptSnapshot runId deps.modelAlias snapshot)
  pure { state with promptSnapshotId := some artifactId }

/-- `QueryAnalysisService.analyze`. -/
def analyze (deps : Deps) (query : String) : Node QueryAnalysis :=
  if strip query = "" then throw (.valueError "query cannot be blank")
  else pure ⟨query, strip query, deps.extract (strip query)⟩

def analyzeQueryNode (deps : Deps) (state : AgentState) : Node AgentState := do
  let runId ← required "run_id" state.runId
  let query ← call (.loadQuery runId)
  let analysis ← analyze deps query
  let artifactId ← call (.saveArtifact runId (.queryAnalysis analysis))
  pure { state with queryAnalysisId := some artifactId, route := some "project_knowledge_qa" }

/-! ## The project -/

/-- `ProjectSelectionService.select`; of two memberships with one key the later is found. -/
def selectProject (memberships : List ProjectMembership) (analysis : QueryAnalysis)
    (requested : Option UUID) :
    ProjectSelection :=
  let codes := Evidence.sortedSet (memberships.map (·.projectCode))
  let queryCodes := analysis.projectCodes.eraseDups
  match requested with
  | some projectId =>
    match memberships.reverse.find? (·.projectId == projectId) with
    | none => ⟨none, codes, "refusal", some "PROJECT_ACCESS_DENIED"⟩
    | some membership =>
      if queryCodes ≠ [] ∧ queryCodes ≠ [membership.projectCode] then
        ⟨none, codes, "clarification", some "PROJECT_MISMATCH"⟩
      else ⟨some projectId, codes, "project_knowledge_qa", none⟩
  | none =>
    match queryCodes with
    | _ :: _ :: _ => ⟨none, codes, "clarification", some "AMBIGUOUS_PROJECT"⟩
    | [code] =>
      match memberships.reverse.find? (·.projectCode == code) with
      | none => ⟨none, codes, "refusal", some "PROJECT_ACCESS_DENIED"⟩
      | some membership => ⟨some membership.projectId, codes, "project_knowledge_qa", none⟩
    | [] =>
      match memberships with
      | [membership] => ⟨some membership.projectId, codes, "project_knowledge_qa", none⟩
      | _ :: _ :: _ => ⟨none, codes, "clarification", some "PROJECT_REQUIRED"⟩
      | [] => ⟨none, [], "refusal", some "NO_AUTHORIZED_PROJECT"⟩

def selectProjectNode (state : AgentState) : Node AgentState := do
  let runId ← required "run_id" state.runId
  let analysis ← loadAs "QueryAnalysis" (·.queryAnalysis?)
    (← required "query_analysis_id" state.queryAnalysisId)
  let userId ← required "user_id" state.userId
  let memberships ← call (.listAuthorizedProjects userId)
  let selection := selectProject memberships analysis state.projectId
  let artifactId ← call (.saveArtifact runId (.projectSelection selection))
  pure { state with
    projectId := selection.selectedProjectId
    projectSelectionId := some artifactId
    route := some selection.route
    lastErrorCode := selection.errorCode }

def resolveScopeNode (state : AgentState) : Node AgentState := do
  match state.projectId with
  | none => throw (.valueError "project_id is required before scope resolution")
  | some projectId =>
    let runId ← required "run_id" state.runId
    let userId ← required "user_id" state.userId
    let context ← call (.authorizeIdentity userId projectId)
    let artifactId ← call (.saveArtifact runId (.projectAccessScope context))
    pure { state with accessScopeId := some artifactId }

/-! ## Identifiers -/

/-- The loop of `ExactIdentifierResolver.resolve`. -/
def resolveExact (projectId : UUID) (allowed : List UUID) :
    List QueryExactIdentifier → Node (List IdentifierResolution)
  | [] => pure []
  | identifier :: rest => do
    let hits ← call (.findExact projectId identifier.identifierType identifier.normalizedValue)
    let resolutions ← resolveExact projectId allowed rest
    pure (resolution identifier hits allowed :: resolutions)

def resolveIdentifiersNode (deps : Deps) (state : AgentState) : Node AgentState := do
  let runId ← required "run_id" state.runId
  let analysis ← loadAs "QueryAnalysis" (·.queryAnalysis?)
    (← required "query_analysis_id" state.queryAnalysisId)
  let context ← loadAs "AuthorizedProjectContext" (·.projectAccessScope?)
    (← required "access_scope_id" state.accessScopeId)
  let projectId ← required "project_id" state.projectId
  let resolutions ←
    resolveExact projectId (context.scope.allowedDocumentVersionIds.getD [])
      (lookedUp analysis.exactIdentifiers)
  let artifactId ← call (.saveArtifact runId (.retrievalPlan {
    originalQuery := analysis.originalQuery
    standaloneQuery := analysis.standaloneQuery
    exactIdentifiers := analysis.exactIdentifiers.map (·.rawValue)
    identifierResolutions := resolutions
    constrainedDocumentVersionIds := sortedIds (uniqueVersions resolutions)
    constrainedProviderDocumentIds := []
    allowedCategories := context.scope.allowedDocumentCategories
    allowSecondRound := deps.allowSecondRound }))
  pure { state with retrievalPlanId := some artifactId }

/-! ## Retrieval -/

def retrieveNode (state : AgentState) : Node AgentState := do
  let runId ← required "run_id" state.runId
  if 2 ≤ state.rounds then pure { state with
    route := some "refusal", lastErrorCode := some "RETRIEVAL_ROUND_LIMIT" }
  else
    let context ← loadAs "AuthorizedProjectContext" (·.projectAccessScope?)
      (← required "access_scope_id" state.accessScopeId)
    let plan ← loadAs "RetrievalPlan" (·.retrievalPlan?)
      (← required "retrieval_plan_id" state.retrievalPlanId)
    let request : KnowledgeRetrievalRequest :=
      ⟨context.projectCode, plan.standaloneQuery, 10,
        plan.constrainedDocumentVersionIds.map (·.str), []⟩
    match Evidence.constrainRetrieval request context with
    | .error denied => throw (.authorizationDenied denied.text)
    | .ok none =>
      let projectId ← required "project_id" state.projectId
      let bundleId ← call (.saveEvidenceBundle runId projectId plan.originalQuery []
        (state.rounds + 1))
      pure { state with
        evidenceBundleId := some bundleId
        route := some "refusal"
        lastErrorCode := some "NO_AUTHORIZED_EVIDENCE" }
    | .ok (some constrained) =>
      call (.incrementRetrievalRounds runId)
      let chunks := Evidence.postfilterEvidence (← call (.retrieve constrained)) context
      let projectId ← required "project_id" state.projectId
      let bundleId ← call (.saveEvidenceBundle runId projectId plan.originalQuery chunks
        (state.rounds + 1))
      pure { state with
        evidenceBundleId := some bundleId
        retrievalRound := some (state.rounds + 1)
        route := some "grade_retrieval"
        lastErrorCode := none }

/-- `project_id or ""`, in a request's metadata. -/
def projectText (projectId : Option UUID) : String := (projectId.map (·.str)).getD ""

def gradeRetrievalNode (deps : Deps) (state : AgentState) : Node AgentState := do
  let runId ← required "run_id" state.runId
  let plan ← loadAs "RetrievalPlan" (·.retrievalPlan?)
    (← required "retrieval_plan_id" state.retrievalPlanId)
  let chunks ← call (.loadEvidenceBundle (← required "evidence_bundle_id" state.evidenceBundleId))
  let query ← call (.loadQuery runId)
  let requestId := runId.str ++ ":qa-retrieval-grade:" ++ toString state.rounds
  let grade ← call (.gradeRetrieval {
    requestId := requestId
    modelAlias := deps.modelAlias
    systemPrompt := GRADING_SYSTEM_PROMPT
    userPrompt := buildGradingPrompt deps.reprScore query plan chunks
    runId := runId.str
    projectId := projectText state.projectId })
  let usage ← call (.getUsage requestId)
  call (.recordLlmUsage runId usage)
  let gradeId ← call (.saveArtifact runId (.retrievalGrade grade))
  let state := { state with retrievalGradeId := some gradeId }
  if grade.adequate then pure { state with route := some "govern_evidence", lastErrorCode := none }
  else
    match grade.refinedQuery with
    | some refinedQuery =>
      if grade.secondRoundJustified ∧ state.rounds < 2 ∧ plan.allowSecondRound then
        let planId ← call (.saveArtifact runId (.retrievalPlan { plan with
          standaloneQuery := strip refinedQuery }))
        pure { state with
          retrievalPlanId := some planId, route := some "retrieve_again", lastErrorCode := none }
      else pure { state with
        route := some "refusal", lastErrorCode := some "INSUFFICIENT_EVIDENCE" }
    | none =>
      pure { state with route := some "refusal", lastErrorCode := some "INSUFFICIENT_EVIDENCE" }

/-! ## Evidence -/

/-- `get_document_evidence_metadata`: the versions' rows are read first, and then the numbers that
are current. -/
def getDocumentEvidenceMetadata (versionIds : List UUID) :
    Node (List (UUID × DocumentEvidenceMetadata)) := do
  if versionIds.isEmpty then pure []
  else
    let rows := Evidence.requestedRows (← call .documents) versionIds
    if rows.isEmpty then pure []
    else
      let documents ← call .documents
      ofExcept (rows.mapM (Evidence.evidenceMetadata documents (rows.map (·.1.documentId))))

/-- `EvidenceGovernanceService.pack`. -/
def packEvidence (deps : Deps) (projectId : UUID) (projectCode : String)
    (chunks : List KnowledgeChunk) :
    Node GovernedEvidencePack := do
  let metadata ← getDocumentEvidenceMetadata
    ((Evidence.parsedChunks projectCode chunks).map (·.2)).eraseDups
  let today ← call .today
  ofExcept (Evidence.pack (fun _ => .ok metadata) deps.maxEvidence today projectId
    projectCode chunks)

def governEvidenceNode (deps : Deps) (state : AgentState) : Node AgentState := do
  let runId ← required "run_id" state.runId
  let projectId ← required "project_id" state.projectId
  let rawBundleId ← required "evidence_bundle_id" state.evidenceBundleId
  let context ← loadAs "AuthorizedProjectContext" (·.projectAccessScope?)
    (← required "access_scope_id" state.accessScopeId)
  let query ← call (.loadQuery runId)
  let chunks ← call (.loadEvidenceBundle rawBundleId)
  let pack ← packEvidence deps projectId context.projectCode chunks
  if pack.evidence.isEmpty then
    pure { state with route := some "refusal", lastErrorCode := some "NO_GOVERNED_EVIDENCE" }
  else
    let governedBundleId ← call (.saveGovernedEvidenceBundle runId projectId query pack)
    pure { state with
      evidenceBundleId := some governedBundleId
      route := some "generate_answer"
      lastErrorCode := none }

/-! ## The answer -/

/-- `prompt_artifact.get("content")`. -/
def promptContent : Artifact → Node String
  | .promptSnapshot snapshot => pure snapshot.content
  | _ => throw (.valueError "prompt snapshot content is missing")

/-- `guard_payload.get("errors", [])`. -/
def revisionErrors : Artifact → List String
  | .citationGuard result => result.errors
  | _ => []

def generateDraft (deps : Deps) (state : AgentState) (revisionErrors : List String) :
    Node UUID := do
  let runId ← required "run_id" state.runId
  let query ← call (.loadQuery runId)
  let systemPrompt ← promptContent
    (← call (.loadArtifact (← required "prompt_snapshot_id" state.promptSnapshotId)))
  let bundle ← call (.loadGovernedEvidenceBundle
    (← required "evidence_bundle_id" state.evidenceBundleId))
  if bundle.evidence.isEmpty then throw (.valueError "answer generation requires governed Evidence")
  else
    let projectId ← required "project_id" state.projectId
    let requestId := runId.str ++ ":qa-answer:" ++ toString state.revisions
    let draft ← call (.draftAnswer {
      requestId := requestId
      modelAlias := deps.modelAlias
      systemPrompt := systemPrompt
      userPrompt := buildGroundedEvidencePrompt query bundle ++ revisionPrompt revisionErrors
      runId := runId.str
      projectId := projectId.str })
    let usage ← call (.getUsage requestId)
    call (.recordLlmUsage runId usage)
    call (.saveArtifact runId (.answerDraft draft))

def generateAnswerNode (deps : Deps) (state : AgentState) : Node AgentState := do
  let draftId ← generateDraft deps state []
  pure { state with
    answerDraftId := some draftId
    revisionCount := some state.revisions
    route := some "citation_guard"
    lastErrorCode := none }

def reviseAnswerNode (deps : Deps) (state : AgentState) : Node AgentState := do
  if 1 ≤ state.revisions then pure { state with
    route := some "refusal", lastErrorCode := some "CITATION_GUARD_FAILED" }
  else
    let artifact ← call (.loadArtifact (← required "citation_guard_id" state.citationGuardId))
    let draftId ← generateDraft deps { state with
      revisionCount := some (state.revisions + 1) } (revisionErrors artifact)
    pure { state with
      answerDraftId := some draftId
      revisionCount := some (state.revisions + 1)
      route := some "citation_guard"
      lastErrorCode := none }

def citationGuardNode (state : AgentState) : Node AgentState := do
  let runId ← required "run_id" state.runId
  let projectId ← required "project_id" state.projectId
  let draft ← loadAs "GroundedAnswerDraft" (·.answerDraft?)
    (← required "answer_draft_id" state.answerDraftId)
  let bundle ← call (.loadGovernedEvidenceBundle
    (← required "evidence_bundle_id" state.evidenceBundleId))
  let result := Evidence.CitationGuard.validate bundle projectId draft
  let guardId ← call (.saveArtifact runId (.citationGuard result))
  let state := { state with citationGuardId := some guardId }
  if result.valid then
    let grounded ← ofExcept (Evidence.grounded bundle result.usedEvidenceIds)
    let answerId ← call (.saveGroundedAnswer runId (Evidence.renderAnswer draft) grounded.citations)
    pure { state with answerId := some answerId, route := some "answered", lastErrorCode := none }
  else if state.revisions < 1 then
    pure { state with route := some "revise_answer", lastErrorCode := some "CITATION_GUARD_RETRY" }
  else pure { state with route := some "refusal", lastErrorCode := some "CITATION_GUARD_FAILED" }

/-! ## No answer -/

def REFUSAL_TEXT : String := "没有找到足够的已授权证据，无法可靠回答。"

def refuseNode (state : AgentState) : Node AgentState := do
  let runId ← required "run_id" state.runId
  let reason := Evidence.orElse state.lastErrorCode "REFUSED"
  let text := if reason = "PROJECT_ACCESS_DENIED" ∨ reason = "NO_AUTHORIZED_PROJECT" then
    "当前身份没有该项目的有效访问权限。"
    else REFUSAL_TEXT
  let answerId ← call (.saveAnswer runId text (some reason))
  pure { state with answerId := some answerId, route := some "refusal" }

def clarifyProjectNode (state : AgentState) : Node AgentState := do
  let runId ← required "run_id" state.runId
  let selection ← loadAs "ProjectSelection" (·.projectSelection?)
    (← required "project_selection_id" state.projectSelectionId)
  let codes := selection.candidateProjectCodes
  let suffix := if codes.isEmpty then "" else "可访问项目：" ++ ", ".intercalate codes ++ "。"
  let answerId ← call (.saveAnswer runId ("请明确这次问题属于哪个项目。" ++ suffix)
    (some "PROJECT_CLARIFICATION_REQUIRED"))
  pure { state with answerId := some answerId, route := some "clarification" }

end ProjectAgent.Agent
