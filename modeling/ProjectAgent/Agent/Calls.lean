/-
What the nodes of the question answering graph call: the store of artifacts
and of evidence, the authorization service, the registry of identifiers, the
knowledge provider and the model. An artifact's payload is the value it was
dumped from; a node that loads one of another type fails to validate it.
-/
import ProjectAgent.Agent.State
import ProjectAgent.Evidence.Access
import ProjectAgent.Evidence.Answers
import ProjectAgent.Identifiers.Registry
import ProjectAgent.Issue.Domain

namespace ProjectAgent.Agent

open Documents (Tables)
open Evidence (AuthorizedProjectContext CitationReference CitationValidationResult Date
  FrozenEvidenceBundle
  GovernedEvidencePack GroundedAnswerDraft KnowledgeChunk KnowledgeRetrievalRequest StoreError)
open Identifiers (IdentifierResolution QueryAnalysis)
open Interleave

/-! ## Artifacts -/

structure PromptSnapshot where
  configKey : String
  content : String
  version : Nat
  contentHash : String

structure ProjectSelection where
  selectedProjectId : Option UUID
  candidateProjectCodes : List String
  route : String
  errorCode : Option String

structure RetrievalPlan where
  originalQuery : String
  standaloneQuery : String
  exactIdentifiers : List String
  identifierResolutions : List IdentifierResolution
  constrainedDocumentVersionIds : List UUID
  constrainedProviderDocumentIds : List String
  allowedCategories : List String
  allowSecondRound : Bool

inductive RetrievalGradeReason where
  | ADEQUATE | EMPTY_EVIDENCE | INSUFFICIENT_RELEVANCE | INSUFFICIENT_COVERAGE
deriving DecidableEq

/-- A grade as the model may give it: `shape` is what its validator keeps. -/
structure RetrievalGrade where
  adequate : Bool
  reason : RetrievalGradeReason
  secondRoundJustified : Bool
  refinedQuery : Option String
  shape : if adequate then reason = .ADEQUATE ∧ secondRoundJustified = false ∧ refinedQuery = none
    else reason ≠ .ADEQUATE ∧ (secondRoundJustified = true ↔ refinedQuery.any (strip · ≠ "")) ∧
      (secondRoundJustified = false → refinedQuery = none)

inductive Artifact where
  | promptSnapshot (snapshot : PromptSnapshot)
  | queryAnalysis (analysis : QueryAnalysis)
  | projectSelection (selection : ProjectSelection)
  | projectAccessScope (context : AuthorizedProjectContext)
  | retrievalPlan (plan : RetrievalPlan)
  | retrievalGrade (grade : RetrievalGrade)
  | answerDraft (draft : GroundedAnswerDraft)
  | citationGuard (result : CitationValidationResult)

namespace Artifact

def queryAnalysis? : Artifact → Option QueryAnalysis
  | queryAnalysis analysis => some analysis
  | _ => none

def projectSelection? : Artifact → Option ProjectSelection
  | projectSelection selection => some selection
  | _ => none

def projectAccessScope? : Artifact → Option AuthorizedProjectContext
  | projectAccessScope context => some context
  | _ => none

def retrievalPlan? : Artifact → Option RetrievalPlan
  | retrievalPlan plan => some plan
  | _ => none

def answerDraft? : Artifact → Option GroundedAnswerDraft
  | answerDraft draft => some draft
  | _ => none

end Artifact

/-! ## Calls -/

structure ProjectMembership where
  projectId : UUID
  projectCode : String

structure StructuredLLMRequest where
  requestId : String
  modelAlias : String
  systemPrompt : String
  userPrompt : String
  runId : String
  projectId : String

structure LLMTokenUsage where
  inputTokens : Nat
  outputTokens : Nat

inductive AgentError where
  | keyError (key : String)
  | validationError (model : String)
  | valueError (text : String)
  | store (e : StoreError)
  | authorizationDenied (text : String)
  | recursionLimit
  /-- Raised by the database, the knowledge provider or the model. -/
  | raised (typeName : String)
deriving DecidableEq

inductive Call where
  | getSnapshot (configKey : String)
  | recordPromptSnapshot (runId : UUID) (modelAlias : String) (snapshot : PromptSnapshot)
  | loadQuery (runId : UUID)
  | saveArtifact (runId : UUID) (artifact : Artifact)
  | loadArtifact (artifactId : UUID)
  | listAuthorizedProjects (userId : UUID)
  | authorizeIdentity (userId projectId : UUID)
  | findExact (projectId : UUID) (identifierType : IdentifierType) (value : String)
  | incrementRetrievalRounds (runId : UUID)
  | retrieve (request : KnowledgeRetrievalRequest)
  | saveEvidenceBundle (runId projectId : UUID) (queryText : String) (chunks : List KnowledgeChunk)
      (retrievalRound : Nat)
  | loadEvidenceBundle (bundleId : UUID)
  /-- What a `SELECT` from the documents and their versions is over. -/
  | documents
  | today
  | saveGovernedEvidenceBundle (runId projectId : UUID) (queryText : String)
      (pack : GovernedEvidencePack)
  | loadGovernedEvidenceBundle (bundleId : UUID)
  | gradeRetrieval (request : StructuredLLMRequest)
  | draftAnswer (request : StructuredLLMRequest)
  | getUsage (requestId : String)
  | recordLlmUsage (runId : UUID) (usage : LLMTokenUsage)
  | saveAnswer (runId : UUID) (answerText : String) (refusalReason : Option String)
  | saveGroundedAnswer (runId : UUID) (answerText : String) (citations : List CitationReference)

@[reducible] def Call.Answer : Call → Type
  | .getSnapshot _ => PromptSnapshot
  | .recordPromptSnapshot _ _ _ | .saveArtifact _ _ | .saveEvidenceBundle _ _ _ _ _
      | .saveGovernedEvidenceBundle _ _ _ _
  | .saveAnswer _ _ _ | .saveGroundedAnswer _ _ _ => UUID
  | .loadQuery _ => String
  | .loadArtifact _ => Artifact
  | .listAuthorizedProjects _ => List ProjectMembership
  | .authorizeIdentity _ _ => AuthorizedProjectContext
  | .findExact _ _ _ => List UUID
  | .incrementRetrievalRounds _ | .recordLlmUsage _ _ => Unit
  | .retrieve _ | .loadEvidenceBundle _ => List KnowledgeChunk
  | .documents => Tables
  | .today => Date
  | .loadGovernedEvidenceBundle _ => FrozenEvidenceBundle
  | .gradeRetrieval _ => RetrievalGrade
  | .draftAnswer _ => GroundedAnswerDraft
  | .getUsage _ => LLMTokenUsage

abbrev Node := Prog Call Call.Answer AgentError

def call (c : Call) : Node c.Answer := Prog.exec c

def ofExcept {α : Type} : Except StoreError α → Node α
  | .ok a => pure a
  | .error e => throw (.store e)

/-- `state[key]`. -/
def required {α : Type} (key : String) : Option α → Node α
  | some a => pure a
  | none => throw (.keyError key)

/-- Loads an artifact and validates it as one of this type. -/
def loadAs {α : Type} (model : String) (read : Artifact → Option α) (artifactId : UUID) :
    Node α := do
  match read (← call (.loadArtifact artifactId)) with
  | some a => pure a
  | none => throw (.validationError model)

end ProjectAgent.Agent
