/-
The state a graph's nodes pass on, and how a run's execution starts from it
and is projected to the run's outcome. The state is kept for a thread: an
execution writes six of its keys and finds the others as they were left.

A key that is absent, or `None`, is `none`; the ids it holds are the UUIDs
their texts print.
-/
import ProjectAgent.Runs.Services

namespace ProjectAgent.Agent

open Runs (RunRecord RunGraphOutcome)

structure AgentState where
  runId : Option UUID := none
  threadId : Option UUID := none
  userId : Option UUID := none
  projectId : Option UUID := none
  promptSnapshotId : Option UUID := none
  queryAnalysisId : Option UUID := none
  projectSelectionId : Option UUID := none
  accessScopeId : Option UUID := none
  retrievalPlanId : Option UUID := none
  retrievalGradeId : Option UUID := none
  retrievalRound : Option Nat := none
  evidenceBundleId : Option UUID := none
  answerDraftId : Option UUID := none
  citationGuardId : Option UUID := none
  answerId : Option UUID := none
  issueCandidateId : Option UUID := none
  issueDraftId : Option UUID := none
  toolConfirmationId : Option UUID := none
  issueCreationId : Option UUID := none
  revisionCount : Option Nat := none
  route : Option String := none
  lastErrorCode : Option String := none
deriving DecidableEq

namespace AgentState

/-- The state a thread has that no run has been executed on. -/
def empty : AgentState := {}

/-- `int(state.get("retrieval_round", 0))`. -/
def rounds (state : AgentState) : Nat := state.retrievalRound.getD 0

/-- `int(state.get("revision_count", 0))`. -/
def revisions (state : AgentState) : Nat := state.revisionCount.getD 0

/-- `LangGraphRunExecutor.execute`: its input, written over what the thread's last checkpoint
holds. -/
def start (checkpoint : AgentState) (run : RunRecord) : AgentState :=
  { checkpoint with
    runId := some run.id
    threadId := some run.threadId
    userId := some run.userId
    projectId := some run.projectId
    route := none
    lastErrorCode := none }

/-- `_project`, of a result without an interrupt. -/
def project (state : AgentState) : RunGraphOutcome :=
  if state.route = some "refusal" then ⟨.REFUSED, state.answerId.map (·.str),
    state.lastErrorCode, none⟩
  else if state.route = some "cancelled" then ⟨.CANCELLED, none, none, none⟩
  else ⟨.SUCCEEDED,
    (state.answerId.or (state.issueCandidateId.or
    (state.issueCreationId.or state.issueDraftId))).map (·.str),
    none, none⟩

end AgentState

end ProjectAgent.Agent
