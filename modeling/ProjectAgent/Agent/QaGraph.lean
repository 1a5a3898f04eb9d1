/-
The question answering graph: which node follows which, and a run's execution
of it. The recursion limit is the number of nodes the graph may take.
-/
import ProjectAgent.Agent.Nodes
import ProjectAgent.Lib.StateGraph

namespace ProjectAgent.Agent

open Interleave
open Runs (RunRecord)

inductive QaNode where
  | load_prompt | analyze_query | select_project | resolve_scope | resolve_identifiers | retrieve
      | grade_retrieval
  | govern_evidence | generate_answer | citation_guard | revise_answer | refuse | clarify_project
deriving DecidableEq

namespace QaNode

def run (deps : Deps) : QaNode → AgentState → Node AgentState
  | load_prompt => loadPromptSnapshotNode deps
  | analyze_query => analyzeQueryNode deps
  | select_project => selectProjectNode
  | resolve_scope => resolveScopeNode
  | resolve_identifiers => resolveIdentifiersNode deps
  | retrieve => retrieveNode
  | grade_retrieval => gradeRetrievalNode deps
  | govern_evidence => governEvidenceNode deps
  | generate_answer => generateAnswerNode deps
  | citation_guard => citationGuardNode
  | revise_answer => reviseAnswerNode deps
  | refuse => refuseNode
  | clarify_project => clarifyProjectNode

def next : QaNode → AgentState → Option QaNode
  | load_prompt, _ => some analyze_query
  | analyze_query, _ => some select_project
  | select_project, state =>
    if state.route = some "clarification" then some clarify_project
    else if state.route = some "refusal" then some refuse
    else some resolve_scope
  | resolve_scope, _ => some resolve_identifiers
  | resolve_identifiers, _ => some retrieve
  | retrieve, state =>
    if state.route = some "grade_retrieval" then some grade_retrieval else some refuse
  | grade_retrieval, state =>
    if state.route = some "govern_evidence" then some govern_evidence
    else if state.route = some "retrieve_again" then some retrieve
    else some refuse
  | govern_evidence, state =>
    if state.route = some "generate_answer" then some generate_answer else some refuse
  | generate_answer, _ => some citation_guard
  | citation_guard, state =>
    if state.route = some "answered" then none
    else if state.route = some "revise_answer" then some revise_answer
    else some refuse
  | revise_answer, _ => some citation_guard
  | refuse, _ | clarify_project, _ => none

end QaNode

/-- `build_project_qa_graph`. -/
def projectQaGraph (deps : Deps) : StateGraph QaNode AgentState Call Call.Answer AgentError where
  node := QaNode.run deps
  next := QaNode.next

/-- `LangGraphRunExecutor.execute`, before the result is projected. -/
def executeQa (deps : Deps) (recursionLimit : Nat) (checkpoint : AgentState) (run : RunRecord) :
    Node AgentState :=
  (projectQaGraph deps).invoke .recursionLimit recursionLimit .load_prompt (.start checkpoint run)

end ProjectAgent.Agent
