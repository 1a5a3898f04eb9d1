/-
The prompts the question answering graph sends: the one a retrieval is graded
by, of the chunks that were retrieved, and the one an answer is drafted by, of
the governed evidence. `reprScore` prints a float.
-/
import ProjectAgent.Agent.Calls
import ProjectAgent.Evidence.Governance

namespace ProjectAgent.Agent

open Evidence (FrozenEvidence FrozenEvidenceBundle KnowledgeChunk Score)

def lines (texts : List String) : String := "\n".intercalate texts

/-! ## `grade_retrieval` -/

def GRADING_SYSTEM_PROMPT : String := lines [
  "Judge only whether the supplied, already-authorized retrieved chunks are sufficiently relevant",
  "and sufficiently complete to attempt evidence governance and answer the user's query.",
  "Do not decide authority, current/effective version, project membership, knowledge-space access,",
  "or citation validity. Those are enforced elsewhere.",
  "If one bounded second retrieval is justified, return only a refined standalone query.",
  "Never return or request a new project, knowledge space, document ID, or security scope."]

def buildGradingPrompt (reprScore : Score → String) (query : String) (plan : RetrievalPlan)
    (chunks : List KnowledgeChunk) : String :=
  let listed := if chunks.isEmpty then ["(none)"]
    else (chunks.zipIdx 1).map fun (chunk, index) =>
      "[" ++ toString index ++ "] score=" ++ reprScore chunk.score ++ ": " ++ chunk.content
  lines (["User query: " ++ query, "Current standalone query: " ++ plan.standaloneQuery, "",
    "Already-authorized post-filtered retrieved chunks:"] ++ listed ++ ["", GRADING_SYSTEM_PROMPT])

/-! ## `generate_answer` -/

def location (item : FrozenEvidence) : String :=
  let page := (item.pageNo.map fun no => "page=" ++ toString no).toList
  let parts := page ++ ((orNone item.section_).map ("section=" ++ ·)).toList
  if parts.isEmpty then "location=unknown" else ", ".intercalate parts

/-- The prompt's section of one item. -/
def evidenceSection (item : FrozenEvidence) : String :=
  "[" ++ item.label ++ "] authority=" ++ item.authorityLevel.value ++ "; document=" ++
    item.documentTitle ++
    "; version=" ++ item.versionLabel ++ "; " ++ location item ++ "\n" ++ item.content

def buildGroundedEvidencePrompt (query : String) (bundle : FrozenEvidenceBundle) : String :=
  let conflicts := if bundle.unresolvedConflicts.isEmpty then []
    else ["", "以下冲突未能通过 AuthorityPolicy 唯一解决，必须显式披露："] ++
      bundle.unresolvedConflicts.map fun (key, labels) =>
        "- " ++ key ++ ": " ++ ", ".intercalate labels
  lines (["用户问题：" ++ query, "", "可引用 Evidence："] ++ bundle.evidence.map evidenceSection ++
    conflicts ++ [
    "",
    "输出规则：",
    "1. 只输出可由上述 Evidence 支撑的事实 Claim。",
    "2. 每条 Claim 必须绑定至少一个 Evidence ID，例如 E1。",
    "3. 不得编造不存在的 Evidence ID。",
    "4. 如果存在未解决冲突，conflict_disclosure 必须引用冲突双方 Evidence。",
    "5. 不要依赖模型自身知识补充项目事实。"])

/-- What is asked to be repaired of a draft the guard refused. -/
def revisionPrompt (errors : List String) : String :=
  if errors.isEmpty then ""
  else "\n\n上一次草稿未通过 Citation Guard，请只修复以下问题，不增加新事实：\n- " ++ "\n- ".intercalate errors

end ProjectAgent.Agent
