/-
What the calls of the question answering graph do. The artifacts, the bundles
and the answer of a run are kept and found again; the documents are read as
they are at the moment, and the provider and the model answer as they like.
Any call may fail, and then nothing is kept of it. The world notes the calls
and their answers in a log, the last one first.
-/
import ProjectAgent.Agent.QaGraph
import ProjectAgent.Evidence.Frozen
import ProjectAgent.Evidence.OneCurrent
import ProjectAgent.Evidence.RoundTrip

namespace ProjectAgent.Agent

open Documents (Tables)
open Evidence (AnswerTables AuthorizedProjectContext AuthorityLevel CitationValidationResult
  DocumentCategory EvidenceTables
  GroundedAnswerDraft Ids StoreError)
open Interleave

/-! ## The documents -/

/-- The tables of the documents, whose columns hold values of the enumerations. -/
structure Library extends Evidence.Snapshot where
  categories : ∀ document ∈ tables.documents, ∃ category,
    DocumentCategory.ofValue document.documentCategory = some category
  authorities : ∀ version ∈ tables.versions, ∃ level,
    AuthorityLevel.ofValue version.authorityLevel = some level

/-- Nothing is said of when versions come, go or change their status: a version keeps its id, its
number and its dates, and a document its project. -/
structure Later (t t' : Tables) : Prop where
  versions : ∀ version ∈ t.versions, ∀ version' ∈ t'.versions,
    version'.documentId = version.documentId →
    version'.versionNo = version.versionNo → version'.id = version.id ∧
      version'.effectiveFrom = version.effectiveFrom ∧
      version'.effectiveTo = version.effectiveTo
  documents : ∀ document ∈ t.documents, ∀ document' ∈ t'.documents, document'.id = document.id →
    document'.projectId = document.projectId

/-! ## The world -/

structure Said where
  call : Call
  answer : Except AgentError call.Answer

structure World where
  library : Library
  artifacts : UUID → Option Artifact
  evidence : EvidenceTables
  answers : AnswerTables
  log : List Said

namespace World

def calls (w : World) : List Call := w.log.map (·.call)

def put (w : World) (id : UUID) (artifact : Artifact) : World :=
  { w with artifacts := Function.update w.artifacts id (some artifact) }

/-- The ids are of no bundle yet. -/
def Unused (w : World) (ids : Ids) : Prop :=
  (∀ bundle ∈ w.evidence.bundles, bundle.id ≠ ids.bundle) ∧
    ∀ row ∈ w.evidence.snapshots, row.bundleId ≠ ids.bundle

end World

/-! ## The calls -/

/-- What a call that succeeds has done. -/
def Does (sha256 : String → String) : (c : Call) → c.Answer → World → World → Prop
  | .recordPromptSnapshot _ _ snapshot, id, w, w' =>
    w.artifacts id = none ∧ w' = w.put id (.promptSnapshot snapshot)
  | .saveArtifact _ artifact, id, w, w' => w.artifacts id = none ∧ w' = w.put id artifact
  | .loadArtifact id, artifact, w, w' => w.artifacts id = some artifact ∧ w' = w
  -- a query that is blank is not returned
  | .loadQuery _, query, w, w' => strip query ≠ "" ∧ w' = w
  | .saveEvidenceBundle runId projectId queryText chunks retrievalRound, id, w, w' =>
    ∃ ids evidence, ids.bundle = id ∧ w.Unused ids ∧
      Evidence.saveEvidenceBundle w.evidence ids runId projectId queryText chunks retrievalRound =
        .ok evidence ∧
      w' = { w with evidence := evidence }
  | .loadEvidenceBundle id, chunks, w, w' =>
    Evidence.loadEvidenceBundle w.evidence id = .ok chunks ∧ w' = w
  | .documents, t, w, w' => t = w.library.tables ∧ w' = w
  | .saveGovernedEvidenceBundle runId projectId queryText pack, id, w, w' =>
    ∃ ids evidence, ids.bundle = id ∧ w.Unused ids ∧
      Evidence.saveGovernedEvidenceBundle sha256 w.evidence ids runId projectId queryText pack =
        .ok evidence ∧
      w' = { w with evidence := evidence }
  | .loadGovernedEvidenceBundle id, bundle, w, w' =>
    Evidence.loadGovernedEvidenceBundle w.evidence id = .ok bundle ∧ w' = w
  | .saveAnswer runId answerText refusalReason, id, w, w' => ∃ newId answers,
      Evidence.saveAnswer w.answers newId runId answerText refusalReason = .ok (id, answers) ∧
        w' = { w with answers := answers }
  | .saveGroundedAnswer runId answerText citations, id, w, w' => ∃ newId answers,
      Evidence.saveGroundedAnswer w.answers w.evidence.snapshots newId runId answerText citations =
        .ok (id, answers) ∧
      w' = { w with answers := answers }
  | .getSnapshot _, _, w, w' | .listAuthorizedProjects _, _, w, w'
      | .authorizeIdentity _ _, _, w, w' | .findExact _ _ _, _, w, w'
  | .incrementRetrievalRounds _, _, w, w' | .retrieve _, _, w, w' | .today, _, w, w'
      | .gradeRetrieval _, _, w, w'
  | .draftAnswer _, _, w, w' | .getUsage _, _, w, w' | .recordLlmUsage _ _, _, w, w' => w' = w

/-- How a call may fail: a load of what is not there, or cannot be read, fails, and besides only the
database fails it. -/
def Fails : Call → AgentError → World → Prop
  | .loadArtifact id, e, w => (∃ typeName, e = .raised typeName) ∨ w.artifacts id = none
  | .loadEvidenceBundle id, e, w => (∃ typeName, e = .raised typeName) ∨
      ∃ e', Evidence.loadEvidenceBundle w.evidence id = .error e' ∧ e = .store e'
  | .loadGovernedEvidenceBundle id, e, w => (∃ typeName, e = .raised typeName) ∨
      ∃ e', Evidence.loadGovernedEvidenceBundle w.evidence id = .error e' ∧ e = .store e'
  | _, _, _ => True

/-- The documents have gone on, and the call is performed on what they are now. -/
def Answers (sha256 : String → String) (c : Call) (w : World) (answer : Except AgentError c.Answer)
    (w' : World) : Prop :=
  ∃ library w₁, Later w.library.tables library.tables ∧ w' = { w₁ with
    log := ⟨c, answer⟩ :: w.log } ∧
    match answer with
    | .ok a => Does sha256 c a { w with library := library } w₁
    | .error e => Fails c e w ∧ w₁ = { w with library := library }

end ProjectAgent.Agent
