/-
Executions in which the services answer by a script, and the store keeps what
it is given under ids it draws from the length of the log. An id that is taken
is refused.
-/
import ProjectAgent.Agent.World
import ProjectAgent.Lib.Evaluated

namespace ProjectAgent.Agent

open Evidence (AuthorizedProjectContext Date GroundedAnswerDraft Ids KnowledgeChunk
  KnowledgeRetrievalRequest)
open Interleave
open Runs (RunRecord)

structure Script where
  sha256 : String → String
  prompt : PromptSnapshot
  query : String
  asked : strip query ≠ ""
  memberships : List ProjectMembership
  context : AuthorizedProjectContext
  findExact : UUID → IdentifierType → String → List UUID
  retrieve : KnowledgeRetrievalRequest → List KnowledgeChunk
  grade : StructuredLLMRequest → RetrievalGrade
  draft : StructuredLLMRequest → GroundedAnswerDraft
  usage : LLMTokenUsage
  today : Date

namespace World

/-- The id an artifact or an answer is given next. -/
def nextId (w : World) : UUID := .ofNat (1000 * w.log.length)

/-- The ids of a bundle and of its snapshots. -/
def nextIds (w : World) : Ids :=
  ⟨.ofNat (1000 * w.log.length), fun rank => .ofNat (1000 * w.log.length + rank)⟩

instance (w : World) (ids : Ids) : Decidable (w.Unused ids) := inferInstanceAs (Decidable (_ ∧ _))

end World

namespace Script

variable (s : Script)

def taken {α : Type} (w : World) : Except AgentError α × World :=
  (.error (.raised "IntegrityError"), w)

def keep (artifact : Artifact) (w : World) : Except AgentError UUID × World :=
  if (w.artifacts w.nextId).isNone then (.ok w.nextId, w.put w.nextId artifact) else taken w

def act : (c : Call) → World → Except AgentError c.Answer × World
  | .getSnapshot _, w => (.ok s.prompt, w)
  | .recordPromptSnapshot _ _ snapshot, w => keep (.promptSnapshot snapshot) w
  | .loadQuery _, w => (.ok s.query, w)
  | .saveArtifact _ artifact, w => keep artifact w
  | .loadArtifact id, w =>
    match w.artifacts id with
    | some artifact => (.ok artifact, w)
    | none => (.error (.raised "LookupError"), w)
  | .listAuthorizedProjects _, w => (.ok s.memberships, w)
  | .authorizeIdentity _ _, w => (.ok s.context, w)
  | .findExact projectId identifierType value, w =>
    (.ok (s.findExact projectId identifierType value), w)
  | .incrementRetrievalRounds _, w => (.ok (), w)
  | .retrieve request, w => (.ok (s.retrieve request), w)
  | .saveEvidenceBundle runId projectId queryText chunks retrievalRound, w =>
    if w.Unused w.nextIds then
      match Evidence.saveEvidenceBundle w.evidence w.nextIds runId projectId queryText chunks
        retrievalRound with
      | .ok evidence => (.ok w.nextIds.bundle, { w with evidence := evidence })
      | .error e => (.error (.store e), w)
    else taken w
  | .loadEvidenceBundle id, w =>
    match Evidence.loadEvidenceBundle w.evidence id with
    | .ok chunks => (.ok chunks, w)
    | .error e => (.error (.store e), w)
  | .documents, w => (.ok w.library.tables, w)
  | .today, w => (.ok s.today, w)
  | .saveGovernedEvidenceBundle runId projectId queryText pack, w =>
    if w.Unused w.nextIds then
      match Evidence.saveGovernedEvidenceBundle s.sha256 w.evidence w.nextIds runId projectId
        queryText pack with
      | .ok evidence => (.ok w.nextIds.bundle, { w with evidence := evidence })
      | .error e => (.error (.store e), w)
    else taken w
  | .loadGovernedEvidenceBundle id, w =>
    match Evidence.loadGovernedEvidenceBundle w.evidence id with
    | .ok bundle => (.ok bundle, w)
    | .error e => (.error (.store e), w)
  | .gradeRetrieval request, w => (.ok (s.grade request), w)
  | .draftAnswer request, w => (.ok (s.draft request), w)
  | .getUsage _, w => (.ok s.usage, w)
  | .recordLlmUsage _ _, w => (.ok (), w)
  | .saveAnswer runId answerText refusalReason, w =>
    match Evidence.saveAnswer w.answers w.nextId runId answerText refusalReason with
    | .ok (id, answers) => (.ok id, { w with answers := answers })
    | .error e => (.error (.store e), w)
  | .saveGroundedAnswer runId answerText citations, w =>
    match Evidence.saveGroundedAnswer w.answers w.evidence.snapshots w.nextId runId answerText
      citations with
    | .ok (id, answers) => (.ok id, { w with answers := answers })
    | .error e => (.error (.store e), w)

def answer (c : Call) (w : World) : Except AgentError c.Answer × World :=
  ((s.act c w).1, { (s.act c w).2 with log := ⟨c, (s.act c w).1⟩ :: w.log })

/-- Of the call, as it acts on the world. -/
def Acted (s : Script) (c : Call) (w : World) : Except AgentError c.Answer × World → Prop
  | (.ok a, w') => Does s.sha256 c a w w'
  | (.error e, w') => Fails c e w ∧ w' = w

theorem act_acted (c : Call) (w : World) : s.Acted c w (s.act c w) := by
  cases c
  case recordPromptSnapshot | saveArtifact =>
    simp only [act, keep]
    split
    · next hfree => exact ⟨Option.isNone_iff_eq_none.mp hfree, rfl⟩
    · exact ⟨trivial, rfl⟩
  case loadArtifact id =>
    simp only [act]
    split
    · next hsome => exact ⟨hsome, rfl⟩
    · exact ⟨.inl ⟨_, rfl⟩, rfl⟩
  case loadQuery => exact ⟨s.asked, rfl⟩
  case saveEvidenceBundle | saveGovernedEvidenceBundle =>
    simp only [act]
    split
    · next hunused =>
      split
      · next hsave => exact ⟨w.nextIds, _, rfl, hunused, hsave, rfl⟩
      · exact ⟨trivial, rfl⟩
    · exact ⟨trivial, rfl⟩
  case loadEvidenceBundle | loadGovernedEvidenceBundle =>
    simp only [act]
    split
    · next hload => exact ⟨hload, rfl⟩
    · next hload => exact ⟨.inr ⟨_, hload, rfl⟩, rfl⟩
  case documents => exact ⟨rfl, rfl⟩
  case saveAnswer | saveGroundedAnswer =>
    simp only [act]
    split
    · next hsave => exact ⟨w.nextId, _, hsave, rfl⟩
    · exact ⟨trivial, rfl⟩
  all_goals rfl

theorem Later.refl (l : Library) : Later l.tables l.tables where
  versions version hv version' hv' hid hno := by
    obtain rfl := l.schema.number_eq hv hv' hid.symm hno.symm
    exact ⟨rfl, rfl, rfl⟩
  documents document hd document' hd' hid := by
    obtain rfl := l.schema.document_eq hd hd' hid.symm
    rfl

/-- **A script's answers are answers**, while the documents stay as they are. -/
theorem answer_answers (c : Call) (w : World) :
    Answers s.sha256 c w (s.answer c w).1 (s.answer c w).2 := by
  have hacted := s.act_acted c w
  unfold answer
  generalize s.act c w = acted at hacted ⊢
  obtain ⟨x, w'⟩ := acted
  cases x with
  | ok a => exact ⟨w.library, w', Later.refl _, rfl, hacted⟩
  | error e =>
    obtain ⟨hfails, rfl⟩ := hacted
    exact ⟨w'.library, w', Later.refl _, rfl, hfails, rfl⟩

end Script

/-! ## A run -/

namespace Sample

def library : Library where
  tables :=
    { documents := [⟨.ofNat 10, .ofNat 1, .ofNat 2, "approved_design", "Design", none⟩]
      versions := [{
        id := .ofNat 7, documentId := .ofNat 10, versionNo := 1, versionLabel :=
          "v", authorityLevel := "approved_design"
        lifecycleStatus := .PUBLISHED, effectiveFrom := none, effectiveTo :=
          none, supersedesVersionId := none
        sourceUri := none, contentHash := none, publishedAt := none, createdBy := .ofNat 3 }]
      audits := [] }
  schema := by constructor <;> decide
  categories document hdocument := by
    obtain rfl := List.mem_singleton.mp hdocument
    exact ⟨.APPROVED_DESIGN, by decide⟩
  authorities version hversion := by
    obtain rfl := List.mem_singleton.mp hversion
    exact ⟨.APPROVED_DESIGN, by decide⟩

def deps : Deps := ⟨"model", true, 8, fun _ => [], fun _ => ""⟩

def run : RunRecord :=
  ⟨.ofNat 4, .ofNat 5, .ofNat 1, .ofNat 2, .ofNat 3, .QA, .RUNNING, none, none, none, none⟩

def world : World := ⟨library, fun _ => none, ⟨[], []⟩, ⟨[], []⟩, []⟩

/-- The first retrieval is not enough, and the first draft cites what is not there. -/
def script : Script where
  sha256 := id
  prompt := ⟨"prompt.qa.answer", "Answer.", 1, "digest"⟩
  query := "How long is the lock?"
  asked := by decide +kernel
  memberships := [⟨.ofNat 2, "P-1"⟩]
  context := ⟨⟨.ofNat 1, .ofNat 3, [], [.ofNat 2], some [.ofNat 7], [], [], 0,
    "project-membership-v1"⟩, "P-1", ["space"]⟩
  findExact _ _ _ := []
  retrieve request :=
    [⟨"P-1", (UUID.ofNat 7).str, request.query, .finite (9 / 10), some "space", none,
    none, none, ∅⟩]
  grade request :=
    if request.requestId = run.id.str ++ ":qa-retrieval-grade:1" then
      ⟨false, .INSUFFICIENT_COVERAGE, true, some "lock minutes", by decide +kernel⟩
    else ⟨true, .ADEQUATE, false, none, by decide⟩
  draft request :=
    let label := if request.requestId = run.id.str ++ ":qa-answer:0" then "E2" else "E1"
    ⟨[⟨"Locked for 30 minutes.", [label]⟩], none⟩
  usage := ⟨1, 1⟩
  today := ⟨2024, 0, 0⟩

def executed : Except AgentError AgentState × World :=
  Prog.eval script.answer (executeQa deps 15 .empty run) world

end Sample

end ProjectAgent.Agent
