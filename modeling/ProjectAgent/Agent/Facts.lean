/-
What is known at each node of the question answering graph: the artifacts its
keys name, the evidence it goes on with, and how often the provider and the
model have been asked.
-/
import ProjectAgent.Agent.Reached

namespace ProjectAgent.Agent

open Documents (DocumentVersion Document Tables)
open Evidence (AuthorizedProjectContext Date DocumentEvidenceMetadata EvidenceTables
  FrozenEvidenceBundle GovernedEvidence
  GovernedEvidencePack GroundedAnswerDraft Ids KnowledgeChunk StoreError)
open Interleave
open Runs (RunRecord)

/-! ## Facts -/

/-- The chunk is of an allowed version and an allowed space. -/
structure Permitted (context : AuthorizedProjectContext) (chunk : KnowledgeChunk) : Prop where
  version : ∃ versions, context.scope.allowedDocumentVersionIds = some versions ∧
    ∃ versionId ∈ versions, chunk.documentVersionId = versionId.str
  space : ∃ space ∈ context.knowledgeSpaceIds, chunk.knowledgeSpaceId = some space

def HasPrompt (w : World) (st : AgentState) : Prop :=
  ∃ id snapshot, st.promptSnapshotId = some id ∧ w.artifacts id = some (.promptSnapshot snapshot)

def HasAnalysis (w : World) (st : AgentState) : Prop :=
  ∃ id analysis, st.queryAnalysisId = some id ∧ w.artifacts id = some (.queryAnalysis analysis)

def HasSelection (w : World) (st : AgentState) : Prop :=
  ∃ id selection, st.projectSelectionId = some id ∧
    w.artifacts id = some (.projectSelection selection)

/-- The scope is the context the run's user was given for the run's project. -/
def HasScope (run : RunRecord) (w : World) (st : AgentState)
    (context : AuthorizedProjectContext) : Prop :=
  ∃ id, st.accessScopeId = some id ∧ w.artifacts id = some (.projectAccessScope context) ∧
    st.projectId = some run.projectId ∧ w.Authorized run context

def HasPlan (w : World) (st : AgentState) : Prop :=
  ∃ id plan, st.retrievalPlanId = some id ∧ w.artifacts id = some (.retrievalPlan plan)

/-- The bundle is of chunks the context permits. -/
def HasChunks (w : World) (st : AgentState) (context : AuthorizedProjectContext) : Prop :=
  ∃ bundle ∈ w.evidence.bundles, st.evidenceBundleId = some bundle.id ∧
    ∃ chunks, Evidence.loadEvidenceBundle w.evidence bundle.id = .ok chunks ∧
      ∀ chunk ∈ chunks, Permitted context chunk

/-- The row the item is loaded from. -/
structure RowOf (bundleId : UUID) (row : Evidence.EvidenceSnapshot Evidence.Numeric)
    (item : Evidence.FrozenEvidence) : Prop where
  id : row.id = item.snapshotId
  bundle : row.bundleId = bundleId
  project : row.projectId = item.projectId
  version : row.documentVersionId = some item.documentVersionId
  space : Evidence.optionalStr row "knowledge_space_id" = item.knowledgeSpaceId

/-- The items of a bundle of the run, each from a row of its own, have the labels a pack gives and
may be shown. -/
structure Governs (run : RunRecord) (w : World) (bundleId : UUID)
    (bundle : FrozenEvidenceBundle) : Prop where
  own : ∃ row ∈ w.evidence.bundles, row.id = bundleId ∧ row.runId = run.id
  loads : Evidence.loadGovernedEvidenceBundle w.evidence bundleId = .ok bundle
  nonempty : bundle.evidence ≠ []
  labels : ∀ item ∈ bundle.evidence, ∃ n, item.label = Evidence.labelOf n
  rows : ∀ item ∈ bundle.evidence, ∃ row ∈ w.evidence.snapshots, RowOf bundleId row item
  shown : Shown w run bundle

def HasBundle (run : RunRecord) (w : World) (st : AgentState) : Prop :=
  st.projectId = some run.projectId ∧ ∃ id bundle, st.evidenceBundleId = some id ∧
    Governs run w id bundle

/-- The draft is the one that was kept last. -/
def HasDraft (w : World) (st : AgentState) : Prop :=
  ∃ id draft, st.answerDraftId = some id ∧ w.artifacts id = some (.answerDraft draft) ∧
    w.savedDrafts.head? = some draft

def HasGuard (w : World) (st : AgentState) : Prop :=
  ∃ id result, st.citationGuardId = some id ∧ w.artifacts id = some (.citationGuard result) ∧
    result ∈ w.guardResults

/-- What the node reads is there. -/
def Known (run : RunRecord) (w : World) (st : AgentState) : QaNode → Prop
  | .load_prompt => st.projectId = some run.projectId
  | .analyze_query => HasPrompt w st ∧ st.projectId = some run.projectId
  | .select_project | .resolve_scope =>
    HasPrompt w st ∧ HasAnalysis w st ∧ st.projectId = some run.projectId
  | .clarify_project => HasSelection w st
  | .resolve_identifiers => HasPrompt w st ∧ HasAnalysis w st ∧ ∃ context, HasScope run w st context
  | .retrieve => HasPrompt w st ∧ HasPlan w st ∧ ∃ context, HasScope run w st context
  | .grade_retrieval =>
    HasPrompt w st ∧ HasPlan w st ∧ ∃ context, HasScope run w st context ∧ HasChunks w st context
  | .govern_evidence =>
    HasPrompt w st ∧ ∃ context, HasScope run w st context ∧ HasChunks w st context
  | .generate_answer => HasPrompt w st ∧ HasBundle run w st
  | .citation_guard => HasPrompt w st ∧ HasBundle run w st ∧ HasDraft w st
  | .revise_answer => HasPrompt w st ∧ HasBundle run w st ∧ HasGuard w st
  | .refuse => True

/-- How often the provider and the model have been asked. The rounds and revisions of the state are
at least those of the run: an earlier run may have left it some. -/
def Counts (w : World) (st : AgentState) : QaNode → Prop
  | .retrieve =>
    w.retrievals ≤ st.rounds ∧ w.gradings ≤ st.rounds ∧ w.retrievals ≤ 2 ∧ w.gradings ≤ 2 ∧
      w.drafts = 0
  | .grade_retrieval =>
    w.retrievals ≤ st.rounds ∧ w.gradings + 1 ≤ st.rounds ∧ st.rounds ≤ 2 ∧ w.drafts = 0
  | .govern_evidence | .generate_answer => w.retrievals ≤ 2 ∧ w.gradings ≤ 2 ∧ w.drafts = 0
  | .citation_guard =>
    w.retrievals ≤ 2 ∧ w.gradings ≤ 2 ∧ w.drafts ≤ st.revisions + 1 ∧ w.drafts ≤ 2
  | .revise_answer => w.retrievals ≤ 2 ∧ w.gradings ≤ 2 ∧ w.drafts ≤ 1 ∧ st.revisions = 0
  | .refuse | .clarify_project => Bounded w
  | _ => w.retrievals = 0 ∧ w.gradings = 0 ∧ w.drafts = 0

/-- The run has no answer yet, and no draft has passed. -/
structure Unanswered (run : RunRecord) (w : World) : Prop where
  ok : w.answers.Ok
  absent : w.answers.answerOf run.id = none
  refused : ∀ result ∈ w.guardResults, result.valid = false

structure At (run : RunRecord) (n : QaNode) (st : AgentState) (w : World) : Prop where
  ownRun : st.runId = some run.id
  ownUser : st.userId = some run.userId
  facts : Known run w st n
  counts : Counts w st n
  prompted : Prompted run w
  unanswered : Unanswered run w

/-- The nodes to come, after this one. -/
def rank : QaNode → AgentState → Nat
  | .load_prompt, _ => 14
  | .analyze_query, _ => 13
  | .select_project, _ => 12
  | .resolve_scope, _ => 11
  | .resolve_identifiers, _ => 10
  | .retrieve, st => if st.rounds = 0 then 9 else 7
  | .grade_retrieval, st => if st.rounds ≤ 1 then 8 else 6
  | .govern_evidence, _ => 5
  | .generate_answer, _ => 4
  | .citation_guard, st => if st.revisions = 0 then 3 else 1
  | .revise_answer, _ => 2
  | .refuse, _ | .clarify_project, _ => 0

/-- A draft has passed, and is the answer. -/
structure Answered (run : RunRecord) (st : AgentState) (w : World) : Prop where
  route : st.route = some "answered"
  stored : ∃ draft bundleId bundle grounded answerId, w.savedDrafts.head? = some draft ∧
    Governs run w bundleId bundle ∧
    w.guardResults.head? = some (Evidence.CitationGuard.validate bundle run.projectId draft) ∧
    (Evidence.CitationGuard.validate bundle run.projectId draft).valid = true ∧
    Evidence.grounded bundle
      (Evidence.CitationGuard.validate bundle run.projectId draft).usedEvidenceIds = .ok grounded ∧
    st.answerId = some answerId ∧
    w.answers.answerOf run.id = some ⟨answerId, run.id, Evidence.renderAnswer draft, none⟩ ∧
    w.answers.citationsOf run.id = (Evidence.uniqueCitations grounded.citations).map
      (Evidence.citationRow answerId)

/-- No draft has passed, and the answer says why there is none. -/
structure Refused (run : RunRecord) (st : AgentState) (w : World) : Prop where
  route : st.route = some "refusal" ∨ st.route = some "clarification"
  refused : ∀ result ∈ w.guardResults, result.valid = false
  stored : ∃ answerId answerText refusalReason, st.answerId = some answerId ∧
    w.answers.answerOf run.id = some ⟨answerId, run.id, answerText, some refusalReason⟩ ∧
      w.answers.citationsOf run.id = []

/-- What the graph ends with. -/
def Post (run : RunRecord) : Except AgentError AgentState → World → Prop
  | .ok st, w => Bounded w ∧ Prompted run w ∧ (Answered run st w ∨ Refused run st w)
  | .error e, w => Escaped run e w

/-! ## What stays known -/

variable {sha256 : String → String} {w w₀ w' : World} {cs : List Call} {run : RunRecord}
  {st : AgentState}
  {context : AuthorizedProjectContext}

theorem HasPrompt.passed (h : HasPrompt w st) (hp : Passed w cs w') : HasPrompt w' st := by
  obtain ⟨id, snapshot, hid, ha⟩ := h
  exact ⟨id, snapshot, hid, hp.artifacts _ _ ha⟩

theorem HasAnalysis.passed (h : HasAnalysis w st) (hp : Passed w cs w') : HasAnalysis w' st := by
  obtain ⟨id, analysis, hid, ha⟩ := h
  exact ⟨id, analysis, hid, hp.artifacts _ _ ha⟩

theorem HasScope.passed (h : HasScope run w st context) (hp : Passed w cs w') :
    HasScope run w' st context := by
  obtain ⟨id, hid, ha, hproject, hauthorized⟩ := h
  exact ⟨id, hid, hp.artifacts _ _ ha, hproject, hp.log.subset hauthorized⟩

theorem HasPlan.passed (h : HasPlan w st) (hp : Passed w cs w') : HasPlan w' st := by
  obtain ⟨id, plan, hid, ha⟩ := h
  exact ⟨id, plan, hid, hp.artifacts _ _ ha⟩

theorem Passed.chunks {bundle : Evidence.EvidenceBundle} (hp : Passed w cs w')
    (hbundle : bundle ∈ w.evidence.bundles) :
    Evidence.loadEvidenceBundle w'.evidence bundle.id =
      Evidence.loadEvidenceBundle w.evidence bundle.id := by
  unfold Evidence.loadEvidenceBundle
  rw [hp.ranked _ hbundle]

theorem Passed.governed {bundle : Evidence.EvidenceBundle} (hp : Passed w cs w')
    (hbundle : bundle ∈ w.evidence.bundles) :
    Evidence.loadGovernedEvidenceBundle w'.evidence bundle.id =
      Evidence.loadGovernedEvidenceBundle w.evidence bundle.id := by
  unfold Evidence.loadGovernedEvidenceBundle
  rw [hp.ranked _ hbundle]

theorem HasChunks.passed (h : HasChunks w st context) (hp : Passed w cs w') :
    HasChunks w' st context := by
  obtain ⟨bundle, hbundle, hid, chunks, hload, hchunks⟩ := h
  exact ⟨bundle, hp.bundles _ hbundle, hid, chunks, (hp.chunks hbundle).trans hload, hchunks⟩

theorem Governs.passed {bundleId : UUID} {bundle : FrozenEvidenceBundle}
    (h : Governs run w bundleId bundle) (hp : Passed w cs w') :
    Governs run w' bundleId bundle := by
  obtain ⟨⟨row, hrow, rfl, hrun⟩, hload, hne, hlabels, hrows, hshown⟩ := h
  refine ⟨⟨row, hp.bundles _ hrow, rfl, hrun⟩, (hp.governed hrow).trans hload, hne, hlabels,
    fun item hitem => ?_, hshown.passed hp⟩
  obtain ⟨own, hown, hof⟩ := hrows item hitem
  exact ⟨own, hp.snapshots _ hown, hof⟩

theorem HasBundle.passed (h : HasBundle run w st) (hp : Passed w cs w') : HasBundle run w' st := by
  obtain ⟨hproject, id, bundle, hid, hgoverns⟩ := h
  exact ⟨hproject, id, bundle, hid, hgoverns.passed hp⟩

theorem Unanswered.quiet (h : Unanswered run w) (hq : Quiet w w') : Unanswered run w' :=
  ⟨hq.answers ▸ h.ok, hq.answers ▸ h.absent, hq.guardResults ▸ h.refused⟩

theorem Counts.quiet {n : QaNode} (h : Counts w st n) (hq : Quiet w w') : Counts w' st n := by
  cases n
  case refuse | clarify_project => exact ⟨hq.retrievals ▸ h.1, hq.gradings ▸ h.2, hq.drafts ▸ h.3⟩
  all_goals
    unfold Counts at h ⊢
    rw [hq.retrievals, hq.gradings, hq.drafts]
    exact h

theorem Counts.bounded {n : QaNode} (h : Counts w st n) : Bounded w := by
  cases n
  case refuse | clarify_project => exact h
  all_goals
    unfold Counts at h
    exact ⟨by omega, by omega, by omega⟩

/-- With two rounds behind it, the node that retrieves does not. -/
theorem Counts.room {n : QaNode} (h : Counts w st n) (hn : n = .retrieve → st.rounds ≤ 1) :
    Room n w := by
  have hb := h.bounded
  cases n
  case refuse | clarify_project => exact ⟨hb.retrievals, hb.gradings, hb.drafts⟩
  case retrieve =>
    unfold Counts at h
    have hrounds := hn rfl
    exact
      ⟨by
      simp only [QaNode.may]; omega, by
      simp only [QaNode.may]; omega, by simp only [QaNode.may]; omega⟩
  all_goals
    unfold Counts at h
    exact
      ⟨by
      simp only [QaNode.may]; omega, by
      simp only [QaNode.may]; omega, by simp only [QaNode.may]; omega⟩

theorem At.start {n : QaNode} (h : At run n st w) (hn : n ≠ .retrieve := by decide) :
    Reached run n w [] w :=
  .start (h.counts.room fun heq => absurd heq hn) h.prompted
    (Evidence.citationsOf_none h.unanswered.absent)

theorem Unanswered.passed (h : Unanswered run w) (hp : Passed w cs w')
    (hanswers : cs.all (!·.isAnswer) = true) (hresults : cs.filterMap (·.guardResult?) = []) :
    Unanswered run w' := by
  have hsame : w'.guardResults = w.guardResults := by
    rw [hp.guardResults, hresults, List.nil_append]
  exact ⟨hp.answers hanswers ▸ h.ok, hp.answers hanswers ▸ h.absent, hsame ▸ h.refused⟩

/-- A node is left that has kept no result and no answer. -/
theorem At.leaveAsked {n n' : QaNode} {st' : AgentState} (h : At run n st w)
    (hr : Reached run n w cs w') (hrun : st'.runId = st.runId) (huser : st'.userId = st.userId)
    (hfacts : Known run w' st' n') (hcounts : Counts w' st' n')
    (hanswers : cs.all (!·.isAnswer) = true := by rfl)
    (hresults : cs.filterMap (·.guardResult?) = [] := by rfl) :
    At run n' st' w' :=
  ⟨hrun.trans h.ownRun, huser.trans h.ownUser, hfacts, hcounts, hr.prompted,
    h.unanswered.passed hr.passed hanswers hresults⟩

/-- A node that has asked for nothing is left. -/
theorem At.leave {n n' : QaNode} {st' : AgentState} (h : At run n st w) (hr : Reached run n w cs w')
    (hrun : st'.runId = st.runId) (huser : st'.userId = st.userId) (hfacts : Known run w' st' n')
    (hcounts : Counts w st' n') (hcs : cs.all (·.plain) = true := by rfl) : At run n' st' w' :=
  ⟨hrun.trans h.ownRun, huser.trans h.ownUser, hfacts, hcounts.quiet (hr.passed.quiet hcs),
    hr.prompted,
    h.unanswered.quiet (hr.passed.quiet hcs)⟩

end ProjectAgent.Agent
