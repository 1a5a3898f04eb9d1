/-
What each node of the question answering graph leaves known, up to the one
that retrieves.
-/
import ProjectAgent.Agent.Facts

namespace ProjectAgent.Agent

open Evidence (AuthorizedProjectContext KnowledgeChunk)
open Identifiers (QueryAnalysis QueryExactIdentifier)
open Interleave
open Runs (RunRecord)

variable {sha256 : String → String} {deps : Deps} {w w₀ w' : World} {cs : List Call}
  {run : RunRecord} {st : AgentState}
  {context : AuthorizedProjectContext}

/-- What is known when the node is left. -/
abbrev Left (deps : Deps) (run : RunRecord) (n : QaNode) (st : AgentState) :
    Except AgentError AgentState → World → Prop :=
  (projectQaGraph deps).Leaves (At run) rank (Post run) n st

theorem Left.raise {n : QaNode} (e : AgentError) (w : World) (h : Escaped run e w) :
    Left deps run n st (.error e) w :=
  h

theorem required_bind {α β : Type} {key : String} {found : Option α} {a : α} (h : found = some a)
    (f : α → Node β) :
    (required key found).bind f = f a := by
  rw [h]
  rfl

/-! ## What is kept is there -/

theorem Answers.recorded {runId id : UUID} {modelAlias : String} {snapshot : PromptSnapshot}
    (h : Answers sha256 (.recordPromptSnapshot runId modelAlias snapshot) w (.ok id) w') :
    w'.artifacts id = some (.promptSnapshot snapshot) := by
  obtain ⟨library, w₁, -, rfl, -, rfl⟩ := h
  exact Function.update_self ..

theorem Answers.saved {runId id : UUID} {artifact : Artifact}
    (h : Answers sha256 (.saveArtifact runId artifact) w (.ok id) w') :
    w'.artifacts id = some artifact := by
  obtain ⟨library, w₁, -, rfl, -, rfl⟩ := h
  exact Function.update_self ..

/-! ## The query -/

theorem load_prompt_left (h : At run .load_prompt st w) :
    Prog.Ends (Answers sha256) (Left deps run .load_prompt st)
      (loadPromptSnapshotNode deps st) w := by
  simp only [loadPromptSnapshotNode, Prog.bind_eq, Prog.pure_eq, required_bind h.ownRun]
  refine h.start.said Left.raise fun snapshot w₁ _ h₁ => ?_
  refine h₁.said Left.raise fun id w₂ hx h₂ => ?_
  exact ⟨h.leave h₂ rfl rfl ⟨⟨id, snapshot, rfl, hx.recorded⟩, h.facts⟩ h.counts, by simp [rank]⟩

theorem analyze_query_left (h : At run .analyze_query st w) :
    Prog.Ends (Answers sha256) (Left deps run .analyze_query st) (analyzeQueryNode deps st) w := by
  simp only [analyzeQueryNode, Prog.bind_eq, Prog.pure_eq, required_bind h.ownRun]
  refine h.start.said Left.raise fun query w₁ hquery h₁ => ?_
  obtain ⟨library, _, -, -, hblank, -⟩ := hquery
  unfold analyze
  rw [if_neg hblank]
  refine h₁.said Left.raise fun id w₂ hx h₂ => ?_
  obtain ⟨hprompt, hproject⟩ := h.facts
  exact ⟨h.leave h₂ rfl rfl ⟨hprompt.passed h₂.passed, ⟨id, _, rfl, hx.saved⟩,
    hproject⟩ h.counts, by simp [rank]⟩

/-! ## The project -/

/-- The project that is asked for is selected, or the question is whose it is, or it is refused. -/
theorem selectProject_requested (memberships : List ProjectMembership) (analysis : QueryAnalysis)
    (projectId : UUID) :
    (selectProject memberships analysis (some projectId)).selectedProjectId = some projectId ∨
      (selectProject memberships analysis (some projectId)).route = "clarification" ∨
      (selectProject memberships analysis (some projectId)).route = "refusal" := by
  unfold selectProject
  dsimp only
  split
  · exact .inr (.inr rfl)
  · split
    · exact .inr (.inl rfl)
    · exact .inl rfl

theorem select_project_left (h : At run .select_project st w) :
    Prog.Ends (Answers sha256) (Left deps run .select_project st) (selectProjectNode st) w := by
  obtain ⟨hprompt, ⟨analysisId, analysis, hid, hanalysis⟩, hrequested⟩ := h.facts
  simp only [selectProjectNode, Prog.bind_eq, Prog.pure_eq, required_bind h.ownRun,
    required_bind h.ownUser, required_bind hid]
  refine h.start.loadedAs Left.raise hanalysis rfl fun w₁ h₁ => ?_
  refine h₁.said Left.raise fun memberships w₂ _ h₂ => ?_
  refine h₂.said Left.raise fun id w₃ hx h₃ => ?_
  rw [hrequested] at hx ⊢
  have hselected := selectProject_requested memberships analysis run.projectId
  generalize selectProject memberships analysis (some run.projectId) = selection at hselected hx ⊢
  have hcounts := h.counts
  unfold Counts at hcounts
  have hbounded : Bounded w := ⟨by omega, by omega, by omega⟩
  show StateGraph.Leaves _ _ _ _ _ _ (.ok _) w₃
  unfold StateGraph.Leaves
  simp only [projectQaGraph, QaNode.next, Option.some.injEq]
  by_cases hclarify : selection.route = "clarification"
  · rw [if_pos hclarify]
    exact ⟨h.leave h₃ rfl rfl ⟨id, selection, rfl, hx.saved⟩ hbounded, by simp [rank]⟩
  · rw [if_neg hclarify]
    by_cases hrefuse : selection.route = "refusal"
    · rw [if_pos hrefuse]
      exact ⟨h.leave h₃ rfl rfl trivial hbounded, by simp [rank]⟩
    · rw [if_neg hrefuse]
      have hproject : selection.selectedProjectId = some run.projectId :=
        hselected.resolve_right fun hnot => hnot.elim hclarify hrefuse
      exact ⟨h.leave h₃ rfl rfl
        ⟨hprompt.passed h₃.passed, ⟨analysisId, analysis, hid, h₃.passed.artifacts _ _ hanalysis⟩,
          hproject⟩ h.counts,
        by simp [rank]⟩

theorem resolve_scope_left (h : At run .resolve_scope st w) :
    Prog.Ends (Answers sha256) (Left deps run .resolve_scope st) (resolveScopeNode st) w := by
  obtain ⟨hprompt, hanalysis, hproject⟩ := h.facts
  unfold resolveScopeNode
  split
  · next hnone => cases hproject.symm.trans hnone
  next projectId hsome =>
  obtain rfl := Option.some.inj (hproject.symm.trans hsome)
  simp only [Prog.bind_eq, Prog.pure_eq, required_bind h.ownRun, required_bind h.ownUser]
  refine h.start.said Left.raise fun context w₁ hcontext h₁ => ?_
  refine h₁.said Left.raise fun id w₂ hx h₂ => ?_
  have hauthorized : w₂.Authorized run context := hx.passed.log.subset hcontext.noted
  exact ⟨h.leave h₂ rfl rfl ⟨hprompt.passed h₂.passed, hanalysis.passed h₂.passed, context,
    id, rfl, hx.saved, hproject, hauthorized⟩ h.counts, by simp [rank]⟩

/-! ## Identifiers -/

/-- A part of a node that asks for nothing: it fails as the node does, or goes on. -/
def Asks {α : Type} (run : RunRecord) (n : QaNode) (w₀ : World) (known : α → World → Prop) :
    Except AgentError α → World → Prop
  | .ok a, w => (∃ cs, cs.all (·.plain) = true ∧ Reached run n w₀ cs w) ∧ known a w
  | .error e, w => Escaped run e w

theorem Asks.raise {α : Type} {n : QaNode} {known : α → World → Prop} (e : AgentError) (w : World)
    (h : Escaped run e w) :
    Asks run n w₀ known (.error e) w := h

theorem all_plain_cons {c : Call} (hc : c.plain = true) (hcs : cs.all (·.plain) = true) :
    (c :: cs).all (·.plain) = true := by
  rw [List.all_cons, hc, hcs]
  rfl

theorem resolveExact_asks {n : QaNode} (projectId : UUID) (allowed : List UUID)
    (identifiers : List QueryExactIdentifier) (h : Reached run n w₀ cs w)
    (hcs : cs.all (·.plain) = true) :
    Prog.Ends (Answers sha256) (Asks run n w₀ fun _ _ => True)
      (resolveExact projectId allowed identifiers) w := by
  induction identifiers generalizing cs w with
  | nil => exact ⟨⟨cs, hcs, h⟩, trivial⟩
  | cons identifier rest ih =>
    unfold resolveExact
    have hnext :=
      all_plain_cons (c := .findExact projectId identifier.identifierType
      identifier.normalizedValue) rfl hcs
    refine h.said Asks.raise (fun hits w₁ _ h₁ => ?_) rfl rfl (within_plain hnext)
    exact (ih h₁ hnext).bind (fun _ _ hrest => hrest) fun _ _ hescaped => hescaped

theorem resolve_identifiers_left (h : At run .resolve_identifiers st w) :
    Prog.Ends (Answers sha256) (Left deps run .resolve_identifiers st)
      (resolveIdentifiersNode deps st) w := by
  obtain ⟨hprompt, ⟨analysisId, analysis, hid, hanalysis⟩, context, hscope⟩ := h.facts
  obtain ⟨scopeId, hscopeId, hcontext, hproject, -⟩ := id hscope
  simp only [resolveIdentifiersNode, Prog.bind_eq, Prog.pure_eq, required_bind h.ownRun,
    required_bind hid, required_bind hscopeId,
    required_bind hproject]
  refine h.start.loadedAs Left.raise hanalysis rfl fun w₁ h₁ => ?_
  refine h₁.loadedAs Left.raise (h₁.passed.artifacts _ _ hcontext) rfl fun w₂ h₂ => ?_
  refine (resolveExact_asks run.projectId
    (context.scope.allowedDocumentVersionIds.getD []) _ h₂ rfl).bind
    (fun resolved w₃ hresolved => ?_) Left.raise
  obtain ⟨⟨cs, hcs, h₃⟩, -⟩ := hresolved
  refine h₃.said Left.raise (fun planId w₄ hx h₄ => ?_) rfl rfl
    (within_plain (all_plain_cons rfl hcs))
  obtain ⟨hretrievals, hgradings, hdrafts⟩ := h.counts
  refine ⟨h.leave h₄ rfl rfl ⟨hprompt.passed h₄.passed, ⟨planId, _, rfl, hx.saved⟩, context,
    hscope.passed h₄.passed⟩ ?_
    (all_plain_cons rfl hcs), ?_⟩
  · rw [Counts, hretrievals, hgradings]
    exact ⟨Nat.zero_le _, Nat.zero_le _, Nat.zero_le _, Nat.zero_le _, hdrafts⟩
  · simp only [rank]
    split <;> omega

end ProjectAgent.Agent
