/-
The question answering graph is bounded, and answers through the guard only:
what it ends with, from a state no run has left anything in.
-/
import ProjectAgent.Agent.Gathered
import ProjectAgent.Agent.Script

namespace ProjectAgent.Agent

open Evidence (AuthorizedProjectContext FrozenEvidenceBundle GroundedAnswerDraft)
open Interleave
open Runs (RunRecord)

variable {sha256 : String → String} {deps : Deps} {w w₀ w' : World} {cs : List Call}
  {run : RunRecord} {st : AgentState} {n : QaNode}
  {context : AuthorizedProjectContext}

/-! ## Drafts -/

theorem within_draft (hn : n.may = (0, 0, 1)) (hcs : cs.all (·.plain) = true)
    (request : StructuredLLMRequest) (post : List Call)
    (hpost : post.countP (·.isRetrieve) = 0 ∧ post.countP (·.isGrade) = 0 ∧
      post.countP (·.isDraft) = 0 ∧ post.all (!·.isAnswer) = true) :
    within n (post ++ .draftAnswer request :: cs) = true := by
  have hall : (post ++ .draftAnswer request :: cs).all (!·.isAnswer) = true := by
    rw [List.all_append, List.all_cons, hpost.2.2.2, unanswered_plain hcs]
    rfl
  have htail : (post ++ .draftAnswer request :: cs).tail.all (!·.isAnswer) = true :=
    List.all_eq_true.mpr fun c hc => List.all_eq_true.mp hall c (List.mem_of_mem_tail hc)
  unfold within
  rw [htail]
  rw [hn]
  simp only [List.countP_append, List.countP_cons,
    countP_plain (fun c hc => (plain_iff.mp hc).1) hcs,
    countP_plain (fun c hc => (plain_iff.mp hc).2.1) hcs,
      countP_plain (fun c hc => (plain_iff.mp hc).2.2.1) hcs, hpost.1,
    hpost.2.1, hpost.2.2.1]
  rfl

theorem Passed.drafted {runId : UUID} {draft : GroundedAnswerDraft} {request : StructuredLLMRequest}
    (post : List Call)
    (hp : Passed w₀ (.saveArtifact runId (.answerDraft draft) ::
      (post ++ .draftAnswer request :: cs)) w)
    (hpost : post.all (·.plain) = true) (hcs : cs.all (·.plain) = true) :
    w.retrievals = w₀.retrievals ∧ w.gradings = w₀.gradings ∧ w.drafts = w₀.drafts + 1 ∧
      w.guardResults = w₀.guardResults ∧
      w.savedDrafts.head? = some draft ∧ w.answers = w₀.answers := by
  have hnone {β : Type} {f : Call → Option β} (hf : ∀ c : Call, c.plain = true → f c = none)
    {cs : List Call}
      (hcs : cs.all (·.plain) = true) : cs.filterMap f = [] :=
    List.filterMap_eq_nil_iff.mpr fun c hc => hf c (List.all_eq_true.mp hcs c hc)
  refine ⟨?_, ?_, ?_, ?_, ?_, hp.answers ?_⟩
  · rw [hp.retrievals, List.countP_cons, List.countP_append, List.countP_cons,
      countP_plain (fun c hc => (plain_iff.mp hc).1) hcs,
        countP_plain (fun c hc => (plain_iff.mp hc).1) hpost]
    simp [Call.isRetrieve]
  · rw [hp.gradings, List.countP_cons, List.countP_append, List.countP_cons,
      countP_plain (fun c hc => (plain_iff.mp hc).2.1) hcs,
        countP_plain (fun c hc => (plain_iff.mp hc).2.1) hpost]
    simp [Call.isGrade]
  · rw [hp.drafts, List.countP_cons, List.countP_append, List.countP_cons,
      countP_plain (fun c hc => (plain_iff.mp hc).2.2.1) hcs,
        countP_plain (fun c hc => (plain_iff.mp hc).2.2.1) hpost]
    simp [Call.isDraft, Nat.add_comm]
  · rw [hp.guardResults, List.filterMap_cons, List.filterMap_append, List.filterMap_cons,
      hnone (fun c hc => (plain_iff.mp hc).2.2.2.2.1) hcs,
        hnone (fun c hc => (plain_iff.mp hc).2.2.2.2.1) hpost]
    rfl
  · rw [hp.savedDrafts]
    rfl
  · rw [List.all_cons, List.all_append, List.all_cons, unanswered_plain hpost, unanswered_plain hcs]
    rfl

/-- What a draft leaves: it was asked for once, and is the last one kept. -/
structure Drafted (run : RunRecord) (n : QaNode) (w₀ : World) (id : UUID) (w : World) : Prop where
  reached : ∃ cs, Reached run n w₀ cs w
  draft : ∃ draft, w.artifacts id = some (.answerDraft draft) ∧ w.savedDrafts.head? = some draft
  retrievals : w.retrievals = w₀.retrievals
  gradings : w.gradings = w₀.gradings
  drafts : w.drafts = w₀.drafts + 1
  guardResults : w.guardResults = w₀.guardResults
  answers : w.answers = w₀.answers

def Drafts (run : RunRecord) (n : QaNode) (w₀ : World) : Except AgentError UUID → World → Prop
  | .ok id, w => Drafted run n w₀ id w
  | .error e, w => Escaped run e w

theorem Drafts.raise (e : AgentError) (w : World) (h : Escaped run e w) :
    Drafts run n w₀ (.error e) w :=
  h

theorem generateDraft_ends (st : AgentState) (hn : n.may = (0, 0, 1))
    (hrun : st.runId = some run.id) (hprompt : HasPrompt w₀ st) (hbundle : HasBundle run w₀ st)
    (h : Reached run n w₀ cs w) (hcs : cs.all (·.plain) = true) {errors : List String}
    (herrors : errors = [] ∨ ∃ result ∈ w₀.guardResults, errors = result.errors) :
    Prog.Ends (Answers sha256) (Drafts run n w₀) (generateDraft deps st errors) w := by
  obtain ⟨promptId, snapshot, hpromptId, hsnapshot⟩ := hprompt
  obtain ⟨hproject, bundleId, bundle, hbundleId, hgoverns⟩ := hbundle
  simp only [generateDraft, Prog.bind_eq, required_bind hrun, required_bind hpromptId,
    required_bind hbundleId,
    required_bind hproject]
  have hcs₁ := all_plain_cons (c := .loadQuery run.id) rfl hcs
  refine h.said Drafts.raise (fun query w₁ hquery h₁ => ?_) rfl rfl (within_plain hcs₁)
  have hcs₂ := all_plain_cons (c := .loadArtifact promptId) rfl hcs₁
  refine h₁.loaded Drafts.raise (h₁.passed.artifacts _ _ hsnapshot) (fun w₂ hlog₂ h₂ => ?_)
    (within_plain hcs₂)
  have hcs₃ := all_plain_cons (c := .loadGovernedEvidenceBundle bundleId) rfl hcs₂
  refine h₂.loadedGoverned Drafts.raise (hgoverns.passed h₂.passed).loads (fun w₃ hlog₃ h₃ => ?_)
    (within_plain hcs₃)
  rw [if_neg fun hempty => hgoverns.nonempty (List.isEmpty_iff.mp hempty)]
  refine h₃.called Drafts.raise nofun (fun request heq => ?_)
    (within_draft hn hcs₃ _ [] ⟨rfl, rfl, rfl, rfl⟩) fun draft w₄ _ h₄ => ?_
  · obtain rfl := Call.draftAnswer.inj heq
    refine ⟨query, bundle, errors, hlog₃.subset (hlog₂.subset hquery.noted),
      (hgoverns.passed h₃.passed).shown,
      herrors.imp_right fun ⟨result, hresult, heq⟩ => ?_, rfl⟩
    exact ⟨result, h₃.passed.guardResults ▸ List.mem_append_right _ hresult, heq⟩
  refine h₄.said Drafts.raise (fun usage w₅ _ h₅ => ?_) rfl rfl
    (within_draft hn hcs₃ _ [_] ⟨rfl, rfl, rfl, rfl⟩)
  refine h₅.said Drafts.raise (fun _ w₆ _ h₆ => ?_) rfl rfl
    (within_draft hn hcs₃ _ [_, _] ⟨rfl, rfl, rfl, rfl⟩)
  rw [← Prog.bind_ret (call _)]
  refine h₆.said Drafts.raise (fun id w₇ hx h₇ => ?_) rfl rfl
    (within_draft hn hcs₃ _ [_, _, _] ⟨rfl, rfl, rfl, rfl⟩)
  obtain ⟨hretrievals, hgradings, hdrafts, hresults, hkept, hanswers⟩ :=
    Passed.drafted [_, _] h₇.passed rfl hcs₃
  exact ⟨⟨_, h₇⟩, ⟨draft, hx.saved, hkept⟩, hretrievals, hgradings, hdrafts, hresults, hanswers⟩

/-- A draft is kept: the guard is next. -/
theorem At.drafted {n : QaNode} {st' : AgentState} {id : UUID} (h : At run n st w)
    (hd : Drafted run n w id w') (hrun : st'.runId = st.runId) (huser : st'.userId = st.userId)
    (hprompt : HasPrompt w' st') (hbundle : HasBundle run w' st')
    (hid : st'.answerDraftId = some id) (hdrafts : w.drafts ≤ st'.revisions) :
    At run .citation_guard st' w' := by
  obtain ⟨⟨cs, hr⟩, ⟨draft, hdraft, hlast⟩, hsame, hsame', hone, hresults, hanswers⟩ := hd
  have hbounded := hr.bounded
  refine ⟨hrun.trans h.ownRun, huser.trans h.ownUser,
    ⟨hprompt, hbundle, id, draft, hid, hdraft, hlast⟩,
    ⟨hbounded.retrievals, hbounded.gradings, by omega, hbounded.drafts⟩, hr.prompted, ?_⟩
  exact ⟨hanswers ▸ h.unanswered.ok, hanswers ▸ h.unanswered.absent,
    hresults ▸ h.unanswered.refused⟩

theorem generate_answer_left (h : At run .generate_answer st w) :
    Prog.Ends (Answers sha256) (Left deps run .generate_answer st)
      (generateAnswerNode deps st) w := by
  obtain ⟨hprompt, hbundle⟩ := h.facts
  obtain ⟨-, -, hdrafts⟩ := h.counts
  simp only [generateAnswerNode, Prog.bind_eq, Prog.pure_eq]
  refine (generateDraft_ends st rfl h.ownRun hprompt hbundle h.start rfl (.inl rfl)).bind
    (fun id w' hdrafted => ?_) Left.raise
  have hdrafted : Drafted run .generate_answer w id w' := hdrafted
  obtain ⟨cs, hr⟩ := hdrafted.reached
  refine ⟨h.drafted hdrafted rfl rfl (hprompt.passed hr.passed)
    (hbundle.passed hr.passed) rfl ?_, ?_⟩
  · rw [hdrafts]
    exact Nat.zero_le _
  · show (if st.revisions = 0 then 3 else 1) < 4
    split <;> omega

theorem revise_answer_left (h : At run .revise_answer st w) :
    Prog.Ends (Answers sha256) (Left deps run .revise_answer st) (reviseAnswerNode deps st) w := by
  obtain ⟨hprompt, hbundle, guardId, result, hguardId, hguard, hresult⟩ := h.facts
  obtain ⟨-, -, hdrafts, hrevisions⟩ := h.counts
  simp only [reviseAnswerNode, Prog.bind_eq, Prog.pure_eq, required_bind hguardId]
  rw [if_neg (by omega)]
  refine h.start.loaded Left.raise hguard fun w₁ _ h₁ => ?_
  refine (generateDraft_ends { st with
    revisionCount := some (st.revisions + 1) } rfl h.ownRun hprompt hbundle h₁ rfl
    (.inr ⟨result, hresult, rfl⟩)).bind (fun id w' hdrafted => ?_) Left.raise
  have hdrafted : Drafted run .revise_answer w id w' := hdrafted
  obtain ⟨cs, hr⟩ := hdrafted.reached
  refine ⟨h.drafted hdrafted rfl rfl (hprompt.passed hr.passed)
    (hbundle.passed hr.passed) rfl ?_, ?_⟩
  · show w.drafts ≤ st.revisions + 1
    rw [hrevisions]
    exact hdrafts
  · show (if st.revisions + 1 = 0 then 3 else 1) < 2
    split <;> omega

/-! ## The guard -/

/-- The labels of a pack are cited by their numbers. -/
theorem grounded_ok {bundle : FrozenEvidenceBundle} {labels : List String}
    (hlabels : ∀ item ∈ bundle.evidence, ∃ n, item.label = Evidence.labelOf n)
    (hused : ∀ label ∈ labels, ∃ item, bundle.byLabel label = some item) :
    ∃ grounded, Evidence.grounded bundle labels = .ok grounded := by
  have hall : ∃ citations, labels.mapM (Evidence.citation bundle) = .ok citations := by
    refine Fallible.mapM_exists fun label hlabel => ?_
    obtain ⟨item, hitem⟩ := hused label hlabel
    obtain ⟨hmem, rfl⟩ := Evidence.CitationGuard.byLabel_mem hitem
    obtain ⟨n, hn⟩ := hlabels item hmem
    have hnumber : String.ofList (item.label.toList.drop 1) = toString n := by
      rw [hn, Evidence.labelOf, String.toList_append]
      exact String.ofList_toList
    unfold Evidence.citation
    rw [hnumber, Evidence.intOfText_toString, hitem]
    exact ⟨_, rfl⟩
  obtain ⟨citations, hcitations⟩ := hall
  unfold Evidence.grounded
  split
  · next herror =>
    rw [hcitations] at herror
    cases herror
  · exact ⟨_, rfl⟩

theorem grounded_bundle {bundle : FrozenEvidenceBundle} {labels : List String}
    {grounded : Evidence.Grounded} (h : Evidence.grounded bundle labels = .ok grounded) :
    grounded.bundle = bundle := by
  unfold Evidence.grounded at h
  split at h
  · cases h
  · obtain rfl := Except.ok.inj h
    rfl

theorem citation_guard_left (h : At run .citation_guard st w) :
    Prog.Ends (Answers sha256) (Left deps run .citation_guard st) (citationGuardNode st) w := by
  obtain ⟨hprompt, hbundle, draftId, draft, hdraftId, hdraft, hlast⟩ := h.facts
  obtain ⟨hproject, bundleId, bundle, hbundleId, hgoverns⟩ := id hbundle
  obtain ⟨hretrievals, hgradings, hdrafts, hdrafts'⟩ := h.counts
  simp only [citationGuardNode, Prog.bind_eq, Prog.pure_eq, required_bind h.ownRun,
    required_bind hproject,
    required_bind hdraftId, required_bind hbundleId]
  refine h.start.loadedAs Left.raise hdraft rfl fun w₁ h₁ => ?_
  refine h₁.loadedGoverned Left.raise (hgoverns.passed h₁.passed).loads fun w₂ _ h₂ => ?_
  generalize hresult : Evidence.CitationGuard.validate bundle run.projectId draft = result
  refine h₂.said Left.raise fun guardId w₃ hx h₃ => ?_
  have hresults : w₃.guardResults = result :: w.guardResults := h₃.passed.guardResults
  have hunanswered (hinvalid : result.valid = false) : Unanswered run w₃ := by
    have hanswers : w₃.answers = w.answers := h₃.passed.answers rfl
    refine ⟨hanswers ▸ h.unanswered.ok, hanswers ▸ h.unanswered.absent, fun result' hresult' => ?_⟩
    rw [hresults] at hresult'
    rcases List.mem_cons.mp hresult' with rfl | hresult'
    · exact hinvalid
    · exact h.unanswered.refused result' hresult'
  have hsame : w₃.retrievals = 0 + w.retrievals := h₃.passed.retrievals
  have hsame' : w₃.gradings = 0 + w.gradings := h₃.passed.gradings
  have hsame'' : w₃.drafts = 0 + w.drafts := h₃.passed.drafts
  split
  · next hvalid =>
    have hused : ∀ label ∈ result.usedEvidenceIds, ∃ item, bundle.byLabel label = some item := by
      intro label hlabel
      rw [← hresult] at hlabel hvalid
      obtain ⟨item, hitem, -⟩ := Evidence.CitationGuard.validate_used hvalid hlabel
      exact ⟨item, hitem⟩
    obtain ⟨grounded, hgrounded⟩ := grounded_ok hgoverns.labels hused
    rw [hgrounded]
    refine h₃.said Left.raise fun answerId w₄ hanswer h₄ => ?_
    have hanswers : w₃.answers = w.answers := h₃.passed.answers rfl
    have hresults₄ : w₄.guardResults = w₃.guardResults := hanswer.passed.guardResults
    have hdrafts₄ : w₄.savedDrafts = w.savedDrafts := h₄.passed.savedDrafts
    obtain ⟨library, w', -, rfl, newId, answers, hsave, rfl⟩ := hanswer
    obtain ⟨-, hanswerOf, hcitations⟩ :=
      Evidence.saveGroundedAnswer_saved (hanswers ▸ h.unanswered.ok) hsave
    refine ⟨h₄.bounded, h₄.prompted,
      .inl ⟨rfl, draft, bundleId, bundle, grounded, answerId, ?_, ?_, ?_, ?_, ?_, rfl,
      hanswerOf, hcitations⟩⟩
    · rw [hdrafts₄]
      exact hlast
    · exact hgoverns.passed h₄.passed
    · rw [hresults₄, hresults, hresult]
      rfl
    · rw [hresult]
      exact hvalid
    · rw [hresult]
      exact hgrounded
  · next hinvalid =>
    have hinvalid : result.valid = false := Bool.eq_false_iff.mpr hinvalid
    split
    · next hfirst =>
      have hfirst : st.revisions < 1 := hfirst
      refine ⟨⟨h.ownRun, h.ownUser,
        ⟨hprompt.passed h₃.passed, hbundle.passed h₃.passed, guardId, result, rfl, hx.saved,
          hresults ▸ List.mem_cons_self⟩, ?_,
        h₃.prompted, hunanswered hinvalid⟩, ?_⟩
      · have hnone : st.revisions = 0 := by omega
        exact ⟨by omega, by omega, by omega, hnone⟩
      · show 2 < if st.revisions = 0 then 3 else 1
        split <;> omega
    · refine ⟨⟨h.ownRun, h.ownUser, trivial, ⟨by omega, by omega, by omega⟩, h₃.prompted,
        hunanswered hinvalid⟩, ?_⟩
      show 0 < if st.revisions = 0 then 3 else 1
      split <;> omega

/-! ## No answer -/

/-- A reason is kept where there is no answer yet. -/
theorem At.refused {n : QaNode} {st' : AgentState} {answerText refusalReason : String}
    {answerId : UUID} (h : At run n st w₀) (hr : Reached run n w₀ cs w)
    (hcs : cs.all (·.plain) = true)
    (hx : Answers sha256 (.saveAnswer run.id answerText (some refusalReason)) w (.ok answerId) w')
    (hr' : Reached run n w₀ (.saveAnswer run.id answerText (some refusalReason) :: cs) w')
    (hroute : st'.route = some "refusal" ∨ st'.route = some "clarification")
    (hid : st'.answerId = some answerId) :
    Post run (.ok st') w' := by
  have hunanswered := h.unanswered.quiet (hr.passed.quiet hcs)
  have hresults : w'.guardResults = w.guardResults := hx.passed.guardResults
  obtain ⟨library, w₁, -, rfl, newId, answers, hsave, rfl⟩ := hx
  have hsaved := Evidence.saveAnswer_saved hunanswered.ok hsave
  refine ⟨hr'.bounded, hr'.prompted,
    .inr ⟨hroute, hresults ▸ hunanswered.refused, answerId, answerText, refusalReason, hid,
    hsaved.answer, ?_⟩⟩
  exact hsaved.citationsOf.trans (Evidence.citationsOf_none hunanswered.absent)

theorem refuse_left (h : At run .refuse st w) :
    Prog.Ends (Answers sha256) (Left deps run .refuse st) (refuseNode st) w := by
  simp only [refuseNode, Prog.bind_eq, Prog.pure_eq, required_bind h.ownRun]
  refine h.start.said Left.raise fun answerId w' hx h' => ?_
  exact h.refused h.start rfl hx h' (.inl rfl) rfl

theorem clarify_project_left (h : At run .clarify_project st w) :
    Prog.Ends (Answers sha256) (Left deps run .clarify_project st) (clarifyProjectNode st) w := by
  obtain ⟨selectionId, selection, hid, hselection⟩ := h.facts
  simp only [clarifyProjectNode, Prog.bind_eq, Prog.pure_eq, required_bind h.ownRun,
    required_bind hid]
  refine h.start.loadedAs Left.raise hselection rfl fun w₁ h₁ => ?_
  refine h₁.said Left.raise fun answerId w₂ hx h₂ => ?_
  exact h.refused h₁ rfl hx h₂ (.inr rfl) rfl

/-! ## The graph -/

/-- **What each node leaves is known at the next one.** -/
theorem node_left (h : At run n st w) :
    Prog.Ends (Answers sha256) (Left deps run n st) (n.run deps st) w := by
  cases n with
  | load_prompt => exact load_prompt_left h
  | analyze_query => exact analyze_query_left h
  | select_project => exact select_project_left h
  | resolve_scope => exact resolve_scope_left h
  | resolve_identifiers => exact resolve_identifiers_left h
  | retrieve => exact retrieve_left h
  | grade_retrieval => exact grade_retrieval_left h
  | govern_evidence => exact govern_evidence_left h
  | generate_answer => exact generate_answer_left h
  | citation_guard => exact citation_guard_left h
  | revise_answer => exact revise_answer_left h
  | refuse => exact refuse_left h
  | clarify_project => exact clarify_project_left h

/-- The run has not been executed yet: nothing of it has been called, and it has no answer. -/
structure Fresh (run : RunRecord) (w : World) : Prop where
  uncalled : w.log = []
  ok : w.answers.Ok
  absent : w.answers.answerOf run.id = none

theorem Sample.fresh : Fresh Sample.run Sample.world :=
  ⟨rfl, ⟨.nil, .nil, by simp [Sample.world]⟩, rfl⟩

/-- **The graph ends**, whatever earlier runs have left in the thread's checkpoint, and fails only
if one of its calls does. -/
theorem executeQa_ends {recursionLimit : Nat} (hlimit : 15 ≤ recursionLimit)
    (checkpoint : AgentState) (hfresh : Fresh run w) :
    Prog.Ends (Answers sha256) (Post run) (executeQa deps recursionLimit checkpoint run) w := by
  have hcalls : w.calls = [] := congrArg (List.map _) hfresh.uncalled
  refine StateGraph.invoke_ends_of_rank (fun n st w (h : At run n st w) => node_left h) ?_
    (show 14 < recursionLimit by omega)
  refine ⟨rfl, rfl, rfl, ⟨?_, ?_, ?_⟩, fun request hrequest => ?_, hfresh.ok, hfresh.absent,
    fun result hresult => ?_⟩
  · unfold World.retrievals
    rw [hcalls]
    rfl
  · unfold World.gradings
    rw [hcalls]
    rfl
  · unfold World.drafts
    rw [hcalls]
    rfl
  · rw [hcalls] at hrequest
    cases hrequest
  · unfold World.guardResults at hresult
    rw [hcalls] at hresult
    cases hresult

/-- How the graph ends: at most two retrievals, two gradings and two drafts are asked for; the run
is answered if the last draft the guard was given has passed, and then with that draft, and refused
or asked back otherwise. -/
structure BoundedAndGuarded (run : RunRecord) (r : Except AgentError AgentState)
    (w : World) : Prop where
  bounded : Bounded w
  ends : ∀ e, r = .error e → Failed w e
  answered_iff : ∀ st, r = .ok st →
    (st.route = some "answered" ↔ ∃ result, w.guardResults.head? = some result ∧
      result.valid = true)
  answered : ∀ st, r = .ok st → st.route = some "answered" → Answered run st w
  refused : ∀ st, r = .ok st → st.route ≠ some "answered" → Refused run st w

theorem Post.boundedAndGuarded {r : Except AgentError AgentState} (h : Post run r w) :
    BoundedAndGuarded run r w := by
  cases r with
  | error e =>
    have hescaped : Escaped run e w := h
    refine ⟨hescaped.bounded, fun e' heq => ?_, fun st heq => ?_, fun st heq => ?_,
      fun st heq => ?_⟩
    · obtain rfl := Except.error.inj heq
      exact hescaped.failed
    · cases heq
    · cases heq
    · cases heq
  | ok st =>
    obtain ⟨hbounded, -, hend⟩ := h
    have hnot (hr : Refused run st w) : st.route ≠ some "answered" := fun heq => by
      rcases hr.route with hroute | hroute
      · exact absurd (Option.some.inj (hroute.symm.trans heq)) (by decide)
      · exact absurd (Option.some.inj (hroute.symm.trans heq)) (by decide)
    refine ⟨hbounded, fun e heq => ?_, fun st' heq => ?_, fun st' heq hroute => ?_,
      fun st' heq hroute => ?_⟩
    · cases heq
    · obtain rfl := Except.ok.inj heq
      rcases hend with ha | hr
      · obtain ⟨hroute, draft, bundleId, bundle, grounded, answerId, -, -, hlast, hvalid, -⟩ := ha
        exact ⟨fun _ => ⟨_, hlast, hvalid⟩, fun _ => hroute⟩
      · refine ⟨fun hroute => absurd hroute (hnot hr), fun ⟨result, hlast, hvalid⟩ => ?_⟩
        rw [hr.refused result (List.mem_of_head? hlast)] at hvalid
        cases hvalid
    · obtain rfl := Except.ok.inj heq
      exact hend.resolve_right fun hr => hnot hr hroute
    · obtain rfl := Except.ok.inj heq
      exact hend.resolve_left fun ha => hroute ha.route

/-- **The graph is bounded and answers through the guard only**: from a state no run has left
anything in, whatever the provider returns and the model grades and drafts. -/
theorem graph_bounded_and_guarded (deps : Deps) (run : RunRecord) {recursionLimit : Nat}
    (hlimit : 15 ≤ recursionLimit) {w : World} (hfresh : Fresh run w) :
    Prog.Ends (Answers sha256) (BoundedAndGuarded run)
      (executeQa deps recursionLimit .empty run) w :=
  (executeQa_ends hlimit .empty hfresh).mono fun _ _ h => h.boundedAndGuarded

/-- A run of two retrievals and two drafts is answered with the second draft. -/
theorem graph_bounded_and_guarded_sample :
    ∃ st w, Sample.executed = (.ok st, w) ∧ st.route = some "answered" ∧ w.retrievals = 2 ∧
    w.drafts = 2 ∧ BoundedAndGuarded Sample.run (.ok st) w := by
  have hguarded :=
    (graph_bounded_and_guarded Sample.deps Sample.run (le_refl 15) Sample.fresh).of_runs
    (Prog.runs_eval Sample.script.answer_answers _ _)
  have hroute : Sample.executed.1.toOption.bind (·.route) = some "answered" := by decide +kernel
  have hasked : Sample.executed.2.retrievals = 2 ∧ Sample.executed.2.drafts = 2 := by decide +kernel
  unfold Sample.executed at hroute hasked ⊢
  generalize Prog.eval Sample.script.answer _ _ = executed at hguarded hroute hasked ⊢
  obtain ⟨result, w⟩ := executed
  cases result with
  | error e => cases hroute
  | ok st => exact ⟨st, w, rfl, hroute, hasked.1, hasked.2, hguarded⟩

/-- The citation is of a snapshot of a bundle of the run, of an item that may be shown to the run's
user. -/
def Isolated (run : RunRecord) (w : World) (citation : Evidence.Citation) : Prop :=
  ∃ bundle ∈ w.evidence.bundles, bundle.runId = run.id ∧
    ∃ row ∈ w.evidence.snapshots, row.id = citation.evidenceSnapshotId ∧
    row.bundleId = bundle.id ∧ ∃ context versionId, w.Authorized run context ∧
      row.projectId = run.projectId ∧
    row.documentVersionId = some versionId ∧
    Admissible w run.projectId context versionId (Evidence.optionalStr row "knowledge_space_id")

/-- **Evidence is isolated**, whatever the documents, the provider and the model do, and whatever
earlier runs have left in the thread's checkpoint: what is cited is of the run's own evidence and
admissible to its user, and so is all that is shown to the model. -/
theorem evidence_isolated (deps : Deps) (run : RunRecord) (checkpoint : AgentState)
    {recursionLimit : Nat} (hlimit : 15 ≤ recursionLimit) {w : World} (hfresh : Fresh run w) :
    Prog.Ends (Answers sha256) (fun _ w' => Prompted run w' ∧
      ∀ citation ∈ w'.answers.citationsOf run.id, Isolated run w' citation)
      (executeQa deps recursionLimit checkpoint run) w := by
  refine (executeQa_ends hlimit checkpoint hfresh).mono fun r w' h => ?_
  cases r with
  | error e =>
    have hescaped : Escaped run e w' := h
    refine ⟨hescaped.prompted, fun citation hcitation => ?_⟩
    rw [hescaped.uncited] at hcitation
    cases hcitation
  | ok st =>
    obtain ⟨-, hprompted, hend⟩ := h
    refine ⟨hprompted, fun citation hcitation => ?_⟩
    rcases hend with ⟨-, draft, bundleId, bundle, grounded, answerId, -, hgoverns, -, -, hgrounded,
      -, -, hcitations⟩ | hr
    · rw [hcitations] at hcitation
      obtain ⟨reference, hreference, rfl⟩ := List.mem_map.mp hcitation
      obtain ⟨item, hitem, hid⟩ :=
        grounded.ofBundle reference (Evidence.mem_uniqueCitations hreference)
      rw [grounded_bundle hgrounded] at hitem
      obtain ⟨own, hown, rfl, hrun⟩ := hgoverns.own
      obtain ⟨row, hrow, hof⟩ := hgoverns.rows item hitem
      obtain ⟨context, hauthorized, hitems⟩ := hgoverns.shown
      obtain ⟨hproject, hadmissible⟩ := hitems item hitem
      exact ⟨own, hown, hrun, row, hrow, hof.id.trans hid, hof.bundle, context,
        item.documentVersionId, hauthorized,
        hof.project.trans hproject, hof.version, hof.space ▸ hadmissible⟩
    · obtain ⟨_, _, _, -, -, hnone⟩ := hr.stored
      rw [hnone] at hcitation
      cases hcitation

/-- The answer of the run cites one snapshot. -/
theorem evidence_isolated_sample :
    ∃ citation, Sample.executed.2.answers.citationsOf Sample.run.id = [citation] ∧
    Isolated Sample.run Sample.executed.2 citation := by
  obtain ⟨-, hisolated⟩ :=
    (evidence_isolated Sample.deps Sample.run .empty (le_refl 15) Sample.fresh).of_runs
    (Prog.runs_eval Sample.script.answer_answers _ _)
  have hone : (Sample.executed.2.answers.citationsOf Sample.run.id).length = 1 := by decide +kernel
  obtain ⟨citation, hcitation⟩ := List.length_eq_one_iff.mp hone
  exact ⟨citation, hcitation, hisolated citation (hcitation ▸ List.mem_singleton_self citation)⟩

end ProjectAgent.Agent
