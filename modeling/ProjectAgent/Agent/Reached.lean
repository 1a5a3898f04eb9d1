/-
What is known of the world after some calls of the graph: what was kept is
still kept, and the calls are those it has made. A call that fails leaves the
graph with what it failed with.
-/
import ProjectAgent.Agent.World

namespace ProjectAgent.Agent

open Documents (Tables)
open Evidence (AuthorizedProjectContext CitationValidationResult Date EvidenceTables
  FrozenEvidenceBundle GroundedAnswerDraft Ids
  KnowledgeChunk)
open Interleave
open Runs (RunRecord)

namespace Call

def isRetrieve : Call → Bool
  | retrieve _ => true
  | _ => false

def isGrade : Call → Bool
  | gradeRetrieval _ => true
  | _ => false

def isDraft : Call → Bool
  | draftAnswer _ => true
  | _ => false

def isAnswer : Call → Bool
  | saveAnswer _ _ _ | saveGroundedAnswer _ _ _ => true
  | _ => false

def isLoad : Call → Bool
  | loadArtifact _ | loadEvidenceBundle _ | loadGovernedEvidenceBundle _ => true
  | _ => false

/-- The result of the guard that the call keeps. -/
def guardResult? : Call → Option CitationValidationResult
  | saveArtifact _ (.citationGuard result) => some result
  | _ => none

/-- The draft that the call keeps. -/
def savedDraft? : Call → Option GroundedAnswerDraft
  | saveArtifact _ (.answerDraft draft) => some draft
  | _ => none

/-- The call is neither counted nor kept among results, drafts and answers. -/
def plain (c : Call) : Bool :=
  !c.isRetrieve && !c.isGrade && !c.isDraft && !c.isAnswer && c.guardResult?.isNone &&
    c.savedDraft?.isNone

end Call

namespace World

def retrievals (w : World) : Nat := w.calls.countP (·.isRetrieve)

def gradings (w : World) : Nat := w.calls.countP (·.isGrade)

def drafts (w : World) : Nat := w.calls.countP (·.isDraft)

/-- The results of the guard, the last one first. -/
def guardResults (w : World) : List CitationValidationResult := w.calls.filterMap (·.guardResult?)

/-- The drafts that were kept, the last one first. -/
def savedDrafts (w : World) : List GroundedAnswerDraft := w.calls.filterMap (·.savedDraft?)

/-- The authorization service has given this context for the run's user and project. -/
def Authorized (w : World) (run : RunRecord) (context : AuthorizedProjectContext) : Prop :=
  ⟨.authorizeIdentity run.userId run.projectId, .ok context⟩ ∈ w.log

end World

/-- Two provider retrievals, two gradings and two drafts at most. -/
structure Bounded (w : World) : Prop where
  retrievals : w.retrievals ≤ 2
  gradings : w.gradings ≤ 2
  drafts : w.drafts ≤ 2

/-- A call has failed with this; a load, because the database has. -/
def Failed (w : World) (e : AgentError) : Prop :=
  ∃ c, (⟨c, .error e⟩ : Said) ∈ w.log ∧ (c.isLoad = true → ∃ typeName, e = .raised typeName)

/-! ## Evidence that may be shown -/

/-- The version is published, current, in its effective dates, and of a document of the project. -/
def Effective (t : Tables) (projectId : UUID) (today : Date) (versionId : UUID) : Prop :=
  ∃ version document, (version, document) ∈ Evidence.joined t ∧ version.id = versionId ∧
    document.projectId = projectId ∧
    Evidence.Current t version ∧ (version.effectiveFrom.map Date.ofCode).all (·.code ≤ today.code) ∧
    (version.effectiveTo.map Date.ofCode).all (today.code ≤ ·.code)

/-- What is shown of the version is of an allowed space and the version is allowed; and it was
effective when the evidence was packed. -/
structure Admissible (w : World) (projectId : UUID) (context : AuthorizedProjectContext)
    (versionId : UUID) (space : Option String) :
    Prop where
  allowed : ∃ versions, context.scope.allowedDocumentVersionIds = some versions ∧
    versionId ∈ versions
  space : ∃ allowed ∈ context.knowledgeSpaceIds, space = some allowed
  effective : ∃ t today, (⟨.documents, .ok t⟩ : Said) ∈ w.log ∧
    (⟨.today, .ok today⟩ : Said) ∈ w.log ∧
    Effective t projectId today versionId

/-- The items of the bundle are admissible to the run. -/
def Shown (w : World) (run : RunRecord) (bundle : FrozenEvidenceBundle) : Prop :=
  ∃ context, w.Authorized run context ∧ ∀ item ∈ bundle.evidence, item.projectId = run.projectId ∧
    Admissible w run.projectId context item.documentVersionId item.knowledgeSpaceId

/-- What the model is asked is made of the run's query, of evidence that may be shown, and, when a
draft is revised, of the errors the guard has found. -/
def Asked (run : RunRecord) (w : World) (request : StructuredLLMRequest) : Prop :=
  ∃ query bundle errors, (⟨.loadQuery run.id, .ok query⟩ : Said) ∈ w.log ∧ Shown w run bundle ∧
    (errors = [] ∨ ∃ result ∈ w.guardResults, errors = result.errors) ∧
    request.userPrompt = buildGroundedEvidencePrompt query bundle ++ revisionPrompt errors

def Prompted (run : RunRecord) (w : World) : Prop :=
  ∀ request, .draftAnswer request ∈ w.calls → Asked run w request

/-! ## After some calls -/

/-- The world after these calls, the last one first. -/
structure Passed (w : World) (cs : List Call) (w' : World) : Prop where
  calls : w'.calls = cs ++ w.calls
  log : w.log <:+ w'.log
  artifacts : ∀ id artifact, w.artifacts id = some artifact → w'.artifacts id = some artifact
  bundles : ∀ bundle ∈ w.evidence.bundles, bundle ∈ w'.evidence.bundles
  snapshots : ∀ row ∈ w.evidence.snapshots, row ∈ w'.evidence.snapshots
  ranked : ∀ bundle ∈ w.evidence.bundles, ∀ sourceType,
    w'.evidence.ranked bundle.id sourceType = w.evidence.ranked bundle.id sourceType
  answers : cs.all (!·.isAnswer) = true → w'.answers = w.answers

variable {sha256 : String → String} {w w₀ w' : World} {cs : List Call} {c : Call} {run : RunRecord}

theorem Passed.refl (w : World) : Passed w [] w :=
  ⟨rfl, List.suffix_refl _, fun _ _ h => h, fun _ h => h, fun _ h => h, fun _ _ _ => rfl,
    fun _ => rfl⟩

theorem Passed.trans {cs' : List Call} {w'' : World} (h : Passed w cs w') (h' : Passed w' cs' w'') :
    Passed w (cs' ++ cs) w'' where
  calls := by rw [h'.calls, h.calls, List.append_assoc]
  log := h.log.trans h'.log
  artifacts id artifact ha := h'.artifacts id artifact (h.artifacts id artifact ha)
  bundles bundle hb := h'.bundles bundle (h.bundles bundle hb)
  snapshots row hr := h'.snapshots row (h.snapshots row hr)
  ranked bundle hb sourceType :=
    (h'.ranked bundle (h.bundles bundle hb) sourceType).trans (h.ranked bundle hb sourceType)
  answers hcs := by
    rw [List.all_append, Bool.and_eq_true] at hcs
    exact (h'.answers hcs.1).trans (h.answers hcs.2)

/-- A bundle that is added is not one that was there. -/
theorem ranked_other {ids : Ids} {bundles : List Evidence.EvidenceBundle}
    {rows : List (Evidence.EvidenceSnapshot Evidence.Numeric)} (hunused : w.Unused ids)
    (hrows : ∀ row ∈ rows, row.bundleId = ids.bundle) :
    ∀ bundle ∈ w.evidence.bundles, ∀ sourceType,
      EvidenceTables.ranked ⟨bundles, rows ++ w.evidence.snapshots⟩ bundle.id sourceType =
        w.evidence.ranked bundle.id sourceType := by
  intro bundle hbundle sourceType
  have hother : rows.filter (fun row => row.bundleId == bundle.id && row.sourceType == sourceType) =
      [] := by
    refine List.filter_eq_nil_iff.mpr fun row hrow => ?_
    rw [hrows row hrow, beq_false_of_ne (hunused.1 bundle hbundle).symm, Bool.false_and]
    exact Bool.false_ne_true
  unfold EvidenceTables.ranked
  rw [List.filter_append, hother, List.nil_append]

theorem insertSnapshots_adds {db db' : EvidenceTables}
    {rows : List (Evidence.EvidenceSnapshot Evidence.Score)}
    (h : db.insertSnapshots rows = .ok db') :
    db' = { db with snapshots := rows.map (·.stored) ++ db.snapshots } := by
  unfold EvidenceTables.insertSnapshots at h
  split at h
  · exact (Except.ok.inj h).symm
  · cases h

theorem saveEvidenceBundle_adds {db db' : EvidenceTables} {ids : Ids} {runId projectId : UUID}
    {queryText : String} {chunks : List KnowledgeChunk} {retrievalRound : Int}
    (h : Evidence.saveEvidenceBundle db ids runId projectId queryText chunks retrievalRound =
      .ok db') :
    ∃ rows, (∀ row ∈ rows, row.bundleId = ids.bundle) ∧
      db' = ⟨⟨ids.bundle, runId, queryText⟩ :: db.bundles, rows ++ db.snapshots⟩ := by
  unfold Evidence.saveEvidenceBundle at h
  split at h
  · cases h
  · obtain ⟨db₁, hbundle, h⟩ := Fallible.bind_eq_ok.mp h
    obtain ⟨rows, hrows, h⟩ := Fallible.bind_eq_ok.mp h
    unfold EvidenceTables.insertBundle at hbundle
    split at hbundle
    · cases hbundle
      refine ⟨_, fun stored hstored => ?_, insertSnapshots_adds h⟩
      obtain ⟨row, hrow, rfl⟩ := List.mem_map.mp hstored
      show row.bundleId = ids.bundle
      split at hrow
      · rw [List.mem_singleton.mp hrow]
        rfl
      · obtain ⟨entry, -, hentry⟩ := Fallible.mem_of_mapM hrows hrow
        exact (Evidence.candidateRow_shape hentry).1
    · cases hbundle

/-- What a call does keeps what was kept. -/
theorem Does.keeps {a : c.Answer} (h : Does sha256 c a w w') :
    w'.library = w.library ∧ (∀ id artifact, w.artifacts id = some artifact →
      w'.artifacts id = some artifact) ∧
    (∀ bundle ∈ w.evidence.bundles, bundle ∈ w'.evidence.bundles) ∧
      (∀ row ∈ w.evidence.snapshots, row ∈ w'.evidence.snapshots) ∧
    (∀ bundle ∈ w.evidence.bundles, ∀ sourceType,
      w'.evidence.ranked bundle.id sourceType = w.evidence.ranked bundle.id sourceType) ∧
    (c.isAnswer = false → w'.answers = w.answers) := by
  have hput (id : UUID) (artifact : Artifact) (hnone : w.artifacts id = none) :
      ∀ id' artifact', w.artifacts id' = some artifact' →
        (w.put id artifact).artifacts id' = some artifact' := by
    intro id' artifact' hsome
    show Function.update w.artifacts id (some artifact) id' = _
    rw [Function.update_of_ne (fun heq => by rw [heq, hnone] at hsome; cases hsome), hsome]
  cases c
  case recordPromptSnapshot | saveArtifact =>
    obtain ⟨hnone, rfl⟩ := h
    exact ⟨rfl, hput _ _ hnone, fun _ hb => hb, fun _ hr => hr, fun _ _ _ => rfl, fun _ => rfl⟩
  case saveEvidenceBundle =>
    obtain ⟨ids, evidence, rfl, hunused, hsave, rfl⟩ := h
    obtain ⟨rows, hrows, rfl⟩ := saveEvidenceBundle_adds hsave
    exact ⟨rfl, fun _ _ h => h, fun _ hb => List.mem_cons_of_mem _ hb, fun _ hr =>
      List.mem_append_right _ hr,
      ranked_other hunused hrows, fun _ => rfl⟩
  case saveGovernedEvidenceBundle =>
    obtain ⟨ids, evidence, rfl, hunused, hsave, rfl⟩ := h
    obtain ⟨-, rfl⟩ := Evidence.saveGoverned_eq.mp hsave
    refine ⟨rfl, fun _ _ h => h, fun _ hb => List.mem_cons_of_mem _ hb, fun _ hr =>
      List.mem_append_right _ hr,
      ranked_other hunused fun row hrow => ?_, fun _ => rfl⟩
    obtain ⟨entry, -, rfl⟩ := List.mem_map.mp hrow
    rfl
  case saveAnswer | saveGroundedAnswer =>
    obtain ⟨newId, answers, -, rfl⟩ := h
    exact ⟨rfl, fun _ _ h => h, fun _ hb => hb, fun _ hr => hr, fun _ _ _ => rfl, fun hfalse =>
      nomatch hfalse⟩
  case loadArtifact | loadQuery | loadEvidenceBundle | documents | loadGovernedEvidenceBundle =>
    obtain ⟨-, rfl⟩ := h
    exact ⟨rfl, fun _ _ h => h, fun _ hb => hb, fun _ hr => hr, fun _ _ _ => rfl, fun _ => rfl⟩
  all_goals
    obtain rfl : w' = w := h
    exact ⟨rfl, fun _ _ h => h, fun _ hb => hb, fun _ hr => hr, fun _ _ _ => rfl, fun _ => rfl⟩

/-- **What a call leaves**, whatever its answer. -/
theorem Answers.passed {x : Except AgentError c.Answer} (h : Answers sha256 c w x w') :
    Passed w [c] w' := by
  obtain ⟨library, w₁, -, rfl, h⟩ := h
  cases x with
  | ok a =>
    obtain ⟨-, hartifacts, hbundles, hsnapshots, hranked, hanswers⟩ := Does.keeps h
    refine ⟨rfl, List.suffix_cons _ _, hartifacts, hbundles, hsnapshots, hranked, fun hall =>
      hanswers ?_⟩
    simpa using hall
  | error e =>
    obtain ⟨-, rfl⟩ := h
    exact ⟨rfl, List.suffix_cons _ _, fun _ _ h => h, fun _ h => h, fun _ h => h, fun _ _ _ => rfl,
      fun _ => rfl⟩

theorem Answers.noted {x : Except AgentError c.Answer} (h : Answers sha256 c w x w') :
    (⟨c, x⟩ : Said) ∈ w'.log := by
  obtain ⟨library, w₁, -, rfl, -⟩ := h
  exact List.mem_cons_self

theorem Admissible.passed {projectId versionId : UUID} {context : AuthorizedProjectContext}
    {space : Option String} (h : Admissible w projectId context versionId space)
    (hp : Passed w cs w') : Admissible w' projectId context versionId space := by
  obtain ⟨t, today, ht, htoday, heffective⟩ := h.effective
  exact ⟨h.allowed, h.space, t, today, hp.log.subset ht, hp.log.subset htoday, heffective⟩

theorem Shown.passed {bundle : FrozenEvidenceBundle} (h : Shown w run bundle)
    (hp : Passed w cs w') : Shown w' run bundle := by
  obtain ⟨context, hauthorized, hitems⟩ := h
  exact ⟨context, hp.log.subset hauthorized, fun item hitem =>
    ⟨(hitems item hitem).1, (hitems item hitem).2.passed hp⟩⟩

/-! ## While a node runs -/

/-- The retrievals, gradings and drafts that a node may ask for. -/
def QaNode.may : QaNode → Nat × Nat × Nat
  | .retrieve => (1, 0, 0)
  | .grade_retrieval => (0, 1, 0)
  | .generate_answer | .revise_answer => (0, 0, 1)
  | _ => (0, 0, 0)

/-- It asks for no more, and for nothing after the answer. -/
def within (n : QaNode) (cs : List Call) : Bool :=
  cs.countP (·.isRetrieve) ≤ n.may.1 && cs.countP (·.isGrade) ≤ n.may.2.1 && cs.countP (·.isDraft) ≤
    n.may.2.2 &&
    cs.tail.all (!·.isAnswer)

/-- There is room for what the node may ask for. -/
structure Room (n : QaNode) (w : World) : Prop where
  retrievals : w.retrievals + n.may.1 ≤ 2
  gradings : w.gradings + n.may.2.1 ≤ 2
  drafts : w.drafts + n.may.2.2 ≤ 2

/-- The node has made these calls since the world it started in, in which the run had no
citation. -/
structure Reached (run : RunRecord) (n : QaNode) (w₀ : World) (cs : List Call)
    (w : World) : Prop where
  passed : Passed w₀ cs w
  within : within n cs = true
  room : Room n w₀
  prompted : Prompted run w
  uncited : w₀.answers.citationsOf run.id = []

/-- The graph has failed with this. -/
structure Escaped (run : RunRecord) (e : AgentError) (w : World) : Prop where
  bounded : Bounded w
  prompted : Prompted run w
  failed : Failed w e
  uncited : w.answers.citationsOf run.id = []

namespace Passed

variable (h : Passed w₀ cs w)

include h

theorem retrievals : w.retrievals = cs.countP (·.isRetrieve) + w₀.retrievals := by
  unfold World.retrievals
  rw [h.calls, List.countP_append]

theorem gradings : w.gradings = cs.countP (·.isGrade) + w₀.gradings := by
  unfold World.gradings
  rw [h.calls, List.countP_append]

theorem drafts : w.drafts = cs.countP (·.isDraft) + w₀.drafts := by
  unfold World.drafts
  rw [h.calls, List.countP_append]

theorem guardResults : w.guardResults = cs.filterMap (·.guardResult?) ++ w₀.guardResults := by
  unfold World.guardResults
  rw [h.calls, List.filterMap_append]

theorem savedDrafts : w.savedDrafts = cs.filterMap (·.savedDraft?) ++ w₀.savedDrafts := by
  unfold World.savedDrafts
  rw [h.calls, List.filterMap_append]

end Passed

theorem Asked.passed {request : StructuredLLMRequest} (h : Asked run w request)
    (hp : Passed w cs w') :
    Asked run w' request := by
  obtain ⟨query, bundle, errors, hquery, hshown, herrors, hprompt⟩ := h
  refine ⟨query, bundle, errors, hp.log.subset hquery, hshown.passed hp,
    herrors.imp_right fun ⟨result, hresult, heq⟩ => ?_,
    hprompt⟩
  exact ⟨result, hp.guardResults ▸ List.mem_append_right _ hresult, heq⟩

/-- Nothing was counted, and no result, draft or answer kept. -/
structure Quiet (w w' : World) : Prop where
  retrievals : w'.retrievals = w.retrievals
  gradings : w'.gradings = w.gradings
  drafts : w'.drafts = w.drafts
  guardResults : w'.guardResults = w.guardResults
  savedDrafts : w'.savedDrafts = w.savedDrafts
  answers : w'.answers = w.answers

theorem countP_plain {p : Call → Bool} (hp : ∀ c : Call, c.plain = true → p c = false)
    (hcs : cs.all (·.plain) = true) :
    cs.countP p = 0 :=
  List.countP_eq_zero.mpr fun c hc => by
    rw [hp c (List.all_eq_true.mp hcs c hc)]
    exact Bool.false_ne_true

theorem plain_iff :
    c.plain = true ↔ c.isRetrieve = false ∧ c.isGrade = false ∧ c.isDraft = false ∧
      c.isAnswer = false ∧
    c.guardResult? = none ∧ c.savedDraft? = none := by
  simp [Call.plain, and_assoc]

theorem unanswered_plain (hcs : cs.all (·.plain) = true) : cs.all (!·.isAnswer) = true :=
  List.all_eq_true.mpr fun c hc => by
    rw [(plain_iff.mp (List.all_eq_true.mp hcs c hc)).2.2.2.1]
    rfl

theorem Passed.quiet (h : Passed w cs w') (hcs : cs.all (·.plain) = true) : Quiet w w' where
  retrievals := by
    rw [h.retrievals, countP_plain (fun c hc => (plain_iff.mp hc).1) hcs, Nat.zero_add]
  gradings := by rw [h.gradings, countP_plain (fun c hc => (plain_iff.mp hc).2.1) hcs, Nat.zero_add]
  drafts := by rw [h.drafts, countP_plain (fun c hc => (plain_iff.mp hc).2.2.1) hcs, Nat.zero_add]
  guardResults := by
    rw [h.guardResults, List.filterMap_eq_nil_iff.mpr fun c hc =>
      (plain_iff.mp (List.all_eq_true.mp hcs c hc)).2.2.2.2.1,
      List.nil_append]
  savedDrafts := by
    rw [h.savedDrafts, List.filterMap_eq_nil_iff.mpr fun c hc =>
      (plain_iff.mp (List.all_eq_true.mp hcs c hc)).2.2.2.2.2,
      List.nil_append]
  answers := h.answers (unanswered_plain hcs)

theorem within_plain {n : QaNode} (hcs : cs.all (·.plain) = true) : within n cs = true := by
  unfold within
  have hquiet : cs.tail.all (!·.isAnswer) = true :=
    List.all_eq_true.mpr fun c hc =>
      List.all_eq_true.mp (unanswered_plain hcs) c (List.mem_of_mem_tail hc)
  rw [countP_plain (fun c hc => (plain_iff.mp hc).1) hcs,
    countP_plain (fun c hc => (plain_iff.mp hc).2.1) hcs,
    countP_plain (fun c hc => (plain_iff.mp hc).2.2.1) hcs, hquiet]
  simp

namespace Reached

variable {n : QaNode} {α : Type} {Q : Except AgentError α → World → Prop}

theorem start (hroom : Room n w) (hprompted : Prompted run w)
    (huncited : w.answers.citationsOf run.id = []) :
    Reached run n w [] w :=
  ⟨.refl w, by simp [Agent.within], hroom, hprompted, huncited⟩

theorem bounded (h : Reached run n w₀ cs w) : Bounded w := by
  have hwithin := h.within
  simp only [Agent.within, Bool.and_eq_true, decide_eq_true_eq] at hwithin
  have hretrievals := h.passed.retrievals
  have hgradings := h.passed.gradings
  have hdrafts := h.passed.drafts
  exact
    ⟨by
    have := h.room.retrievals; omega, by
    have := h.room.gradings; omega, by have := h.room.drafts; omega⟩

/-- After one more call, whatever its answer. -/
theorem next (h : Reached run n w₀ cs w) {x : Except AgentError c.Answer}
    (hx : Answers sha256 c w x w') (hwithin : Agent.within n (c :: cs) = true)
    (hprompt : ∀ request, c = .draftAnswer request → Asked run w request) :
    Reached run n w₀ (c :: cs) w' := by
  have hp := hx.passed
  refine ⟨h.passed.trans hp, hwithin, h.room, fun request hrequest => ?_, h.uncited⟩
  rw [hp.calls] at hrequest
  rcases List.mem_cons.mp hrequest with heq | hrequest
  · exact (hprompt request heq.symm).passed hp
  · exact (h.prompted request hrequest).passed hp

/-- What fails leaves the run uncited. -/
theorem failed (h : Reached run n w₀ cs w) {e : AgentError} (hx : Answers sha256 c w (.error e) w')
    (hwithin : Agent.within n (c :: cs) = true) : w'.answers.citationsOf run.id = [] := by
  obtain ⟨library, w₁, -, rfl, -, rfl⟩ := hx
  unfold Agent.within at hwithin
  have hquiet : cs.all (!·.isAnswer) = true := (Bool.and_eq_true_iff.mp hwithin).2
  have hanswers : w.answers = w₀.answers := h.passed.answers hquiet
  show w.answers.citationsOf run.id = []
  rw [hanswers]
  exact h.uncited

/-- The rule of a call: it fails, and the graph with it, or the node goes on with its answer. -/
theorem called (h : Reached run n w₀ cs w) {f : c.Answer → Node α}
    (hQ : ∀ e w', Escaped run e w' → Q (.error e) w')
    (hload : c.isLoad = true → ∀ e, Fails c e w → ∃ typeName, e = .raised typeName)
    (hprompt : ∀ request, c = .draftAnswer request → Asked run w request)
    (hwithin : Agent.within n (c :: cs) = true)
    (hok : ∀ a w', Answers sha256 c w (.ok a) w' → Reached run n w₀ (c :: cs) w' →
      Prog.Ends (Answers sha256) Q (f a) w') :
    Prog.Ends (Answers sha256) Q ((call c).bind f) w := by
  have hcall : Prog.Ends (Answers sha256) (Answers sha256 c w) (call c) w :=
    Prog.Ends.exec fun x w' hx => hx
  refine hcall.bind (fun a w' hx => ?_) fun e w' hx => ?_
  · exact hok a w' hx (h.next hx hwithin hprompt)
  · have hnext := h.next hx hwithin hprompt
    have hnoted := hx.noted
    have huncited := h.failed hx hwithin
    obtain ⟨library, w₁, -, -, hfails, -⟩ := hx
    exact hQ e w' ⟨hnext.bounded, hnext.prompted,
      ⟨c, hnoted, fun hc => hload hc e hfails⟩, huncited⟩

theorem said (h : Reached run n w₀ cs w) {f : c.Answer → Node α}
    (hQ : ∀ e w', Escaped run e w' → Q (.error e) w')
    (hok : ∀ a w', Answers sha256 c w (.ok a) w' → Reached run n w₀ (c :: cs) w' →
      Prog.Ends (Answers sha256) Q (f a) w')
    (hload : c.isLoad = false := by rfl) (hdraft : c.isDraft = false := by rfl)
    (hwithin : Agent.within n (c :: cs) = true := by rfl) :
    Prog.Ends (Answers sha256) Q ((call c).bind f) w := by
  refine h.called hQ (fun hc => ?_) (fun request heq => ?_) hwithin hok
  · rw [hload] at hc
    cases hc
  · rw [heq] at hdraft
    cases hdraft

/-- What is there is loaded. -/
theorem loaded (h : Reached run n w₀ cs w) {artifactId : UUID} {artifact : Artifact}
    {f : Artifact → Node α} (hQ : ∀ e w', Escaped run e w' → Q (.error e) w')
    (hthere : w.artifacts artifactId = some artifact)
    (hok : ∀ w', w.log <:+ w'.log → Reached run n w₀ (.loadArtifact artifactId :: cs) w' →
      Prog.Ends (Answers sha256) Q (f artifact) w')
    (hwithin : Agent.within n (.loadArtifact artifactId :: cs) = true := by rfl) :
    Prog.Ends (Answers sha256) Q ((call (.loadArtifact artifactId)).bind f) w := by
  refine h.called hQ (fun _ e hfails => ?_) (fun _ heq => nomatch heq) hwithin
    fun a w' hx hnext => ?_
  · rcases hfails with hraised | hnone
    · exact hraised
    · rw [hthere] at hnone
      cases hnone
  · have hlog := hx.passed.log
    obtain ⟨library, w₁, -, -, hfound, -⟩ := hx
    obtain rfl : a = artifact := Option.some.inj (hfound.symm.trans hthere)
    exact hok w' hlog hnext

theorem loadedAs {β : Type} (h : Reached run n w₀ cs w) {artifactId : UUID} {artifact : Artifact}
    {model : String} {read : Artifact → Option β} {b : β} {f : β → Node α}
    (hQ : ∀ e w', Escaped run e w' → Q (.error e) w')
    (hthere : w.artifacts artifactId = some artifact) (hread : read artifact = some b)
    (hok : ∀ w', Reached run n w₀ (.loadArtifact artifactId :: cs) w' →
      Prog.Ends (Answers sha256) Q (f b) w')
    (hwithin : Agent.within n (.loadArtifact artifactId :: cs) = true := by rfl) :
    Prog.Ends (Answers sha256) Q ((loadAs model read artifactId).bind f) w := by
  unfold loadAs
  rw [Prog.bind_eq, Prog.bind_assoc]
  refine h.loaded hQ hthere (fun w' _ hnext => ?_) hwithin
  rw [hread]
  exact hok w' hnext

theorem loadedChunks (h : Reached run n w₀ cs w) {bundleId : UUID} {chunks : List KnowledgeChunk}
    {f : List KnowledgeChunk → Node α} (hQ : ∀ e w', Escaped run e w' → Q (.error e) w')
    (hthere : Evidence.loadEvidenceBundle w.evidence bundleId = .ok chunks)
    (hok : ∀ w', Reached run n w₀ (.loadEvidenceBundle bundleId :: cs) w' →
      Prog.Ends (Answers sha256) Q (f chunks) w')
    (hwithin : Agent.within n (.loadEvidenceBundle bundleId :: cs) = true := by rfl) :
    Prog.Ends (Answers sha256) Q ((call (.loadEvidenceBundle bundleId)).bind f) w := by
  refine h.called hQ (fun _ e hfails => ?_) (fun _ heq => nomatch heq) hwithin
    fun a w' hx hnext => ?_
  · rcases hfails with hraised | ⟨_, herror, -⟩
    · exact hraised
    · rw [hthere] at herror
      cases herror
  · obtain ⟨library, w₁, -, -, hfound, -⟩ := hx
    obtain rfl : a = chunks := Except.ok.inj (hfound.symm.trans hthere)
    exact hok w' hnext

theorem loadedGoverned (h : Reached run n w₀ cs w) {bundleId : UUID} {bundle : FrozenEvidenceBundle}
    {f : FrozenEvidenceBundle → Node α} (hQ : ∀ e w', Escaped run e w' → Q (.error e) w')
    (hthere : Evidence.loadGovernedEvidenceBundle w.evidence bundleId = .ok bundle)
    (hok : ∀ w', w.log <:+ w'.log →
      Reached run n w₀ (.loadGovernedEvidenceBundle bundleId :: cs) w' →
      Prog.Ends (Answers sha256) Q (f bundle) w')
    (hwithin : Agent.within n (.loadGovernedEvidenceBundle bundleId :: cs) = true := by rfl) :
    Prog.Ends (Answers sha256) Q ((call (.loadGovernedEvidenceBundle bundleId)).bind f) w := by
  refine h.called hQ (fun _ e hfails => ?_) (fun _ heq => nomatch heq) hwithin
    fun a w' hx hnext => ?_
  · rcases hfails with hraised | ⟨_, herror, -⟩
    · exact hraised
    · rw [hthere] at herror
      cases herror
  · have hlog := hx.passed.log
    obtain ⟨library, w₁, -, -, hfound, -⟩ := hx
    obtain rfl : a = bundle := Except.ok.inj (hfound.symm.trans hthere)
    exact hok w' hlog hnext

end Reached

end ProjectAgent.Agent
