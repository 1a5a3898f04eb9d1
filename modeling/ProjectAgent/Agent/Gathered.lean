/-
The evidence the graph gathers: what it keeps of a retrieval is permitted, and
what it packs of that may be shown.
-/
import ProjectAgent.Agent.Steps

namespace ProjectAgent.Agent

open Documents (DocumentVersion Document Tables)
open Evidence (AuthorizedProjectContext Date DocumentEvidenceMetadata FrozenEvidenceBundle
  GovernedEvidence GovernedEvidencePack
  KnowledgeChunk)
open Interleave
open Runs (RunRecord)

variable {sha256 : String → String} {deps : Deps} {w w₀ w' : World} {cs : List Call}
  {run : RunRecord} {st : AgentState} {n : QaNode}
  {context : AuthorizedProjectContext} {projectId : UUID}

/-! ## Retrieval -/

theorem Answers.savedChunks {runId projectId id : UUID} {queryText : String}
    {raw : List KnowledgeChunk} {retrievalRound : Nat}
    (h : Answers sha256 (.saveEvidenceBundle runId projectId queryText
      (Evidence.postfilterEvidence raw context) retrievalRound) w (.ok id) w') :
    ∃ bundle ∈ w'.evidence.bundles, bundle.id = id ∧
      ∃ chunks, Evidence.loadEvidenceBundle w'.evidence bundle.id = .ok chunks ∧
        ∀ chunk ∈ chunks, Permitted context chunk := by
  obtain ⟨library, w₁, -, rfl, ids, evidence, rfl, hunused, hsave, rfl⟩ := h
  have hload := Evidence.load_save hunused.2 Evidence.postfilter_versioned hsave
  obtain ⟨rows, -, heq⟩ := saveEvidenceBundle_adds hsave
  refine ⟨⟨ids.bundle, runId, queryText⟩, ?_, rfl, _, hload, fun chunk hchunk => ?_⟩
  · show _ ∈ evidence.bundles
    rw [heq]
    exact List.mem_cons_self
  · obtain ⟨entry, hentry, rfl⟩ := List.mem_map.mp hchunk
    obtain ⟨-, -, hversion, hspace⟩ := Evidence.mem_postfilter (List.fst_mem_of_mem_zipIdx hentry)
    exact ⟨hversion, hspace⟩

theorem retrieve_left (h : At run .retrieve st w) :
    Prog.Ends (Answers sha256) (Left deps run .retrieve st) (retrieveNode st) w := by
  obtain ⟨hprompt, ⟨planId, plan, hplanId, hplan⟩, context, hscope⟩ := h.facts
  obtain ⟨scopeId, hscopeId, hcontext, hproject, -⟩ := id hscope
  obtain ⟨hretrievals, hgradings, -, -, hdrafts⟩ := h.counts
  simp only [retrieveNode, Prog.bind_eq, Prog.pure_eq, required_bind h.ownRun,
    required_bind hscopeId, required_bind hplanId,
    required_bind hproject]
  by_cases hmany : 2 ≤ st.rounds
  · rw [if_pos hmany]
    exact ⟨⟨h.ownRun, h.ownUser, trivial, h.counts.bounded, h.prompted, h.unanswered⟩, by
      simp only [rank]; split <;> omega⟩
  rw [if_neg hmany]
  have hstart : Reached run .retrieve w [] w := .start (h.counts.room fun _ => by omega) h.prompted
    (Evidence.citationsOf_none h.unanswered.absent)
  refine hstart.loadedAs Left.raise hcontext rfl fun w₁ h₁ => ?_
  refine h₁.loadedAs Left.raise (h₁.passed.artifacts _ _ hplan) rfl fun w₂ h₂ => ?_
  split
  · next hdenied =>
    -- the request is of the context's project
    unfold Evidence.constrainRetrieval at hdenied
    rw [if_neg (not_not.mpr rfl)] at hdenied
    split at hdenied
    · cases hdenied
    · dsimp only at hdenied
      split at hdenied <;> cases hdenied
  · refine h₂.said Left.raise fun bundleId w₃ _ h₃ => ?_
    exact ⟨h.leave h₃ rfl rfl trivial h.counts.bounded, by simp only [rank]; split <;> omega⟩
  · refine h₂.said Left.raise fun _ w₃ _ h₃ => ?_
    refine h₃.said Left.raise fun raw w₄ _ h₄ => ?_
    refine h₄.said Left.raise fun bundleId w₅ hx h₅ => ?_
    have hsaved := hx.savedChunks
    obtain ⟨bundle, hbundle, rfl, hchunks⟩ := hsaved
    have hone : w₅.retrievals = 1 + w.retrievals := h₅.passed.retrievals
    have hnone : w₅.gradings = 0 + w.gradings := h₅.passed.gradings
    have hnot : w₅.drafts = 0 + w.drafts := h₅.passed.drafts
    refine ⟨h.leaveAsked h₅ rfl rfl ⟨hprompt.passed h₅.passed,
      HasPlan.passed ⟨planId, plan, hplanId, hplan⟩ h₅.passed, context,
      hscope.passed h₅.passed, bundle, hbundle, rfl, hchunks⟩ ?_, ?_⟩
    · unfold Counts
      have hnext : ({ st with
        evidenceBundleId := some bundle.id
        retrievalRound := some (st.rounds + 1)
        route := some "grade_retrieval"
        lastErrorCode := none } : AgentState).rounds = st.rounds + 1 := rfl
      rw [hnext]
      exact ⟨by omega, by omega, by omega, by omega⟩
    · show (if st.rounds + 1 ≤ 1 then 8 else 6) < if st.rounds = 0 then 9 else 7
      split <;> split <;> omega

theorem grade_retrieval_left (h : At run .grade_retrieval st w) :
    Prog.Ends (Answers sha256) (Left deps run .grade_retrieval st)
      (gradeRetrievalNode deps st) w := by
  obtain ⟨hprompt, ⟨planId, plan, hplanId, hplan⟩, context, hscope, hchunks⟩ := h.facts
  obtain ⟨bundle, hbundle, hbundleId, chunks, hload, -⟩ := id hchunks
  obtain ⟨hretrievals, hgradings, hrounds, hdrafts⟩ := h.counts
  simp only [gradeRetrievalNode, Prog.bind_eq, Prog.pure_eq, required_bind h.ownRun,
    required_bind hplanId, required_bind hbundleId]
  refine h.start.loadedAs Left.raise hplan rfl fun w₁ h₁ => ?_
  refine h₁.loadedChunks Left.raise ((h₁.passed.chunks hbundle).trans hload) fun w₂ h₂ => ?_
  refine h₂.said Left.raise fun query w₃ _ h₃ => ?_
  refine h₃.said Left.raise fun grade w₄ _ h₄ => ?_
  refine h₄.said Left.raise fun usage w₅ _ h₅ => ?_
  refine h₅.said Left.raise fun _ w₆ _ h₆ => ?_
  refine h₆.said Left.raise fun gradeId w₇ _ h₇ => ?_
  have hcounts {cs' : List Call} {w' : World} (hr : Reached run .grade_retrieval w cs' w')
    (h0 : cs'.countP (·.isRetrieve) = 0)
      (h1 : cs'.countP (·.isGrade) = 1) (h2 : cs'.countP (·.isDraft) = 0) :
      w'.retrievals ≤ st.rounds ∧ w'.gradings ≤ st.rounds ∧ w'.drafts = 0 := by
    have := hr.passed.retrievals
    have := hr.passed.gradings
    have := hr.passed.drafts
    omega
  obtain ⟨hretrievals₇, hgradings₇, hdrafts₇⟩ := hcounts h₇ rfl rfl rfl
  have hrefused (st' : AgentState) (hrun : st'.runId = st.runId) (huser : st'.userId = st.userId) :
      At run .refuse st' w₇ :=
    h.leaveAsked h₇ hrun huser trivial ⟨by omega, by omega, by omega⟩
  split
  · refine ⟨h.leaveAsked h₇ rfl rfl ⟨hprompt.passed h₇.passed, context, hscope.passed h₇.passed,
      hchunks.passed h₇.passed⟩ ?_, ?_⟩
    · exact ⟨by omega, by omega, hdrafts₇⟩
    · show 5 < if st.rounds ≤ 1 then 8 else 6
      split <;> omega
  · split
    · split
      · next hagain =>
        refine h₇.said Left.raise fun planId' w₈ hx h₈ => ?_
        obtain ⟨hretrievals₈, hgradings₈, hdrafts₈⟩ := hcounts h₈ rfl rfl rfl
        have hfew : st.rounds < 2 := hagain.2.1
        refine ⟨h.leaveAsked h₈ rfl rfl ⟨hprompt.passed h₈.passed,
          ⟨planId', _, rfl, hx.saved⟩, context,
          hscope.passed h₈.passed⟩ ?_, ?_⟩
        · exact ⟨hretrievals₈, hgradings₈, by omega, by omega, hdrafts₈⟩
        · show (if st.rounds = 0 then 9 else 7) < if st.rounds ≤ 1 then 8 else 6
          split <;> split <;> omega
      · exact ⟨hrefused _ rfl rfl, by show 0 < if st.rounds ≤ 1 then 8 else 6; split <;> omega⟩
    · exact ⟨hrefused _ rfl rfl, by show 0 < if st.rounds ≤ 1 then 8 else 6; split <;> omega⟩

/-! ## Governance -/

/-- The rows are read first and the numbers that are current after them: what is then found eligible
is effective by then. -/
theorem effective_of_metadata {t t' : Tables} {documentIds : List UUID} {version : DocumentVersion}
    {document : Document} {versionId : UUID} {info : DocumentEvidenceMetadata} {today : Date}
    (hlater : Later t t') (hschema : Evidence.Schema t')
    (hrow : (version, document) ∈ Evidence.joined t) (hin : version.documentId ∈ documentIds)
    (hinfo : Evidence.evidenceMetadata t' documentIds (version, document) = .ok (versionId, info))
    (heligible : Evidence.eligible projectId today info = true) :
    Effective t' projectId today versionId := by
  obtain ⟨hversion, hdocument, hid⟩ := Evidence.mem_joined.mp hrow
  unfold Evidence.evidenceMetadata at hinfo
  split at hinfo
  · cases hinfo
    simp only [Evidence.eligible, Bool.and_eq_true, beq_iff_eq, decide_eq_true_eq] at heligible
    obtain ⟨⟨⟨⟨hproject, -⟩, -, hcurrent⟩, hfrom⟩, hto⟩ := heligible
    unfold Evidence.currentVersions at hcurrent
    rw [if_pos hin] at hcurrent
    -- the number is published by then, of a version that is this one
    obtain ⟨now, hnow, hof, hpublished, hno⟩ :=
      Evidence.mem_publishedNumbers.mp (List.max?_mem hcurrent)
    obtain ⟨hsame, hsameFrom, hsameTo⟩ := hlater.versions version hversion now hnow hof hno
    obtain ⟨owner, howner, hownerId⟩ := hschema.document now hnow
    have hsameProject := hlater.documents document hdocument owner howner
      (hownerId.trans (hof.trans hid.symm))
    refine ⟨now, owner, Evidence.mem_joined.mpr ⟨hnow, howner, hownerId⟩, hsame,
      hsameProject.trans hproject, ?_, ?_, ?_⟩
    · refine (Evidence.currentVersions_iff hnow (hof ▸ hin)).mp ⟨hpublished, ?_⟩
      unfold Evidence.currentVersions
      rw [hof, if_pos hin, hno]
      exact hcurrent
    · rw [hsameFrom]
      exact hfrom
    · rw [hsameTo]
      exact hto
  · cases hinfo
  · cases hinfo

/-- What is found of the versions, and was read from the documents as they were then. -/
def FoundIn (projectId : UUID) (found : List (UUID × DocumentEvidenceMetadata))
    (w : World) : Prop :=
  ∀ entry ∈ found, ∃ t, (⟨.documents, .ok t⟩ : Said) ∈ w.log ∧
    ∀ today, Evidence.eligible projectId today entry.2 = true → Effective t projectId today entry.1

theorem Answers.read {t : Tables} (h : Answers sha256 .documents w (.ok t) w') :
    w'.library.tables = t ∧ Later w.library.tables t := by
  obtain ⟨library, w₁, hlater, rfl, rfl, rfl⟩ := h
  exact ⟨rfl, hlater⟩

theorem metadata_asks (projectId : UUID) (versionIds : List UUID) (h : Reached run n w₀ cs w)
    (hcs : cs.all (·.plain) = true) :
    Prog.Ends (Answers sha256) (Asks run n w₀ (FoundIn projectId))
      (getDocumentEvidenceMetadata versionIds) w := by
  unfold getDocumentEvidenceMetadata
  split
  · exact ⟨⟨cs, hcs, h⟩, fun _ hentry => nomatch hentry⟩
  · have hone := all_plain_cons (c := .documents) rfl hcs
    refine h.said Asks.raise (fun t w₁ ht h₁ => ?_) rfl rfl (within_plain hone)
    simp only [Prog.bind_eq, Prog.pure_eq]
    split
    · exact ⟨⟨_, hone, h₁⟩, fun _ hentry => nomatch hentry⟩
    · have htwo := all_plain_cons (c := .documents) rfl hone
      refine h₁.said Asks.raise (fun t' w₂ ht' h₂ => ?_) rfl rfl (within_plain htwo)
      obtain ⟨hread, -⟩ := ht.read
      obtain ⟨hread', hlater⟩ := ht'.read
      rw [hread] at hlater
      have hfound : ∃ found, (Evidence.requestedRows t versionIds).mapM
          (Evidence.evidenceMetadata t' ((Evidence.requestedRows t versionIds).map
            (·.1.documentId))) = .ok found := by
        refine Fallible.mapM_exists fun row hrow => ?_
        obtain ⟨version, document⟩ := row
        obtain ⟨hversion, hdocument, -⟩ :=
          Evidence.mem_joined.mp (Evidence.mem_requestedRows.mp hrow).1
        obtain ⟨category, hcategory⟩ := w₁.library.categories document (hread ▸ hdocument)
        obtain ⟨level, hlevel⟩ := w₁.library.authorities version (hread ▸ hversion)
        unfold Evidence.evidenceMetadata
        rw [hcategory, hlevel]
        exact ⟨_, rfl⟩
      obtain ⟨found, hfound⟩ := hfound
      rw [hfound]
      refine ⟨⟨_, htwo, h₂⟩, fun entry hentry => ⟨t', ht'.noted, fun today heligible => ?_⟩⟩
      obtain ⟨⟨version, document⟩, hrow, hinfo⟩ := Fallible.mem_of_mapM hfound hentry
      exact effective_of_metadata hlater (hread' ▸ w₂.library.schema)
        (Evidence.mem_requestedRows.mp hrow).1
        (List.mem_map.mpr ⟨_, hrow, rfl⟩) hinfo heligible

/-- What is packed is of the project, labelled, and admissible. -/
def PackedIn (projectId : UUID) (context : AuthorizedProjectContext) (pack : GovernedEvidencePack)
    (w : World) : Prop :=
  ∀ item ∈ pack.evidence, item.projectId = projectId ∧ (∃ n, item.label = Evidence.labelOf n) ∧
    Admissible w projectId context item.documentVersionId item.knowledgeSpaceId

theorem packEvidence_asks {projectCode : String} {chunks : List KnowledgeChunk}
    (h : Reached run n w₀ cs w) (hcs : cs.all (·.plain) = true)
    (hpermitted : ∀ chunk ∈ chunks, Permitted context chunk) :
    Prog.Ends (Answers sha256) (Asks run n w₀ (PackedIn projectId context))
      (packEvidence deps projectId projectCode chunks) w := by
  unfold packEvidence
  refine (metadata_asks projectId _ h hcs).bind (fun found w₁ hfound => ?_)
    fun _ _ hescaped => hescaped
  obtain ⟨⟨cs₁, hcs₁, h₁⟩, hfound⟩ := hfound
  have htoday := all_plain_cons (c := .today) rfl hcs₁
  refine h₁.said Asks.raise (fun today w₂ hx h₂ => ?_) rfl rfl (within_plain htoday)
  refine ⟨⟨_, htoday, h₂⟩, fun item hitem => ?_⟩
  obtain ⟨i, candidate, hget, hlabel⟩ := Evidence.mem_labeled.mp hitem
  obtain ⟨candidate', hcandidate, label, flag, rfl⟩ := Evidence.mem_packOf hitem
  obtain ⟨chunk, versionId, info, hparsed, hinfo, heligible, rfl⟩ :=
    Evidence.mem_candidates hcandidate
  obtain ⟨hchunk, -, hparse⟩ := Evidence.mem_parsedChunks hparsed
  obtain ⟨⟨versions, hversions, allowed, hallowed, hstr⟩, hspace⟩ := hpermitted chunk hchunk
  rw [hstr, UUID.parse_str] at hparse
  obtain rfl := Option.some.inj hparse
  obtain ⟨pre, post, rfl, -⟩ := List.lookup_eq_some_iff.mp hinfo
  obtain ⟨t, ht, heffective⟩ := hfound _ (List.mem_append_right _ List.mem_cons_self)
  refine ⟨rfl, ⟨i + 1, congrArg (·.label) hlabel⟩, ⟨versions, hversions, hallowed⟩, hspace, t,
    today, ?_, hx.noted,
    heffective today heligible⟩
  exact hx.passed.log.subset ht

/-- What is loaded of a row, if its version is known. -/
theorem loadGoverned_rowOf {row : Evidence.EvidenceSnapshot Evidence.Numeric}
    {item : Evidence.FrozenEvidence} {versionId : UUID} (h : Evidence.loadGoverned row = .ok item)
    (hversion : row.documentVersionId = some versionId) :
    RowOf row.bundleId row item := by
  unfold Evidence.loadGoverned Evidence.frozenVersionId at h
  rw [hversion] at h
  obtain ⟨version, hversion', h⟩ := Fallible.bind_eq_ok.mp h
  obtain rfl := Except.ok.inj hversion'
  split at h
  · simp only [Fallible.bind_eq_ok] at h
    obtain ⟨_, -, _, -, _, -, _, -, _, -, _, -, _, -, _, -, _, -, _, -, h⟩ := h
    obtain rfl := Except.ok.inj h
    exact ⟨rfl, rfl, rfl, hversion, rfl⟩
  · cases h

/-- **A pack that is kept may be shown.** -/
theorem Answers.savedGoverned {id : UUID} {queryText : String} {pack : GovernedEvidencePack}
    (h : Answers sha256 (.saveGovernedEvidenceBundle run.id run.projectId queryText pack) w
      (.ok id) w')
    (hpacked : PackedIn run.projectId context pack w) (hauthorized : w.Authorized run context)
    (hne : pack.evidence ≠ []) :
    ∃ bundle, Governs run w' id bundle := by
  have hp := h.passed
  obtain ⟨library, w₁, -, rfl, ids, evidence, rfl, hunused, hsave, rfl⟩ := h
  obtain ⟨items, hload, hitems⟩ :=
    Evidence.load_governed (fun x hx => (hpacked x hx).1) hunused.2 hsave
  obtain ⟨-, heq⟩ := Evidence.saveGoverned_eq.mp hsave
  refine ⟨_, ⟨⟨ids.bundle, run.id, queryText⟩, ?_, rfl, rfl⟩, hload, fun hnil => ?_,
    fun item hitem => ?_, fun item hitem => ?_,
    context, hp.log.subset hauthorized, fun item hitem => ?_⟩
  · show _ ∈ evidence.bundles
    rw [heq]
    exact List.mem_cons_self
  · obtain rfl : items = [] := hnil
    exact hne (List.forall₂_nil_right_iff.mp hitems)
  · obtain ⟨x, hx, hfrozen⟩ := Related.mem_left hitems.flip hitem
    obtain ⟨n, hn⟩ := (hpacked x hx).2.1
    exact ⟨n, hfrozen.label.trans hn⟩
  · have hrows : evidence.ranked ids.bundle "governed_evidence" =
        Evidence.frozenRows sha256 ids run.projectId pack.evidence := by
      rw [heq]
      exact Evidence.ranked_governed hunused.2
    unfold Evidence.loadGovernedEvidenceBundle at hload
    rw [hrows] at hload
    obtain ⟨loaded, hmapped, hload⟩ := Fallible.bind_eq_ok.mp hload
    obtain rfl : loaded = items := congrArg FrozenEvidenceBundle.evidence (Except.ok.inj hload)
    obtain ⟨row, hrow, hrowItem⟩ := Fallible.mem_of_mapM hmapped hitem
    obtain ⟨entry, -, rfl⟩ := List.mem_map.mp hrow
    refine ⟨_, ?_, loadGoverned_rowOf hrowItem rfl⟩
    show _ ∈ evidence.snapshots
    rw [heq]
    exact List.mem_append_left _ hrow
  · obtain ⟨x, hx, hfrozen⟩ := Related.mem_left hitems.flip hitem
    obtain ⟨hproject, -, hadmissible⟩ := hpacked x hx
    refine ⟨hfrozen.projectId.trans hproject, ?_⟩
    rw [hfrozen.documentVersionId, hfrozen.knowledgeSpaceId]
    exact hadmissible.passed hp

theorem govern_evidence_left (h : At run .govern_evidence st w) :
    Prog.Ends (Answers sha256) (Left deps run .govern_evidence st)
      (governEvidenceNode deps st) w := by
  obtain ⟨hprompt, context, hscope, hchunks⟩ := h.facts
  obtain ⟨scopeId, hscopeId, hcontext, hproject, hauthorized⟩ := hscope
  obtain ⟨bundle, hbundle, hbundleId, chunks, hload, hpermitted⟩ := hchunks
  simp only [governEvidenceNode, Prog.bind_eq, Prog.pure_eq, required_bind h.ownRun,
    required_bind hproject,
    required_bind hbundleId, required_bind hscopeId]
  refine h.start.loadedAs Left.raise hcontext rfl fun w₁ h₁ => ?_
  refine h₁.said Left.raise fun query w₂ _ h₂ => ?_
  refine h₂.loadedChunks Left.raise ((h₂.passed.chunks hbundle).trans hload) fun w₃ h₃ => ?_
  refine (packEvidence_asks h₃ rfl hpermitted).bind (fun pack w₄ hpacked => ?_) Left.raise
  obtain ⟨⟨cs, hcs, h₄⟩, hpacked⟩ := hpacked
  split
  · exact ⟨h.leave h₄ rfl rfl trivial h.counts.bounded hcs, by simp [rank]⟩
  · next hne =>
    have hnext :=
      all_plain_cons (c := .saveGovernedEvidenceBundle run.id run.projectId query pack) rfl hcs
    refine h₄.said Left.raise (fun id w₅ hx h₅ => ?_) rfl rfl (within_plain hnext)
    obtain ⟨governed, hgoverns⟩ :=
      hx.savedGoverned hpacked (h₄.passed.log.subset hauthorized) fun hnil =>
      hne (List.isEmpty_iff.mpr hnil)
    exact ⟨h.leave h₅ rfl rfl ⟨hprompt.passed h₅.passed, hproject, id, governed, rfl,
      hgoverns⟩ h.counts hnext,
      by simp [rank]⟩

end ProjectAgent.Agent
