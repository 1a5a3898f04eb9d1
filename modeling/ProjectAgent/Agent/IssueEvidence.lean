/-
The evidence of an issue: the current versions of a few categories are asked for,
what the provider returns is filtered and packed, and the items of other
categories are left out of the pack before it is saved. They have then had their
part in the conflicts, the order and the labels.
-/
import ProjectAgent.Agent.Nodes
import ProjectAgent.Evidence.Frozen
import ProjectAgent.Lib.Evaluated

namespace ProjectAgent.Agent

open Evidence (AuthorizedProjectContext Date DocumentCategory DocumentEvidenceMetadata
  EvidenceTables FrozenEvidence
  FrozenEvidenceBundle GovernedEvidence GovernedEvidencePack Ids KnowledgeChunk
    KnowledgeRetrievalRequest StoreError)
open Identifiers (sortedIds)
open Interleave

/-! ## The node -/

/-- `IssueEvidenceSelector.ALLOWED_CATEGORIES`. -/
def ALLOWED_CATEGORIES : List DocumentCategory := [.REQUIREMENT_BASELINE, .APPROVED_TEST_SPEC]

/-- `IssueEvidenceSelector.select_document_version_ids`. -/
def selectDocumentVersionIds (projectId : UUID) (context : AuthorizedProjectContext) :
    Node (List UUID) := do
  let allowed := context.scope.allowedDocumentVersionIds.getD []
  if allowed.isEmpty then pure []
  else
    let metadata ← getDocumentEvidenceMetadata allowed
    let today ← call .today
    pure (sortedIds (allowed.filter fun versionId => (metadata.lookup versionId).any fun item =>
      item.documentCategory ∈ ALLOWED_CATEGORIES && Evidence.eligible projectId today item))

/-- The items of the pack whose documents are of these categories; the conflicts are kept. -/
def ofCategories (pack : GovernedEvidencePack) : GovernedEvidencePack :=
  ⟨pack.evidence.filter (·.documentCategory ∈ ALLOWED_CATEGORIES), pack.unresolvedConflicts⟩

def evidenceRequired (state : AgentState) : AgentState :=
  { state with route := some "refusal", lastErrorCode := some "EVIDENCE_REQUIRED" }

def retrieveIssueEvidenceNode (deps : Deps) (state : AgentState) : Node AgentState := do
  match state.projectId, state.accessScopeId with
  | some projectId, some scopeId =>
    let runId ← required "run_id" state.runId
    let context ← loadAs "AuthorizedProjectContext" (·.projectAccessScope?) scopeId
    let query ← call (.loadQuery runId)
    let versionIds ← selectDocumentVersionIds projectId context
    if versionIds.isEmpty then pure (evidenceRequired state)
    else
      match Evidence.constrainRetrieval ⟨context.projectCode, query, 10, versionIds.map (·.str),
        []⟩ context with
      | .error denied => throw (.authorizationDenied denied.text)
      | .ok none => pure (evidenceRequired state)
      | .ok (some constrained) =>
        call (.incrementRetrievalRounds runId)
        let chunks := Evidence.postfilterEvidence (← call (.retrieve constrained)) context
        let pack := ofCategories (← packEvidence deps projectId context.projectCode chunks)
        if pack.evidence.isEmpty then pure (evidenceRequired state)
        else
          let bundleId ← call (.saveGovernedEvidenceBundle runId projectId query pack)
          pure { state with
            evidenceBundleId := some bundleId
            route := some "issue_evidence_ready"
            lastErrorCode := none }
  | _, _ => pure (evidenceRequired state)

/-! ## What it is run on -/

/-- What the node is answered with, while nobody else writes. -/
structure Facts where
  context : AuthorizedProjectContext
  query : String
  documents : Documents.Tables
  today : Date
  /-- What the knowledge port returns. -/
  chunks : List KnowledgeChunk
  ids : Ids
  sha256 : String → String

/-- The answers to the calls of the node; it makes no others. -/
def answer (facts : Facts) :
    (c : Call) → EvidenceTables → Except AgentError c.Answer × EvidenceTables
  | .loadArtifact _, db => (.ok (.projectAccessScope facts.context), db)
  | .loadQuery _, db => (.ok facts.query, db)
  | .documents, db => (.ok facts.documents, db)
  | .today, db => (.ok facts.today, db)
  | .incrementRetrievalRounds _, db => (.ok (), db)
  | .retrieve _, db => (.ok facts.chunks, db)
  | .saveGovernedEvidenceBundle runId projectId queryText pack, db =>
    match Evidence.saveGovernedEvidenceBundle facts.sha256 db facts.ids runId projectId
      queryText pack with
    | .ok db' => (.ok facts.ids.bundle, db')
    | .error e => (.error (.store e), db)
  | _, db => (.error (.raised "NotImplementedError"), db)

variable {facts : Facts} {db db' : EvidenceTables} {deps : Deps} {state state' : AgentState}

theorem call_eval (c : Call) : Prog.eval (answer facts) (call c) db = answer facts c db :=
  Prog.eval_exec _

theorem ofExcept_eval {α : Type} (x : Except StoreError α) :
    Prog.eval (answer facts) (ofExcept x) db = (x.mapError AgentError.store, db) := by
  cases x <;> rfl

theorem metadata_eval (facts : Facts) (db : EvidenceTables) (versionIds : List UUID) :
    Prog.eval (answer facts) (getDocumentEvidenceMetadata versionIds) db =
      ((Evidence.getDocumentEvidenceMetadata facts.documents versionIds).mapError AgentError.store,
        db) := by
  unfold getDocumentEvidenceMetadata Evidence.getDocumentEvidenceMetadata
  cases versionIds.isEmpty with
  | true => rfl
  | false =>
    refine (Prog.eval_bind_ok (call_eval .documents)).trans ?_
    cases hrows : Evidence.requestedRows facts.documents versionIds with
    | nil => rfl
    | cons row rows => exact (Prog.eval_bind_ok (call_eval .documents)).trans (ofExcept_eval _)

/-- The pack of these chunks. -/
def packed (facts : Facts) (maxEvidence : Nat) (projectId : UUID) (chunks : List KnowledgeChunk) :
    Except StoreError GovernedEvidencePack :=
  Evidence.pack (Evidence.getDocumentEvidenceMetadata facts.documents) maxEvidence facts.today
    projectId facts.context.projectCode chunks

/-- The chunks that are left of what the port returns. -/
def postfiltered (facts : Facts) : List KnowledgeChunk :=
  Evidence.postfilterEvidence facts.chunks facts.context

theorem pack_eval (projectId : UUID) (chunks : List KnowledgeChunk) :
    Prog.eval (answer facts) (packEvidence deps projectId facts.context.projectCode chunks) db =
      ((packed facts deps.maxEvidence projectId chunks).mapError AgentError.store, db) := by
  have hmetadata := metadata_eval facts db
    ((Evidence.parsedChunks facts.context.projectCode chunks).map (·.2)).eraseDups
  unfold packEvidence packed
  cases hfound : Evidence.getDocumentEvidenceMetadata facts.documents
      ((Evidence.parsedChunks facts.context.projectCode chunks).map (·.2)).eraseDups with
  | error e =>
    rw [hfound] at hmetadata
    have hpack : Evidence.pack (Evidence.getDocumentEvidenceMetadata facts.documents)
      deps.maxEvidence facts.today projectId
        facts.context.projectCode chunks = .error e := by
      unfold Evidence.pack
      dsimp only
      rw [hfound]
      rfl
    rw [hpack]
    exact Prog.eval_bind_error hmetadata
  | ok metadata =>
    rw [hfound] at hmetadata
    have hpack : Evidence.pack (Evidence.getDocumentEvidenceMetadata facts.documents)
      deps.maxEvidence facts.today projectId
        facts.context.projectCode chunks =
          Evidence.pack (fun _ => .ok metadata) deps.maxEvidence facts.today projectId
            facts.context.projectCode chunks := by
      unfold Evidence.pack
      dsimp only
      rw [hfound]
    rw [hpack]
    exact (Prog.eval_bind_ok hmetadata).trans
      ((Prog.eval_bind_ok (call_eval .today)).trans (ofExcept_eval _))

/-! ## What is stored -/

/-- What the node saves of the chunks. -/
structure Stores (facts : Facts) (deps : Deps) (state : AgentState) (db : EvidenceTables)
    (state' : AgentState) (db' : EvidenceTables) (projectId runId : UUID)
    (p : GovernedEvidencePack) : Prop where
  project : state.projectId = some projectId
  run : state.runId = some runId
  pack : packed facts deps.maxEvidence projectId (postfiltered facts) = .ok p
  nonempty : (ofCategories p).evidence ≠ []
  saved : Evidence.saveGovernedEvidenceBundle facts.sha256 db facts.ids runId projectId facts.query
    (ofCategories p) = .ok db'
  state' : state' = { state with
    evidenceBundleId := some facts.ids.bundle
    route := some "issue_evidence_ready"
    lastErrorCode := none }

theorem required_eval {α : Type} {key : String} {found : Option α} {a : α}
    (h : Prog.eval (answer facts) (required key found) db = (.ok a, db')) :
    found = some a ∧ db' = db := by
  cases found with
  | none => cases h
  | some a' =>
    cases h
    exact ⟨rfl, rfl⟩

theorem scope_eval {model : String} {artifactId : UUID} {context : AuthorizedProjectContext}
    (h : Prog.eval (answer facts) (loadAs model (·.projectAccessScope?) artifactId) db =
      (.ok context, db')) :
    context = facts.context ∧ db' = db := by
  cases h
  exact ⟨rfl, rfl⟩

theorem packed_ok {x : Except StoreError GovernedEvidencePack} {p : GovernedEvidencePack}
    (h : (x.mapError AgentError.store, db) =
      ((.ok p : Except AgentError GovernedEvidencePack), db')) :
    x = .ok p ∧ db' = db := by
  cases x with
  | error e => cases h
  | ok p' =>
    cases h
    exact ⟨rfl, rfl⟩

theorem save_ok {runId projectId bundleId : UUID} {queryText : String} {p : GovernedEvidencePack}
    (h : answer facts (.saveGovernedEvidenceBundle runId projectId queryText p) db =
      (.ok bundleId, db')) :
    Evidence.saveGovernedEvidenceBundle facts.sha256 db facts.ids runId projectId queryText p =
      .ok db' ∧ bundleId = facts.ids.bundle := by
  unfold answer at h
  dsimp only at h
  cases hsave : Evidence.saveGovernedEvidenceBundle facts.sha256 db facts.ids runId projectId
    queryText p with
  | error e =>
    rw [hsave] at h
    cases h
  | ok db₁ =>
    rw [hsave] at h
    cases h
    exact ⟨rfl, rfl⟩

theorem selectDocumentVersionIds_eval {projectId : UUID} {versionIds : List UUID}
    (h : Prog.eval (answer facts) (selectDocumentVersionIds projectId facts.context) db =
      (.ok versionIds, db')) :
    db' = db := by
  unfold selectDocumentVersionIds at h
  dsimp only at h
  split at h
  · exact (congrArg Prod.snd h).symm
  · obtain ⟨metadata, db₁, hmetadata, h⟩ := Prog.eval_bind_eq_ok h
    rw [metadata_eval] at hmetadata
    obtain ⟨today, db₂, htoday, h⟩ := Prog.eval_bind_eq_ok h
    rw [call_eval] at htoday
    calc db' = db₂ := (congrArg Prod.snd h).symm
      _ = db₁ := (congrArg Prod.snd htoday).symm
      _ = db := (congrArg Prod.snd hmetadata).symm

/-- **A run that ends ready has saved the items of these categories of the pack**, and one that does
not has saved nothing. -/
theorem stores_or_same
    (h : Prog.eval (answer facts) (retrieveIssueEvidenceNode deps state) db = (.ok state', db')) :
    (state' = evidenceRequired state ∧ db' = db) ∨
      ∃ projectId runId p, Stores facts deps state db state' db' projectId runId p := by
  unfold retrieveIssueEvidenceNode at h
  split at h
  · next projectId scopeId hproject hscope =>
    obtain ⟨runId, db₁, hrun, h₁⟩ := Prog.eval_bind_eq_ok h
    obtain ⟨hrunId, rfl⟩ := required_eval hrun
    obtain ⟨context, db₂, hcontext, h₂⟩ := Prog.eval_bind_eq_ok h₁
    obtain ⟨rfl, rfl⟩ := scope_eval hcontext
    obtain ⟨query, db₃, hquery, h₃⟩ := Prog.eval_bind_eq_ok h₂
    rw [call_eval] at hquery
    cases hquery
    obtain ⟨versionIds, db₄, hversionIds, h₄⟩ := Prog.eval_bind_eq_ok h₃
    obtain rfl := selectDocumentVersionIds_eval hversionIds
    split at h₄
    · cases h₄
      exact .inl ⟨rfl, rfl⟩
    · split at h₄
      · cases h₄
      · cases h₄
        exact .inl ⟨rfl, rfl⟩
      · next constrained hconstrained =>
        obtain ⟨_, db₅, hrounds, h₅⟩ := Prog.eval_bind_eq_ok h₄
        rw [call_eval] at hrounds
        cases hrounds
        obtain ⟨chunks, db₆, hchunks, h₆⟩ := Prog.eval_bind_eq_ok h₅
        rw [call_eval] at hchunks
        cases hchunks
        obtain ⟨p, db₇, hpack, h₇⟩ := Prog.eval_bind_eq_ok h₆
        rw [pack_eval] at hpack
        obtain ⟨hp, rfl⟩ := packed_ok hpack
        dsimp only at h₇
        split at h₇
        · cases h₇
          exact .inl ⟨rfl, rfl⟩
        · next hnonempty =>
          obtain ⟨bundleId, db₈, hsave, h₈⟩ := Prog.eval_bind_eq_ok h₇
          rw [call_eval] at hsave
          obtain ⟨hsaved, rfl⟩ := save_ok hsave
          cases h₈
          refine .inr ⟨projectId, runId, p, hproject, hrunId, hp, fun hempty => hnonempty ?_,
            hsaved, rfl⟩
          exact List.isEmpty_iff.mpr hempty
  · cases h
    exact .inl ⟨rfl, rfl⟩

/-! ## Chunks of these categories -/

/-- The version's document is of these categories. -/
def ofCategory (found : List (UUID × DocumentEvidenceMetadata)) (versionId : UUID) : Bool :=
  (found.lookup versionId).any (·.documentCategory ∈ ALLOWED_CATEGORIES)

/-- The chunks whose documents are of these categories. -/
def chunksOfCategories (found : List (UUID × DocumentEvidenceMetadata))
    (chunks : List KnowledgeChunk) : List KnowledgeChunk :=
  chunks.filter fun chunk => (UUID.parse chunk.documentVersionId).any (ofCategory found)

variable {found : List (UUID × DocumentEvidenceMetadata)} {today : Date} {projectId : UUID}
  {projectCode : String}

theorem parsedChunks_ofCategories (chunks : List KnowledgeChunk) :
    Evidence.parsedChunks projectCode (chunksOfCategories found chunks) =
      (Evidence.parsedChunks projectCode chunks).filter fun entry => ofCategory found entry.2 := by
  induction chunks with
  | nil => rfl
  | cons chunk chunks ih =>
    unfold chunksOfCategories Evidence.parsedChunks at ih ⊢
    rw [List.filter_cons, List.filterMap_cons]
    by_cases hcode : chunk.projectId ≠ projectCode
    · rw [if_pos hcode]
      split
      · rw [List.filterMap_cons, if_pos hcode]
        exact ih
      · exact ih
    · rw [if_neg hcode]
      cases hparse : UUID.parse chunk.documentVersionId with
      | none =>
        rw [Option.any_none, if_neg Bool.false_ne_true]
        exact ih
      | some versionId =>
        rw [Option.any_some, Option.map_some]
        dsimp only
        rw [List.filter_cons]
        cases ofCategory found versionId with
        | false => exact ih
        | true =>
          rw [if_pos rfl, if_pos rfl, List.filterMap_cons, if_neg hcode, hparse]
          exact congrArg _ ih

/-- **Candidates of these categories are the candidates of the chunks of these categories**: what is
seen before is of one version. -/
theorem candidates_ofCategories (parsed : List (KnowledgeChunk × UUID))
    {seen seen' : List (UUID × String)}
    (hseen : ∀ versionId text, ofCategory found versionId = true →
      ((versionId, text) ∈ seen ↔ (versionId, text) ∈ seen')) :
    Evidence.candidates (fun versionId => found.lookup versionId) today projectId projectCode seen
        (parsed.filter fun entry => ofCategory found entry.2) =
      (Evidence.candidates (fun versionId =>
        found.lookup versionId) today projectId projectCode seen' parsed).filter
        (·.documentCategory ∈ ALLOWED_CATEGORIES) := by
  induction parsed generalizing seen seen' with
  | nil => rfl
  | cons entry parsed ih =>
    obtain ⟨chunk, versionId⟩ := entry
    rw [List.filter_cons]
    cases hcategory : ofCategory found versionId with
    | true =>
      rw [if_pos rfl]
      unfold Evidence.candidates
      cases hinfo : (found.lookup versionId).filter (Evidence.eligible projectId today) with
      | none => exact ih hseen
      | some info =>
        dsimp only
        by_cases hmem : (versionId, strip chunk.content) ∈ seen
        · rw [if_pos hmem, if_pos ((hseen _ _ hcategory).mp hmem)]
          exact ih hseen
        · rw [if_neg hmem, if_neg fun h => hmem ((hseen _ _ hcategory).mpr h), List.filter_cons]
          have hlookup := (Option.filter_eq_some_iff.mp hinfo).1
          have hallowed : decide (info.documentCategory ∈ ALLOWED_CATEGORIES) = true := by
            unfold ofCategory at hcategory
            rwa [hlookup] at hcategory
          have hdoc : (Evidence.candidate projectId projectCode chunk versionId
              info).documentCategory = info.documentCategory := rfl
          rw [hdoc, if_pos hallowed]
          refine congrArg _ (ih fun versionId' text h => ?_)
          rw [List.mem_cons, List.mem_cons, hseen _ _ h]
    | false =>
      rw [if_neg Bool.false_ne_true]
      conv => rhs; unfold Evidence.candidates
      cases hinfo : (found.lookup versionId).filter (Evidence.eligible projectId today) with
      | none => exact ih hseen
      | some info =>
        dsimp only
        by_cases hmem : (versionId, strip chunk.content) ∈ seen'
        · rw [if_pos hmem]
          exact ih hseen
        · rw [if_neg hmem, List.filter_cons]
          have hlookup := (Option.filter_eq_some_iff.mp hinfo).1
          have hother : decide (info.documentCategory ∈ ALLOWED_CATEGORIES) = false := by
            unfold ofCategory at hcategory
            rwa [hlookup] at hcategory
          have hdoc : (Evidence.candidate projectId projectCode chunk versionId
              info).documentCategory = info.documentCategory := rfl
          rw [hdoc, hother, if_neg Bool.false_ne_true]
          refine ih fun versionId' text h => ?_
          rw [List.mem_cons, hseen _ _ h, or_iff_right]
          rintro heq
          obtain ⟨rfl, -⟩ := Prod.mk.inj heq
          rw [hcategory] at h
          cases h

/-! ## What is loaded -/

/-- What the conflicts of a bundle name: items of the bundle that are flagged with the key. -/
def Noted (bundle : FrozenEvidenceBundle) : Prop :=
  ∀ key labels, bundle.unresolvedConflicts.lookup key = some labels → labels ≠ [] ∧
    ∀ label ∈ labels,
    ∃ item ∈ bundle.evidence, item.label = label ∧ item.conflictKey = some key ∧
      item.unresolvedConflict = true

/-- Two items of the bundle claim different values of the key. -/
def Supported (bundle : FrozenEvidenceBundle) (key : String) : Prop :=
  ∃ a ∈ bundle.evidence, ∃ b ∈ bundle.evidence, a.conflictKey = some key ∧
    b.conflictKey = some key ∧ a.claimValue ≠ b.claimValue

theorem ofCategories_evidence {p : GovernedEvidencePack} {item : GovernedEvidence} :
    item ∈ (ofCategories p).evidence ↔ item ∈ p.evidence ∧
      item.documentCategory ∈ ALLOWED_CATEGORIES := by
  unfold ofCategories
  rw [List.mem_filter, decide_eq_true_iff]

/-- What is loaded of the items of these categories of a pack. -/
theorem load_ofCategories {maxEvidence : Nat} {chunks : List KnowledgeChunk} {runId : UUID}
    {p : GovernedEvidencePack}
    (hpack : packed facts maxEvidence projectId chunks = .ok p)
    (hfresh : ∀ row ∈ db.snapshots, row.bundleId ≠ facts.ids.bundle)
    (hsave : Evidence.saveGovernedEvidenceBundle facts.sha256 db facts.ids runId projectId
      facts.query (ofCategories p) = .ok db') :
    ∃ bundle, Evidence.loadGovernedEvidenceBundle db' facts.ids.bundle = .ok bundle ∧
      List.Forall₂ (Evidence.FrozenAs facts.sha256) (ofCategories p).evidence bundle.evidence ∧
      ∀ key, bundle.unresolvedConflicts.lookup key =
        if Evidence.conflicting (ofCategories p).evidence key = [] then none
        else some ((Evidence.conflicting (ofCategories p).evidence key).map (·.label)) := by
  have hproject : ∀ x ∈ (ofCategories p).evidence, x.projectId = projectId := fun x hx =>
    Evidence.packed_projectId hpack x (ofCategories_evidence.mp hx).1
  obtain ⟨evidence, hload, hevidence⟩ := Evidence.load_governed hproject hfresh hsave
  refine ⟨_, hload, hevidence, fun key => Evidence.lookup_noted_items (fun x hx hflag => ?_) key⟩
  obtain ⟨found, -, rfl⟩ := Evidence.pack_eq hpack
  exact Evidence.packed_keyed (fun item hitem => Evidence.candidates_plain hitem)
    (ofCategories_evidence.mp hx).1 hflag

theorem noted_of_load {p : GovernedEvidencePack} {bundle : FrozenEvidenceBundle}
    (hevidence : List.Forall₂ (Evidence.FrozenAs facts.sha256)
      (ofCategories p).evidence bundle.evidence)
    (hlookup : ∀ key, bundle.unresolvedConflicts.lookup key =
      if Evidence.conflicting (ofCategories p).evidence key = [] then none
      else some ((Evidence.conflicting (ofCategories p).evidence key).map (·.label))) : Noted
        bundle := by
  intro key labels hlabels
  rw [hlookup] at hlabels
  split at hlabels
  · cases hlabels
  · next hne =>
    obtain rfl := Option.some.inj hlabels
    refine ⟨fun h => hne (List.map_eq_nil_iff.mp h), fun label hlabel => ?_⟩
    obtain ⟨item, hitem, rfl⟩ := List.mem_map.mp hlabel
    obtain ⟨hmem, hflag, hkey, -⟩ := Evidence.mem_conflicting.mp hitem
    obtain ⟨loaded, hloaded, hfrozen⟩ := Related.mem_left hevidence hmem
    exact ⟨loaded, hloaded, hfrozen.label, hfrozen.conflictKey.trans hkey,
      hfrozen.unresolvedConflict.trans hflag⟩

/-- A conflict none of whose items is of another category is between two items. -/
theorem supported_of_load {maxEvidence : Nat} {items : List GovernedEvidence}
    {bundle : FrozenEvidenceBundle} {key : String}
    (hplain : ∀ item ∈ items, item.unresolvedConflict = false)
    (hevidence : List.Forall₂ (Evidence.FrozenAs facts.sha256)
      (ofCategories (Evidence.packOf maxEvidence items)).evidence bundle.evidence)
    (hcategories : ∀ item ∈ (Evidence.packOf maxEvidence items).evidence,
      item.unresolvedConflict = true → item.conflictKey = some key →
      item.documentCategory ∈ ALLOWED_CATEGORIES)
    (hnoted : Evidence.conflicting (ofCategories (Evidence.packOf maxEvidence items)).evidence key ≠
      []) :
    Supported bundle key := by
  obtain ⟨item, hitem⟩ := List.exists_mem_of_ne_nil _ hnoted
  obtain ⟨hmem, hflag, hkey, -⟩ := Evidence.mem_conflicting.mp hitem
  obtain ⟨key', -, hkey', hdistinct⟩ :=
    Evidence.packed_conflict hplain (ofCategories_evidence.mp hmem).1 hflag
  obtain rfl : key = key' := Option.some.inj (hkey.symm.trans hkey')
  have hloaded {x : GovernedEvidence}
    (hx : x ∈ Evidence.conflicting (Evidence.packOf maxEvidence items).evidence key) :
      ∃ loaded ∈ bundle.evidence, loaded.conflictKey = some key ∧
        loaded.claimValue = x.claimValue := by
    obtain ⟨hmem, hflag, hkey, -⟩ := Evidence.mem_conflicting.mp hx
    have hin := ofCategories_evidence.mpr ⟨hmem, hcategories x hmem hflag hkey⟩
    obtain ⟨loaded, hloaded, hfrozen⟩ := Related.mem_left hevidence hin
    exact ⟨loaded, hloaded, hfrozen.conflictKey.trans hkey, hfrozen.claimValue⟩
  have hin : item ∈ Evidence.conflicting (Evidence.packOf maxEvidence items).evidence key :=
    Evidence.mem_conflicting.mpr ⟨(ofCategories_evidence.mp hmem).1, hflag, hkey,
      (Evidence.mem_conflicting.mp hitem).2.2.2⟩
  obtain ⟨value, hvalue, hne⟩ :=
    Evidence.exists_ne_of_distinctCount hdistinct.ne' (List.mem_map_of_mem hin)
  obtain ⟨other, hother, rfl⟩ := List.mem_map.mp hvalue
  obtain ⟨a, ha, hakey, haclaim⟩ := hloaded hother
  obtain ⟨b, hb, hbkey, hbclaim⟩ := hloaded hin
  exact ⟨a, ha, b, hb, hakey, hbkey, fun h => hne (haclaim.symm.trans (h.trans hbclaim))⟩

/-- Every eligible document of these chunks is of these categories. -/
def AllOfCategories (found : List (UUID × DocumentEvidenceMetadata)) (today : Date)
    (projectId : UUID) (chunks : List KnowledgeChunk) : Prop :=
  ∀ chunk ∈ chunks, ∀ versionId info, UUID.parse chunk.documentVersionId = some versionId →
    found.lookup versionId = some info →
    Evidence.eligible projectId today info = true → info.documentCategory ∈ ALLOWED_CATEGORIES

theorem candidates_all {chunks : List KnowledgeChunk}
    (hall : AllOfCategories found today projectId chunks) :
    ∀ item ∈ Evidence.candidates (fun versionId =>
      found.lookup versionId) today projectId projectCode []
      (Evidence.parsedChunks projectCode chunks), item.documentCategory ∈ ALLOWED_CATEGORIES := by
  intro item hitem
  obtain ⟨chunk, versionId, info, hparsed, hinfo, heligible, rfl⟩ := Evidence.mem_candidates hitem
  obtain ⟨hchunk, -, hparse⟩ := Evidence.mem_parsedChunks hparsed
  exact hall chunk hchunk versionId info hparse hinfo heligible

/-- The pack of the chunks of these categories, if the others are not eligible. -/
theorem pack_ofCategories {maxEvidence : Nat} {chunks : List KnowledgeChunk}
    (hall : AllOfCategories found today projectId chunks) :
    Evidence.pack (fun _ => .ok found) maxEvidence today projectId projectCode
      (chunksOfCategories found chunks) =
      Evidence.pack (fun _ => .ok found) maxEvidence today projectId projectCode chunks := by
  have hcandidates : Evidence.candidates (fun versionId =>
    found.lookup versionId) today projectId projectCode []
      (Evidence.parsedChunks projectCode (chunksOfCategories found chunks)) =
        Evidence.candidates (fun versionId => found.lookup versionId) today projectId projectCode []
          (Evidence.parsedChunks projectCode chunks) := by
    rw [parsedChunks_ofCategories, candidates_ofCategories _ fun _ _ _ => Iff.rfl]
    exact List.filter_eq_self.mpr fun item hitem => decide_eq_true (candidates_all hall item hitem)
  show Except.ok (Evidence.packOf _ _) = Except.ok (Evidence.packOf _ _)
  rw [hcandidates]

theorem ofCategories_all {maxEvidence : Nat} {items : List GovernedEvidence}
    (hall : ∀ item ∈ items, item.documentCategory ∈ ALLOWED_CATEGORIES) :
    (ofCategories (Evidence.packOf maxEvidence items)).evidence =
      (Evidence.packOf maxEvidence items).evidence := by
  refine List.filter_eq_self.mpr fun x hx => decide_eq_true ?_
  obtain ⟨item, hitem, label, flag, rfl⟩ := Evidence.mem_packOf hx
  exact hall item hitem

/-- **The bundle is what these categories have in the pack of the chunks that are left**, under the
labels they have there. Its conflicts name flagged items of it, and a conflict that no other
category has part in is between two of them. Without other categories it is the pack of the chunks
of these, conflicts included. -/
theorem issue_evidence_stored
    (hrun : Prog.eval (answer facts) (retrieveIssueEvidenceNode deps state) db = (.ok state', db'))
    (hready : state'.route = some "issue_evidence_ready")
    (hfresh : ∀ row ∈ db.snapshots, row.bundleId ≠ facts.ids.bundle) :
    ∃ projectId found p bundle, state.projectId = some projectId ∧
      Evidence.getDocumentEvidenceMetadata facts.documents
        ((Evidence.parsedChunks facts.context.projectCode (postfiltered facts)).map (·.2)).eraseDups
          = .ok found ∧
      packed facts deps.maxEvidence projectId (postfiltered facts) = .ok p ∧
        state'.evidenceBundleId = some facts.ids.bundle ∧
      Evidence.loadGovernedEvidenceBundle db' facts.ids.bundle = .ok bundle ∧
      List.Forall₂ (Evidence.FrozenAs facts.sha256)
        (p.evidence.filter (·.documentCategory ∈ ALLOWED_CATEGORIES)) bundle.evidence ∧
      Noted bundle ∧
      (∀ key labels, bundle.unresolvedConflicts.lookup key = some labels →
        (∀ item ∈ p.evidence, item.unresolvedConflict = true → item.conflictKey = some key →
          item.documentCategory ∈ ALLOWED_CATEGORIES) → Supported bundle key) ∧
      (AllOfCategories found facts.today projectId (postfiltered facts) →
        Evidence.pack (fun _ => .ok found) deps.maxEvidence facts.today projectId
          facts.context.projectCode
            (chunksOfCategories found (postfiltered facts)) = .ok p ∧
          List.Forall₂ (Evidence.FrozenAs facts.sha256) p.evidence bundle.evidence ∧
          ∀ key, bundle.unresolvedConflicts.lookup key = p.unresolvedConflicts.lookup key) := by
  rcases stores_or_same hrun with ⟨rfl, -⟩ | ⟨projectId, runId, p, hstores⟩
  · have hroute : some "refusal" = some "issue_evidence_ready" := hready
    exact absurd hroute (by decide)
  · obtain ⟨bundle, hload, hevidence, hlookup⟩ :=
      load_ofCategories hstores.pack hfresh hstores.saved
    obtain ⟨found, hfound, rfl⟩ := Evidence.pack_eq hstores.pack
    have hnoted := noted_of_load hevidence hlookup
    refine ⟨projectId, found, _, bundle, hstores.project, hfound, hstores.pack, ?_, hload,
      hevidence, hnoted, ?_, ?_⟩
    · rw [hstores.state']
    · intro key labels hlabels hcategories
      refine supported_of_load (fun item hitem =>
        Evidence.candidates_plain hitem) hevidence hcategories fun hnone => ?_
      rw [hlookup, if_pos hnone] at hlabels
      cases hlabels
    · intro hall
      rw [ofCategories_all (candidates_all hall)] at hevidence
      refine ⟨pack_ofCategories hall, hevidence, fun key => ?_⟩
      rw [hlookup, ofCategories_all (candidates_all hall), Evidence.lookup_packOf fun item hitem =>
        Evidence.candidates_plain hitem]

section Sample

def requirement : Documents.DocumentVersion :=
  { id := .ofNat 7, documentId := .ofNat 10, versionNo := 1, versionLabel := "v", authorityLevel := "requirement_baseline"
    lifecycleStatus := .PUBLISHED, effectiveFrom := none, effectiveTo :=
      none, supersedesVersionId := none
    sourceUri := none, contentHash := none, publishedAt := none, createdBy := .ofNat 3 }

/-- What the port returns of a version. -/
def claiming (versionId : UUID) (value : String) (score : ℚ) : KnowledgeChunk :=
  ⟨"P-1", versionId.str, value, .finite score, some "space", none, none, none,
    Dict.ofList [("conflict_key", "deadline"), ("claim_value", value)]⟩

/-- A requirement and a design of the same authority; the design is not asked for, and returned. -/
def designFacts : Facts where
  context := ⟨⟨.ofNat 1, .ofNat 3, [], [.ofNat 2], some [.ofNat 7, .ofNat 8], [], [], 0,
    "project-membership-v1"⟩, "P-1", ["space"]⟩
  query := "deadline"
  documents :=
    { documents := [⟨.ofNat 10, .ofNat 1, .ofNat 2, "requirement_baseline", "Requirement", none⟩,
        ⟨.ofNat 11, .ofNat 1, .ofNat 2, "approved_design", "Design", none⟩]
      versions := [requirement, { requirement with id := .ofNat 8, documentId := .ofNat 11 }]
      audits := [] }
  today := ⟨2024, 0, 0⟩
  chunks := [claiming (.ofNat 8) "May" (9 / 10), claiming (.ofNat 7) "June" (8 / 10)]
  ids := ⟨.ofNat 50, fun rank => .ofNat (60 + rank)⟩
  sha256 := id

def sampleDeps : Deps := ⟨"model", false, 8, fun _ => [], fun _ => ""⟩

def issueState : AgentState :=
  { runId := some (.ofNat 4), userId := some (.ofNat 3), projectId := some (.ofNat 2), accessScopeId := some (.ofNat 5) }

def issueRun : Except AgentError AgentState × EvidenceTables :=
  Prog.eval (answer designFacts) (retrieveIssueEvidenceNode sampleDeps issueState) ⟨[], []⟩

/-- The labels and conflicts of the stored bundle. -/
def storedLabels : Option (List String × List (String × List String)) :=
  (Evidence.loadGovernedEvidenceBundle issueRun.2 (.ofNat 50)).toOption.map fun bundle =>
    (bundle.evidence.map (·.label), bundle.unresolvedConflicts)

/-- The labels and conflicts of the pack of the requirement's chunk. -/
def packedLabels : Option (List String × List (String × List String)) :=
  (packed designFacts 8 (.ofNat 2) [claiming (.ofNat 7) "June" (8 / 10)]).toOption.map fun p =>
    (p.evidence.map (·.label), p.unresolvedConflicts)

theorem issue_evidence_stored_sample : ∃ state' db' bundle, issueRun = (.ok state', db') ∧
    Evidence.loadGovernedEvidenceBundle db' (.ofNat 50) = .ok bundle ∧ Noted bundle := by
  have hready : issueRun.1.toOption.bind (·.route) = some "issue_evidence_ready" := by
    decide +kernel
  cases hrun : issueRun with
  | mk result db' =>
    rw [hrun] at hready
    cases result with
    | error e => cases hready
    | ok state' =>
      obtain ⟨-, -, -, bundle, -, -, -, -, hload, -, hnoted, -⟩ :=
        issue_evidence_stored hrun hready (fun _ h => nomatch h)
      exact ⟨state', db', bundle, rfl, hload, hnoted⟩

/-- The requirement keeps the label and the flag it has beside the design, which is not stored. -/
theorem design_decides :
    storedLabels = some (["E2"], [("deadline", ["E2"])]) ∧ packedLabels = some (["E1"], []) := by
  decide +kernel

end Sample

end ProjectAgent.Agent
