/-
What is loaded of a bundle is what was saved, as far as the columns hold it.
-/
import ProjectAgent.Evidence.Access
import ProjectAgent.Evidence.Alike
import ProjectAgent.Evidence.Bundles
import ProjectAgent.Lib.Fallible

namespace ProjectAgent.Evidence

variable {ids : Ids} {projectId : UUID} {retrievalRound : Int} {entry : KnowledgeChunk × Nat}
  {row : EvidenceSnapshot Score} {chunks : List KnowledgeChunk}

/-- The score with the digits `Numeric(8, 6)` has. -/
def Score.kept : Score → Score
  | .finite q => .finite (Decimal.round 6 q)
  | score => score

theorem toScore_of_ofScore {score : Score} {number : Numeric}
    (h : Numeric.ofScore score = some number) :
    number.toScore = score.kept := by
  unfold Numeric.ofScore at h
  split at h
  · cases h
    rfl
  · split at h
    · cases h
      rfl
    · cases h
  · cases h
  · cases h

theorem stored_score {score : Score} (hscore : row.score = some score) (hfits : row.fits = true) :
    (row.stored.score.map Numeric.toScore).getD (.finite 0) = score.kept := by
  unfold EvidenceSnapshot.fits columnsTake at hfits
  rw [hscore, Bool.and_eq_true] at hfits
  obtain ⟨number, hnumber⟩ := Option.isSome_iff_exists.mp hfits.2
  unfold EvidenceSnapshot.stored
  dsimp only [Option.getD_some] at hnumber
  rw [hscore, Option.bind_some, hnumber]
  exact toScore_of_ofScore hnumber

/-! ## Chunks -/

/-- The metadata but for the keys that are written over it. -/
def withoutReserved {α : Type} (metadata : Dict α) : Dict α :=
  reservedKeys.foldl (fun metadata key => metadata.erase key) metadata

theorem lookup_eraseAll {α : Type} (keys : List String) (metadata : Dict α) (key : String) :
    (keys.foldl (fun metadata key => metadata.erase key) metadata).lookup key =
      if key ∈ keys then none else metadata.lookup key := by
  induction keys generalizing metadata with
  | nil => rfl
  | cons k keys ih =>
    rw [List.foldl_cons, ih]
    by_cases hin : key ∈ keys
    · rw [if_pos hin, if_pos (List.mem_cons_of_mem _ hin)]
    · rw [if_neg hin]
      by_cases hk : key = k
      · subst hk
        rw [if_pos List.mem_cons_self, Finmap.lookup_erase]
      · rw [if_neg fun h => (List.mem_cons.mp h).elim hk hin, Finmap.lookup_erase_ne hk]

/-- A chunk as the store gives it back. -/
def persisted (entry : KnowledgeChunk × Nat) : KnowledgeChunk :=
  { entry.1 with
    score := entry.1.score.kept
    providerRef := some (orElse entry.1.providerRef ("retrieval:" ++ toString entry.2))
    metadata := withoutReserved entry.1.metadata }

theorem lookup_candidateMetadata {chunk : KnowledgeChunk} {key : String} (h : key ∉ reservedKeys) :
    (candidateMetadata retrievalRound chunk).lookup key = (chunk.metadata.lookup key).map .str := by
  simp only [reservedKeys, List.mem_cons, List.not_mem_nil, or_false, not_or] at h
  obtain ⟨h₁, h₂, h₃, h₄, h₅⟩ := h
  unfold candidateMetadata
  rw [Finmap.lookup_insert_of_ne _ h₅, Finmap.lookup_insert_of_ne _ h₄,
    Finmap.lookup_insert_of_ne _ h₃,
    Finmap.lookup_insert_of_ne _ h₂, Finmap.lookup_insert_of_ne _ h₁, Dict.lookup_map]

theorem metadata_kept (chunk : KnowledgeChunk) :
    Dict.map JsonValue.toStr (withoutReserved (candidateMetadata retrievalRound chunk)) =
      withoutReserved chunk.metadata := by
  refine Finmap.ext_lookup fun key => ?_
  unfold withoutReserved
  rw [Dict.lookup_map, lookup_eraseAll, lookup_eraseAll]
  by_cases hkey : key ∈ reservedKeys
  · rw [if_pos hkey, if_pos hkey]
    rfl
  · rw [if_neg hkey, if_neg hkey, lookup_candidateMetadata hkey, Option.map_map]
    exact Option.map_id'

/-- What is written under the reserved keys. -/
theorem lookup_reserved (chunk : KnowledgeChunk) :
    (candidateMetadata retrievalRound chunk).lookup "project_code" = some (.str chunk.projectId) ∧
      (candidateMetadata retrievalRound chunk).lookup "knowledge_space_id" =
        some (.ofOption .str chunk.knowledgeSpaceId) ∧
      (candidateMetadata retrievalRound chunk).lookup "page_no" =
        some (.ofOption .int chunk.pageNo) ∧
      (candidateMetadata retrievalRound chunk).lookup "section" =
        some (.ofOption .str chunk.section_) := by
  unfold candidateMetadata
  refine ⟨?_, ?_, ?_, ?_⟩
  · rw [Finmap.lookup_insert_of_ne _ (by decide), Finmap.lookup_insert_of_ne _ (by decide),
      Finmap.lookup_insert_of_ne _ (by decide), Finmap.lookup_insert]
  · rw [Finmap.lookup_insert_of_ne _ (by decide), Finmap.lookup_insert_of_ne _ (by decide),
      Finmap.lookup_insert]
  · rw [Finmap.lookup_insert_of_ne _ (by decide), Finmap.lookup_insert]
  · rw [Finmap.lookup_insert]

theorem toStr_ofOption (text : Option String) :
    (if (JsonValue.ofOption .str text).isNull then none
      else some (JsonValue.ofOption .str text).toStr) = text := by
  cases text <;> rfl

theorem str?_ofOption (text : Option String) : (JsonValue.ofOption .str text).str? = text := by
  cases text <;> rfl

theorem int?_ofOption (n : Option Int) : (JsonValue.ofOption .int n).int? = n := by
  cases n <;> rfl

/-- **A chunk that is saved is loaded**, with the digits of its score the column keeps. -/
theorem load_candidateRow {versionId : UUID} (hversion : entry.1.documentVersionId = versionId.str)
    (hrow : candidateRow ids projectId retrievalRound entry = .ok row) (hfits : row.fits = true) :
    loadCandidate row.stored = .ok (persisted entry) := by
  obtain ⟨⟨projectCode, version, content, score, space, ref, pageNo, section_, metadata⟩, rank⟩ :=
    entry
  obtain rfl : version = versionId.str := hversion
  unfold candidateRow at hrow
  dsimp only at hrow
  rw [UUID.parse_str] at hrow
  cases hrow
  have hkept := stored_score rfl hfits
  obtain ⟨hcode, hspace, hpage, hsection⟩ :=
    @lookup_reserved retrievalRound ⟨projectCode, versionId.str, content, score, space, ref, pageNo,
      section_, metadata⟩
  have hmetadata :=
    @metadata_kept retrievalRound ⟨projectCode, versionId.str, content, score, space, ref, pageNo,
      section_, metadata⟩
  unfold loadCandidate
  rw [hkept]
  unfold EvidenceSnapshot.value EvidenceSnapshot.stored
  dsimp only
  rw [hcode, hspace, hpage, hsection]
  simp only [Option.getD_some, toStr_ofOption, int?_ofOption, str?_ofOption]
  unfold persisted
  dsimp only at hmetadata ⊢
  rw [← hmetadata]
  rfl

theorem persisted_alike (entry : KnowledgeChunk × Nat) :
    AlikeChunk Score.kept entry.1 (persisted entry) where
  projectId := rfl
  documentVersionId := rfl
  content := rfl
  score := rfl
  knowledgeSpaceId := rfl
  pageNo := rfl
  section_ := rfl
  conflictKey := (lookup_eraseAll _ _ _).trans (if_neg (by decide))
  claimValue := (lookup_eraseAll _ _ _).trans (if_neg (by decide))

/-- What the columns take of a chunk at its rank. -/
def chunkFits (entry : KnowledgeChunk × Nat) : Bool :=
  columnsTake (orElse entry.1.providerRef ("retrieval:" ++ toString entry.2)) entry.1.content
    entry.1.score

/-- The chunk's version is a version's id, in its canonical text. -/
def Versioned (chunk : KnowledgeChunk) : Prop :=
  ∃ versionId : UUID, chunk.documentVersionId = versionId.str

theorem postfilter_versioned {raw : List KnowledgeChunk} {context : AuthorizedProjectContext} :
    ∀ c ∈ postfilterEvidence raw context, Versioned c := by
  intro c hc
  obtain ⟨-, -, ⟨_, -, versionId, -, hversion⟩, -⟩ := mem_postfilter hc
  exact ⟨versionId, hversion⟩

theorem candidateRow_ok (ids : Ids) (projectId : UUID) (retrievalRound : Int)
    (hversion : Versioned entry.1) :
    ∃ row, candidateRow ids projectId retrievalRound entry = .ok row ∧
      row.fits = chunkFits entry := by
  obtain ⟨versionId, hversion⟩ := hversion
  unfold candidateRow
  rw [hversion, UUID.parse_str]
  exact ⟨_, rfl, rfl⟩

theorem candidateRow_shape (h : candidateRow ids projectId retrievalRound entry = .ok row) :
    row.bundleId = ids.bundle ∧ row.sourceType = "retrieval_candidate" ∧ row.rank = entry.2 := by
  unfold candidateRow at h
  split at h
  · cases h
  · cases h
    exact ⟨rfl, rfl, rfl⟩

theorem candidateRows_ok (ids : Ids) (projectId : UUID) (retrievalRound : Int)
    {entries : List (KnowledgeChunk × Nat)} (hversions : ∀ entry ∈ entries, Versioned entry.1) :
    ∃ rows, entries.mapM (candidateRow ids projectId retrievalRound) = .ok rows ∧
      List.Forall₂ (fun entry row => candidateRow ids projectId retrievalRound entry = .ok row ∧
        row.fits = chunkFits entry)
        entries rows := by
  induction entries with
  | nil => exact ⟨[], rfl, .nil⟩
  | cons entry entries ih =>
    obtain ⟨row, hrow, hfits⟩ := candidateRow_ok ids projectId retrievalRound
      (hversions entry List.mem_cons_self)
    obtain ⟨rows, hrows, hall⟩ := ih fun e he => hversions e (List.mem_cons_of_mem _ he)
    refine ⟨row :: rows, ?_, .cons ⟨hrow, hfits⟩ hall⟩
    rw [List.mapM_cons, hrow, hrows]
    rfl

variable {db db' : EvidenceTables} {runId : UUID} {queryText : String}

/-- What is inserted: a row for each chunk, or the marker of an empty round. -/
def insertedRows (ids : Ids) (projectId : UUID) (retrievalRound : Int)
    (chunks : List KnowledgeChunk) (rows : List (EvidenceSnapshot Score)) :
    List (EvidenceSnapshot Score) :=
  if chunks.isEmpty then [roundMarker ids projectId retrievalRound] else rows

theorem roundMarker_fits : (roundMarker ids projectId retrievalRound).fits = true := by
  show columnsTake "evaluation:empty-retrieval-round" "" (.finite 0) = true
  decide +kernel

theorem insertedRows_fit {rows : List (EvidenceSnapshot Score)}
    (hrows : List.Forall₂ (fun entry row => candidateRow ids projectId retrievalRound entry =
      .ok row ∧ row.fits = chunkFits entry) (chunks.zipIdx 1) rows) :
    (insertedRows ids projectId retrievalRound chunks rows).all (·.fits) =
      (chunks.zipIdx 1).all chunkFits := by
  unfold insertedRows
  cases chunks with
  | nil =>
    rw [if_pos List.isEmpty_nil, List.all_cons, roundMarker_fits]
    rfl
  | cons c chunks =>
    have hmap := Related.map_eq (fun _ _ h => h.2.symm) hrows
    rw [if_neg (by simp)]
    calc rows.all (·.fits) = (rows.map (·.fits)).all id := by rw [List.all_map]; rfl
      _ = (((c :: chunks).zipIdx 1).map chunkFits).all id := by rw [hmap]
      _ = ((c :: chunks).zipIdx 1).all chunkFits := by rw [List.all_map]; rfl

/-- What a save of versioned chunks does. -/
theorem saveEvidenceBundle_eq (hversions : ∀ c ∈ chunks, Versioned c) : ∃ rows,
    List.Forall₂ (fun entry row => candidateRow ids projectId retrievalRound entry = .ok row ∧
      row.fits = chunkFits entry)
      (chunks.zipIdx 1) rows ∧
    ∀ db', saveEvidenceBundle db ids runId projectId queryText chunks retrievalRound = .ok db' ↔
      (1 ≤ retrievalRound ∧ isText queryText = true ∧ ∀ entry ∈ chunks.zipIdx 1,
        chunkFits entry = true) ∧
        db' = ⟨⟨ids.bundle, runId, queryText⟩ :: db.bundles,
          (insertedRows ids projectId retrievalRound chunks rows).map (·.stored) ++
            db.snapshots⟩ := by
  have hentries : ∀ entry ∈ chunks.zipIdx 1, Versioned entry.1 := fun entry he =>
    hversions entry.1 (List.fst_mem_of_mem_zipIdx he)
  obtain ⟨rows, hrows, hall⟩ := candidateRows_ok ids projectId retrievalRound hentries
  have hfit := insertedRows_fit hall
  refine ⟨rows, hall, fun db' => ?_⟩
  unfold saveEvidenceBundle
  rw [hrows]
  by_cases hround : retrievalRound < 1
  · rw [if_pos hround]
    exact ⟨nofun, fun h => absurd h.1.1 (by omega)⟩
  · rw [if_neg hround]
    unfold EvidenceTables.insertBundle
    by_cases htext : isText queryText = true
    · rw [if_pos htext]
      show EvidenceTables.insertSnapshots _
        (insertedRows ids projectId retrievalRound chunks rows) = _ ↔ _
      unfold EvidenceTables.insertSnapshots
      rw [hfit, ← List.all_eq_true]
      by_cases hfits : (chunks.zipIdx 1).all chunkFits = true
      · rw [if_pos hfits]
        constructor
        · intro h
          cases h
          exact ⟨⟨by omega, htext, hfits⟩, rfl⟩
        · rintro ⟨-, rfl⟩
          rfl
      · rw [if_neg hfits]
        exact ⟨nofun, fun h => absurd h.1.2.2 hfits⟩
    · rw [if_neg htext]
      exact ⟨nofun, fun h => absurd h.1.2.1 htext⟩

/-- The rows of the chunks are read in their order, and an empty round's marker is not read. -/
theorem ranked_candidates {rows : List (EvidenceSnapshot Score)} {bundles : List EvidenceBundle}
    (hfresh : ∀ row ∈ db.snapshots, row.bundleId ≠ ids.bundle)
    (hrows : List.Forall₂ (fun entry row => candidateRow ids projectId retrievalRound entry =
      .ok row) (chunks.zipIdx 1) rows) :
    EvidenceTables.ranked ⟨bundles,
      (insertedRows ids projectId retrievalRound chunks rows).map (·.stored) ++ db.snapshots⟩
      ids.bundle "retrieval_candidate" = rows.map (·.stored) := by
  have hshapes : ∀ row ∈ rows, row.bundleId = ids.bundle ∧
      row.sourceType = "retrieval_candidate" := by
    intro row hrow
    obtain ⟨entry, -, hentry⟩ := Related.mem_left hrows.flip hrow
    exact ⟨(candidateRow_shape hentry).1, (candidateRow_shape hentry).2.1⟩
  have hranks : rows.map (·.rank) = List.range' 1 chunks.length := by
    have hsnd : (chunks.zipIdx 1).map Prod.snd = rows.map (·.rank) :=
      Related.map_eq (fun entry row h => (candidateRow_shape h).2.2.symm) hrows
    rw [← hsnd, List.zipIdx_map_snd]
  have hsorted : (rows.map (·.stored)).Pairwise fun a b => a.rank ≤ b.rank := by
    rw [List.pairwise_map]
    have hle : (rows.map (·.rank)).Pairwise (· ≤ ·) := by
      rw [hranks]
      exact List.pairwise_le_range'
    exact List.pairwise_map.mp hle
  have hmain : EvidenceTables.ranked ⟨bundles, rows.map (·.stored) ++
    db.snapshots⟩ ids.bundle "retrieval_candidate" =
      rows.map (·.stored) := by
    refine @EvidenceTables.ranked_insert ⟨bundles, db.snapshots⟩ _ _ _ hfresh (fun stored hstored =>
      ?_) hsorted
    obtain ⟨row, hrow, rfl⟩ := List.mem_map.mp hstored
    exact hshapes row hrow
  unfold insertedRows
  by_cases hempty : chunks.isEmpty
  · obtain rfl := List.isEmpty_iff.mp hempty
    obtain rfl := List.forall₂_nil_left_iff.mp hrows
    rw [if_pos hempty, ← hmain]
    have hmarker : ((roundMarker ids projectId retrievalRound).stored.sourceType ==
        "retrieval_candidate") = false := by
      show ("retrieval_round_marker" == "retrieval_candidate") = false
      decide
    unfold EvidenceTables.ranked
    rw [List.map_cons, List.map_nil, List.singleton_append, List.nil_append,
      List.filter_cons, hmarker,
      Bool.and_false, if_neg Bool.false_ne_true]
  · rw [if_neg hempty]
    exact hmain

/-- **The chunks of a bundle are loaded as the columns keep them.** -/
theorem load_save (hfresh : ∀ row ∈ db.snapshots, row.bundleId ≠ ids.bundle)
    (hversions : ∀ c ∈ chunks, Versioned c)
    (hsave : saveEvidenceBundle db ids runId projectId queryText chunks retrievalRound = .ok db') :
    loadEvidenceBundle db' ids.bundle = .ok ((chunks.zipIdx 1).map persisted) := by
  obtain ⟨rows, hrows, heq⟩ :=
    @saveEvidenceBundle_eq ids projectId retrievalRound chunks db runId queryText hversions
  obtain ⟨⟨-, -, hfits⟩, rfl⟩ := (heq db').mp hsave
  have hentries : ∀ entry ∈ chunks.zipIdx 1, Versioned entry.1 ∧ chunkFits entry = true :=
    fun entry he =>
    ⟨hversions entry.1 (List.fst_mem_of_mem_zipIdx he), hfits entry he⟩
  unfold loadEvidenceBundle
  rw [ranked_candidates hfresh (hrows.imp fun _ _ h => h.1), Fallible.mapM_eq_ok,
    List.forall₂_map_left_iff,
    List.forall₂_map_right_iff]
  refine ((List.forall₂_and_left _ _).mpr ⟨hentries, hrows⟩).flip.imp fun row entry h => ?_
  obtain ⟨⟨⟨versionId, hversion⟩, hfits⟩, hrow, hsame⟩ := h
  exact load_candidateRow hversion hrow (hsame.trans hfits)

/-! ## The order of scores -/

theorem keepsOrder_id (scores : Score → Prop) : KeepsOrder id scores := fun _ _ _ _ => ⟨rfl, rfl⟩

/-- Scores that stay apart are kept in their order. -/
theorem keepsOrder_kept {scores : Score → Prop}
    (hapart : ∀ s t, scores s → scores t → s.kept = t.kept → s = t) :
    KeepsOrder Score.kept scores := by
  intro s t hs ht
  have hapart := hapart s t hs ht
  cases s with
  | finite a =>
    cases t with
    | finite b =>
      have heq : Decimal.round 6 a = Decimal.round 6 b ↔ a = b := by
        constructor
        · intro h
          cases hapart (congrArg Score.finite h)
          rfl
        · rintro rfl
          rfl
      have hlt : Decimal.round 6 a < Decimal.round 6 b ↔ a < b := by
        constructor
        · intro h
          by_contra hle
          exact absurd h (not_lt.mpr (Decimal.round_mono (not_lt.mp hle)))
        · intro h
          exact lt_of_le_of_ne (Decimal.round_mono (le_of_lt h)) fun hsame =>
            absurd (heq.mp hsame) (ne_of_lt h)
      exact ⟨decide_eq_decide.mpr hlt, decide_eq_decide.mpr heq⟩
    | nan | negInf | posInf => exact ⟨rfl, rfl⟩
  | nan | negInf | posInf => cases t <;> exact ⟨rfl, rfl⟩

/-- The chunk with the digits of its score the column keeps. -/
def KnowledgeChunk.rounded (chunk : KnowledgeChunk) : KnowledgeChunk :=
  { chunk with score := chunk.score.kept }

/-- What a bundle of retrieved chunks is saved with and loaded as. -/
def ChunksSurvive (db : EvidenceTables) (ids : Ids) (runId projectId : UUID) (queryText : String)
    (chunks : List KnowledgeChunk) (retrievalRound : Int) : Prop :=
  ((∃ db', saveEvidenceBundle db ids runId projectId queryText chunks retrievalRound = .ok db') ↔
    1 ≤ retrievalRound ∧ isText queryText = true ∧ ∀ entry ∈ chunks.zipIdx 1,
      chunkFits entry = true) ∧
  ∀ db', saveEvidenceBundle db ids runId projectId queryText chunks retrievalRound = .ok db' →
    ∃ loaded, loadEvidenceBundle db' ids.bundle = .ok loaded ∧
      List.Forall₂ (AlikeChunk Score.kept) chunks loaded ∧
      ∀ (repository : Repository) (maxEvidence : Nat) (today : Date) (projectCode : String),
        PackedAlike id (pack repository maxEvidence today projectId projectCode
          (chunks.map (·.rounded)))
          (pack repository maxEvidence today projectId projectCode loaded) ∧
        ((∀ c ∈ chunks, ∀ d ∈ chunks, c.score.kept = d.score.kept → c.score = d.score) →
          PackedAlike Score.kept (pack repository maxEvidence today projectId projectCode chunks)
            (pack repository maxEvidence today projectId projectCode loaded))

/-- **Retrieved chunks survive, but for the digits of their scores.** Whatever
the provider returns: what is kept of it can be saved if the columns take it, and is then loaded
with its fields and in its order; governance makes the same of it as of the
chunks with the digits that are kept, and as of the chunks themselves if no two scores fall
together. -/
theorem retrieved_chunks_survive (db : EvidenceTables) (ids : Ids) (runId projectId : UUID)
    (queryText : String) (raw : List KnowledgeChunk) (context : AuthorizedProjectContext)
    (retrievalRound : Int) (hfresh : ∀ row ∈ db.snapshots, row.bundleId ≠ ids.bundle) :
    ChunksSurvive db ids runId projectId queryText
      (postfilterEvidence raw context) retrievalRound := by
  have hversions := @postfilter_versioned raw context
  generalize postfilterEvidence raw context = chunks at hversions ⊢
  obtain ⟨rows, -, heq⟩ :=
    @saveEvidenceBundle_eq ids projectId retrievalRound chunks db runId queryText hversions
  refine ⟨⟨fun ⟨db', h⟩ => ((heq db').mp h).1, fun h => ⟨_, (heq _).mpr ⟨h, rfl⟩⟩⟩,
    fun db' hsave => ?_⟩
  have hentries : List.Forall₂ (fun c entry => AlikeChunk Score.kept c (persisted entry)) chunks
      (chunks.zipIdx 1) := by
    have hself : List.Forall₂ (fun entry entry' => AlikeChunk Score.kept entry.1 (persisted entry'))
        (chunks.zipIdx 1) (chunks.zipIdx 1) :=
          List.forall₂_same.mpr fun entry _ => persisted_alike entry
    have hmap : List.Forall₂ (fun c entry => AlikeChunk Score.kept c (persisted entry))
      ((chunks.zipIdx 1).map Prod.fst)
        (chunks.zipIdx 1) := List.forall₂_map_left_iff.mpr hself
    rwa [List.zipIdx_map_fst] at hmap
  have hloaded : List.Forall₂ (AlikeChunk Score.kept) chunks ((chunks.zipIdx 1).map persisted) :=
    List.forall₂_map_right_iff.mpr hentries
  refine ⟨_, load_save hfresh hversions hsave, hloaded,
    fun repository maxEvidence today projectCode => ⟨?_, fun hapart => ?_⟩⟩
  · refine pack_alike repository (keepsOrder_id fun _ => True) ?_ fun _ _ => trivial
    rw [List.forall₂_map_left_iff]
    exact hloaded.imp fun c d h => ⟨h.1, h.2, h.3, h.4, h.5, h.6, h.7, h.8, h.9⟩
  · refine @pack_alike _ (fun s => ∃ c ∈ chunks, c.score = s) _ _ _ _ _ _ repository
      (keepsOrder_kept ?_) hloaded
      fun c hc => ⟨c, hc, rfl⟩
    rintro _ _ ⟨c, hc, rfl⟩ ⟨d, hd, rfl⟩ hsame
    exact hapart c hc d hd hsame

namespace Sample

def info (versionId : UUID) (versionNo : Nat) : DocumentEvidenceMetadata :=
  ⟨versionId, .ofNat 100, .ofNat 1, .API_SPECIFICATION, "API", .APPROVED_DESIGN, .PUBLISHED,
    versionNo, "1.0", none, none, true⟩

def repository : Repository :=
  fun _ => .ok [(.ofNat 11, info (.ofNat 11) 1), (.ofNat 12, info (.ofNat 12) 2)]

def context : AuthorizedProjectContext :=
  ⟨⟨.ofNat 2, .ofNat 3, [], [.ofNat 1], some [.ofNat 11, .ofNat 12], [], [], 0,
    "project-membership-v1"⟩, "P-1", ["space"]⟩

def chunk (versionId : UUID) (content : String) (score : ℚ) : KnowledgeChunk :=
  ⟨"P-1", versionId.str, content, .finite score, some "space", none, none, none, ∅⟩

/-- Two scores that six digits do not tell apart. -/
def near : List KnowledgeChunk :=
  [chunk (.ofNat 11) "first" (9000004 / 10000000), chunk (.ofNat 12) "second" (9000003 / 10000000)]

def today : Date := ⟨2024, 0, 0⟩

def drawn : Ids := ⟨.ofNat 50, fun rank => .ofNat (60 + rank)⟩

def versionsOf (packed : Except StoreError GovernedEvidencePack) : List UUID :=
  (packed.toOption.map fun p => p.evidence.map (·.documentVersionId)).getD []

end Sample

/-- Before it is saved, the first chunk is packed first; after it is loaded, the second is. -/
theorem order_lost : ∃ db loaded,
    saveEvidenceBundle ⟨[], []⟩ Sample.drawn (.ofNat 4)
      (.ofNat 1) "query" (postfilterEvidence Sample.near Sample.context) 1 =
      .ok db ∧
    loadEvidenceBundle db (.ofNat 50) = .ok loaded ∧
    Sample.versionsOf (pack Sample.repository 8 Sample.today (.ofNat 1) "P-1"
      (postfilterEvidence Sample.near Sample.context)) = [.ofNat 11, .ofNat 12] ∧
    Sample.versionsOf (pack Sample.repository 8 Sample.today (.ofNat 1) "P-1" loaded) =
      [.ofNat 12, .ofNat 11] := by
  have hfresh : ∀ row ∈ (⟨[], []⟩ : EvidenceTables).snapshots, row.bundleId ≠ Sample.drawn.bundle :=
    fun _ h => nomatch h
  obtain ⟨rows, -, heq⟩ := @saveEvidenceBundle_eq Sample.drawn (.ofNat 1) 1
    (postfilterEvidence Sample.near Sample.context)
    ⟨[], []⟩ (.ofNat 4) "query" postfilter_versioned
  have hsave := (heq _).mpr ⟨by decide +kernel, rfl⟩
  exact ⟨_, _, hsave, load_save hfresh postfilter_versioned hsave, by
    decide +kernel, by decide +kernel⟩

theorem retrieved_chunks_survive_sample :
    (postfilterEvidence Sample.near Sample.context).length = 2 ∧
      ChunksSurvive ⟨[], []⟩ Sample.drawn (.ofNat 4)
        (.ofNat 1) "query" (postfilterEvidence Sample.near Sample.context) 1 :=
  ⟨by decide +kernel, retrieved_chunks_survive _ _ _ _ _ _ _ _ (fun _ h => nomatch h)⟩

end ProjectAgent.Evidence
