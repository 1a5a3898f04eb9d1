/-
What a pack does not read: where a chunk came from at the provider, and of the
scores anything but how they compare. Chunks that differ only there are packed
alike.
-/
import ProjectAgent.Evidence.Packs
import ProjectAgent.Lib.Related

namespace ProjectAgent.Evidence

/-- The second item has the first one's score as `g` changes it, and is the first one otherwise,
wherever it was found. -/
def Alike (g : Score → Score) (a b : GovernedEvidence) : Prop :=
  ∃ ref metadata, b = { a with
    score := g a.score, providerRef := ref, providerMetadata := metadata }

/-- `g` keeps how these scores compare. -/
def KeepsOrder (g : Score → Score) (scores : Score → Prop) : Prop :=
  ∀ s t, scores s → scores t → Score.lt (g s) (g t) = Score.lt s t ∧
    Score.eq (g s) (g t) = Score.eq s t

/-- Alike, with a score among these. -/
def AlikeIn (g : Score → Score) (scores : Score → Prop) (a b : GovernedEvidence) : Prop :=
  Alike g a b ∧ scores a.score

variable {g : Score → Score} {scores : Score → Prop} {a b a' b' : GovernedEvidence}
  {items items' : List GovernedEvidence}
  {n : Nat}

namespace Alike

theorem conflictKey (h : Alike g a b) : a.conflictKey = b.conflictKey := by
  obtain ⟨ref, metadata, rfl⟩ := h
  rfl

theorem claimValue (h : Alike g a b) : a.claimValue = b.claimValue := by
  obtain ⟨ref, metadata, rfl⟩ := h
  rfl

theorem unresolvedConflict (h : Alike g a b) : a.unresolvedConflict = b.unresolvedConflict := by
  obtain ⟨ref, metadata, rfl⟩ := h
  rfl

theorem authorityLevel (h : Alike g a b) : a.authorityLevel = b.authorityLevel := by
  obtain ⟨ref, metadata, rfl⟩ := h
  rfl

theorem label (h : Alike g a b) : a.label = b.label := by
  obtain ⟨ref, metadata, rfl⟩ := h
  rfl

theorem flagged (h : Alike g a b) : Alike g a.flagged b.flagged := by
  obtain ⟨ref, metadata, rfl⟩ := h
  exact ⟨ref, metadata, rfl⟩

theorem relabel (h : Alike g a b) (label : String) :
    Alike g { a with label := label } { b with label := label } := by
  obtain ⟨ref, metadata, rfl⟩ := h
  exact ⟨ref, metadata, rfl⟩

theorem grouped (h : Alike g a b) : a.grouped = b.grouped := by
  unfold GovernedEvidence.grouped
  rw [h.conflictKey, h.claimValue]

theorem rank (h : Alike g a b) :
    authorityRank a.authorityLevel = authorityRank b.authorityLevel := by
  rw [h.authorityLevel]

end Alike

theorem AlikeIn.keyLt (hg : KeepsOrder g scores) (h : AlikeIn g scores a b)
    (h' : AlikeIn g scores a' b') :
    keyLt a a' = keyLt b b' := by
  obtain ⟨⟨ref, metadata, rfl⟩, hs⟩ := h
  obtain ⟨⟨ref', metadata', rfl⟩, hs'⟩ := h'
  unfold ProjectAgent.Evidence.keyLt
  rw [(hg a'.score a.score hs' hs).1, (hg a.score a'.score hs hs').2]

theorem sort_alike (hg : KeepsOrder g scores) (h : List.Forall₂ (AlikeIn g scores) items items') :
    List.Forall₂ (AlikeIn g scores) (sortEvidence items) (sortEvidence items') := by
  refine Related.insertionSort (fun a b hab a' b' hab' => ?_) h
  rw [hab'.keyLt hg hab]

theorem bestRank_alike (h : List.Forall₂ (AlikeIn g scores) items items') :
    bestRank items = bestRank items' := by
  unfold bestRank
  rw [Related.map_eq (fun _ _ hab => hab.1.rank) h]

theorem topOf_alike (h : List.Forall₂ (AlikeIn g scores) items items') :
    List.Forall₂ (AlikeIn g scores) (topOf items) (topOf items') := by
  unfold topOf
  refine Related.filter (fun _ _ hab => ?_) h
  rw [bestRank_alike h, hab.1.rank]

theorem claims_alike (h : List.Forall₂ (AlikeIn g scores) items items') :
    items.map (·.claimValue) = items'.map (·.claimValue) :=
  Related.map_eq (fun _ _ hab => hab.1.claimValue) h

theorem resolveGroup_alike (h : List.Forall₂ (AlikeIn g scores) items items') :
    List.Forall₂ (AlikeIn g scores) (resolveGroup items) (resolveGroup items') := by
  have htop := topOf_alike h
  unfold resolveGroup
  rw [claims_alike h, claims_alike htop]
  split
  · exact h
  · split
    · exact htop
    · rw [List.forall₂_map_left_iff, List.forall₂_map_right_iff]
      exact htop.imp fun _ _ hab => ⟨hab.1.flagged, hab.2⟩

theorem resolve_alike (h : List.Forall₂ (AlikeIn g scores) items items') :
    List.Forall₂ (AlikeIn g scores) (resolveExplicitConflicts items)
      (resolveExplicitConflicts items') := by
  have hkeys : groupKeys items = groupKeys items' := by
    unfold groupKeys
    rw [Related.filterMap_eq (fun _ _ hab => hab.1.conflictKey)
      (Related.filter (fun _ _ hab => hab.1.grouped) h)]
  have hgroup (key : String) : List.Forall₂ (AlikeIn g scores) (groupOf items key)
      (groupOf items' key) :=
    Related.filter (fun _ _ hab => by rw [hab.1.grouped, hab.1.conflictKey]) h
  unfold resolveExplicitConflicts
  rw [hkeys]
  refine List.rel_append (Related.filter (fun _ _ hab => by rw [hab.1.grouped]) h) ?_
  refine List.rel_flatMap (List.forall₂_eq_eq_eq ▸ rfl) fun key key' hkey => ?_
  subst hkey
  exact resolveGroup_alike (hgroup key)

theorem select_alike (hg : KeepsOrder g scores) (h : List.Forall₂ (AlikeIn g scores) items items') :
    List.Forall₂ (AlikeIn g scores) (select n items) (select n items') := by
  have hkeys : protectedKeys items = protectedKeys items' :=
    Related.filterMap_eq (fun _ _ hab => by rw [hab.1.unresolvedConflict, hab.1.conflictKey]) h
  unfold select
  rw [hkeys]
  split
  · exact List.forall₂_take n h
  · refine sort_alike hg (List.rel_append (List.forall₂_take n h)
      (Related.filter (fun _ _ hab => ?_) (List.forall₂_drop n h)))
    unfold isProtected
    rw [hkeys, hab.1.unresolvedConflict, hab.1.conflictKey]

theorem labeled_alike (h : List.Forall₂ (AlikeIn g scores) items items') :
    List.Forall₂ (AlikeIn g scores) (labeled items) (labeled items') := by
  unfold labeled
  rw [List.forall₂_map_left_iff, List.forall₂_map_right_iff]
  refine (Related.zipIdx h 1).imp fun x y hxy => ?_
  obtain ⟨a, index⟩ := x
  obtain ⟨b, index'⟩ := y
  obtain ⟨hab, rfl⟩ : AlikeIn g scores a b ∧ index = index' := hxy
  exact ⟨hab.1.relabel _, hab.2⟩

theorem unresolvedConflicts_alike (h : List.Forall₂ (AlikeIn g scores) items items') :
    unresolvedConflicts items = unresolvedConflicts items' := by
  have hkeys : conflictKeys items = conflictKeys items' := by
    unfold conflictKeys
    rw [Related.filterMap_eq (fun _ _ hab => by rw [hab.1.conflictKey])
      (Related.filter (fun _ _ hab => hab.1.unresolvedConflict) h)]
  have hconflicting (key : String) : List.Forall₂ (AlikeIn g scores) (conflicting items key)
      (conflicting items' key) :=
    Related.filter (fun _ _ hab => by rw [hab.1.unresolvedConflict, hab.1.conflictKey]) h
  unfold unresolvedConflicts
  rw [hkeys]
  refine congrArg (fun f => List.filterMap f _) (funext fun key => ?_)
  rw [claims_alike (hconflicting key), Related.map_eq (fun _ _ hab => hab.1.label)
    (hconflicting key)]

/-- The same evidence in the same order under the same labels, and the same conflicts. -/
def SamePack (g : Score → Score) (p q : GovernedEvidencePack) : Prop :=
  List.Forall₂ (Alike g) p.evidence q.evidence ∧ p.unresolvedConflicts = q.unresolvedConflicts

theorem packOf_alike (hg : KeepsOrder g scores) (h : List.Forall₂ (AlikeIn g scores) items items') :
    SamePack g (packOf n items) (packOf n items') := by
  have hlabeled := labeled_alike (select_alike (n := n) hg (sort_alike hg (resolve_alike h)))
  exact ⟨hlabeled.imp fun _ _ hab => hab.1, unresolvedConflicts_alike hlabeled⟩

/-! ## Chunks -/

/-- The second chunk has the first one's score as `g` changes it and the metadata that governance
reads. -/
structure AlikeChunk (g : Score → Score) (c d : KnowledgeChunk) : Prop where
  projectId : d.projectId = c.projectId
  documentVersionId : d.documentVersionId = c.documentVersionId
  content : d.content = c.content
  score : d.score = g c.score
  knowledgeSpaceId : d.knowledgeSpaceId = c.knowledgeSpaceId
  pageNo : d.pageNo = c.pageNo
  section_ : d.section_ = c.section_
  conflictKey : d.metadata.lookup "conflict_key" = c.metadata.lookup "conflict_key"
  claimValue : d.metadata.lookup "claim_value" = c.metadata.lookup "claim_value"

variable {chunks chunks' : List KnowledgeChunk} {parsed parsed' : List (KnowledgeChunk × UUID)}
  {projectCode : String}
  {metadata : UUID → Option DocumentEvidenceMetadata} {today : Date} {projectId : UUID}
    {seen : List (UUID × String)}

/-- Of one version, with a score among these. -/
def AlikeParsed (g : Score → Score) (scores : Score → Prop) (x y : KnowledgeChunk × UUID) : Prop :=
  AlikeChunk g x.1 y.1 ∧ scores x.1.score ∧ x.2 = y.2

theorem parsedChunks_alike (projectCode : String) (h : List.Forall₂ (AlikeChunk g) chunks chunks')
    (hscores : ∀ c ∈ chunks, scores c.score) :
    List.Forall₂ (AlikeParsed g scores) (parsedChunks projectCode chunks)
      (parsedChunks projectCode chunks') := by
  induction h with
  | nil => exact .nil
  | @cons c d chunks chunks' hcd _ ih =>
    have ih := ih fun c hc => hscores c (List.mem_cons_of_mem _ hc)
    unfold parsedChunks at ih ⊢
    rw [List.filterMap_cons, List.filterMap_cons, hcd.projectId, hcd.documentVersionId]
    by_cases hcode : c.projectId ≠ projectCode
    · rw [if_pos hcode, if_pos hcode]
      exact ih
    · rw [if_neg hcode, if_neg hcode]
      cases UUID.parse c.documentVersionId with
      | none => exact ih
      | some versionId => exact .cons ⟨hcd, hscores c List.mem_cons_self, rfl⟩ ih

theorem candidates_alike (h : List.Forall₂ (AlikeParsed g scores) parsed parsed') :
    List.Forall₂ (AlikeIn g scores) (candidates metadata today projectId projectCode seen parsed)
      (candidates metadata today projectId projectCode seen parsed') := by
  induction h generalizing seen with
  | nil => exact .nil
  | @cons x y parsed parsed' hxy _ ih =>
    obtain ⟨c, versionId⟩ := x
    obtain ⟨d, versionId'⟩ := y
    obtain ⟨hcd, hscore, rfl⟩ : AlikeChunk g c d ∧ scores c.score ∧ versionId = versionId' := hxy
    unfold candidates
    rw [hcd.content]
    cases (metadata versionId).filter (eligible projectId today) with
    | none => exact ih
    | some info =>
      dsimp only
      split
      · exact ih
      · refine .cons ⟨⟨d.providerRef, d.metadata, ?_⟩, hscore⟩ ih
        unfold candidate
        rw [hcd.content, hcd.score, hcd.knowledgeSpaceId, hcd.pageNo, hcd.section_, hcd.conflictKey,
          hcd.claimValue]

/-- Two calls of `pack` fail alike or pack alike. -/
def PackedAlike (g : Score → Score) (x y : Except StoreError GovernedEvidencePack) : Prop :=
  (∃ e, x = .error e ∧ y = .error e) ∨ ∃ p q, x = .ok p ∧ y = .ok q ∧ SamePack g p q

/-- **Chunks that are alike are packed alike.** -/
theorem pack_alike (repository : Repository) (hg : KeepsOrder g scores)
    (h : List.Forall₂ (AlikeChunk g) chunks chunks') (hscores : ∀ c ∈ chunks, scores c.score) :
    PackedAlike g (pack repository n today projectId projectCode chunks)
      (pack repository n today projectId projectCode chunks') := by
  have hparsed := parsedChunks_alike projectCode h hscores
  have hids : (parsedChunks projectCode chunks).map (·.2) =
      (parsedChunks projectCode chunks').map (·.2) :=
    Related.map_eq (fun _ _ hxy => hxy.2.2) hparsed
  unfold pack
  dsimp only
  rw [← hids]
  cases repository ((parsedChunks projectCode chunks).map (·.2)).eraseDups with
  | error e => exact .inl ⟨e, rfl, rfl⟩
  | ok found => exact .inr ⟨_, _, rfl, rfl, packOf_alike hg (candidates_alike hparsed)⟩

end ProjectAgent.Evidence
