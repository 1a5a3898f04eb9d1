/-
How many versions of a document are published. A publication supersedes the
version its draft named, which need not be the published one by then; exactly
where it is, at most one version is published at any time.
-/
import ProjectAgent.Documents.Transitions

namespace ProjectAgent.Documents

open Interleave

variable {pid : Nat} {w w' w₀ : DocumentWorld} {a : DocumentAction} {as : List DocumentAction}
  {σ : Store} {v : UUID}
  {row row' : DocumentVersion} {seen : DocumentLifecycleStatus} {publishedAt : Option Nat}

/-- At most one version of a document is published. -/
def OnePublished (t : Tables) : Prop :=
  ∀ row ∈ t.versions, ∀ row' ∈ t.versions, row.documentId = row'.documentId →
    row.lifecycleStatus = .PUBLISHED → row'.lifecycleStatus = .PUBLISHED → row.id = row'.id

/-- A publication that is committed leaves its version published, and as the document's only one. -/
def PublishesOne (a : DocumentAction) (w : DocumentWorld) : Prop :=
  ∀ w' pid v seen publishedAt, machine.step a w = some w' → Commits pid a w →
    Write.status v seen .PUBLISHED publishedAt ∈ w.shared.pending pid →
    ∃ row ∈ w'.shared.committed.versions, row.id = v ∧ row.lifecycleStatus = .PUBLISHED ∧
      ∀ row' ∈ w'.shared.committed.versions, row'.documentId = row.documentId →
        row'.lifecycleStatus = .PUBLISHED → row'.id = v

/-- As a publication commits, the version its draft names is what is published of the document, if
anything is. -/
def NamesPublished (a : DocumentAction) (w : DocumentWorld) : Prop :=
  ∀ pid v seen publishedAt, Commits pid a w →
    Write.status v seen .PUBLISHED publishedAt ∈ w.shared.pending pid →
    ∀ row ∈ w.shared.committed.versions, row.id = v →
      ∀ row' ∈ w.shared.committed.versions, row'.documentId = row.documentId →
        row'.lifecycleStatus = .PUBLISHED →
        row.supersedesVersionId = some row'.id

theorem Inv.eq_of_id (hi : Inv σ) (h : row ∈ σ.committed.versions)
    (h' : row' ∈ σ.committed.versions) (hid : row.id = row'.id) : row = row' := by
  have hfind := Tables.version_of_mem hi.ids h
  rw [hid, Tables.version_of_mem hi.ids h'] at hfind
  exact (Option.some.inj hfind).symm

theorem Inv.statusOf (hi : Inv σ) (h : row ∈ σ.committed.versions) :
    σ.committed.statusOf row.id = some row.lifecycleStatus := by
  unfold Tables.statusOf
  rw [Tables.version_of_mem hi.ids h]
  rfl

/-- The version a status is written of. -/
theorem Inv.written (hi : Inv σ) {target : DocumentLifecycleStatus}
    (h : Write.status v seen target publishedAt ∈ σ.pending pid) :
    ∃ row ∈ σ.committed.versions, row.id = v ∧ row.lifecycleStatus = seen := by
  obtain ⟨row, hrow, hseen⟩ :=
    Option.map_eq_some_iff.mp (hi.statuses pid v seen target publishedAt h).2
  exact ⟨row, (Tables.version_mem hrow).1, (Tables.version_mem hrow).2, hseen⟩

/-- What is published once a session has committed was so before, or its publication is what is
committed. -/
theorem published_commit (hi : Inv σ) (h : row ∈ (σ.commit pid).committed.versions)
    (hp : row.lifecycleStatus = .PUBLISHED) : ∃ row₀ ∈ σ.committed.versions, row₀.id = row.id ∧
      row₀.documentId = row.documentId ∧
      (row₀.lifecycleStatus = .PUBLISHED ∧ row.id ∉ statusIds (σ.pending pid) ∨
        ∃ seen publishedAt, Write.status row.id seen .PUBLISHED publishedAt ∈ σ.pending pid) := by
  obtain ⟨row₀, hfrom, hsame, hrest⟩ := version_foldl h
  have hold : row₀ ∈ σ.committed.versions := by
    rcases hfrom with hold | hnew
    · exact hold
    · by_cases hid : row.id ∈ statusIds (σ.pending pid)
      · have hmem : row.id ∈ versionIds (σ.pending pid) :=
          mem_versionIds.mpr ⟨row₀, hnew, hsame.id.symm⟩
        exact absurd hmem (hi.not_inserted pid hid).2
      · rw [hrest hid, (hi.drafts pid row₀ hnew).1] at hp
        cases hp
  refine ⟨row₀, hold, hsame.id.symm, hsame.documentId.symm, ?_⟩
  by_cases hid : row.id ∈ statusIds (σ.pending pid)
  · obtain ⟨seen, target, publishedAt, hw⟩ := mem_statusIds.mp hid
    have hstatus := (hi.commit pid).statusOf h
    have hbefore : (σ.committed.statusOf row.id).isSome := by
      rw [(hi.statuses pid row.id seen target publishedAt hw).2]
      rfl
    rw [committed_commit, statusOf_foldl_of_mem hw (hi.once pid)
      (hi.not_inserted pid hid).2 hbefore, hp] at hstatus
    cases hstatus
    exact .inr ⟨seen, publishedAt, hw⟩
  · refine .inl ⟨?_, hid⟩
    rw [← hrest hid]
    exact hp

/-- A version whose status is not written stays as it is. -/
theorem unwritten_commit (h : row ∈ σ.committed.versions)
    (hid : row.id ∉ statusIds (σ.pending pid)) :
    row ∈ (σ.commit pid).committed.versions := by
  have hkept : ∀ w ∈ σ.pending pid, ¬ guard.touches w (.version row.id) := by
    intro w hw ht
    cases w with
    | status versionId seen target publishedAt =>
      have heq : versionId = row.id := ht
      subst heq
      exact hid (mem_statusIds.mpr ⟨_, _, _, hw⟩)
    | document | version | audit => exact ht
  exact Db.same_foldl (G := guard) hkept σ.committed row h rfl

/-- The published version's row once its publication is committed. -/
theorem publication_commit (hi : Inv σ)
    (hw : Write.status v seen .PUBLISHED publishedAt ∈ σ.pending pid) :
    ∃ row₀ ∈ σ.committed.versions, row₀.id = v ∧ ∃ row ∈ (σ.commit pid).committed.versions,
      row.id = v ∧
      row.documentId = row₀.documentId ∧ row.lifecycleStatus = .PUBLISHED := by
  obtain ⟨row₀, hrow₀, rfl, hseen⟩ := hi.written hw
  obtain ⟨row, hrow, hsame⟩ := grows_foldl (σ.pending pid) σ.committed row₀ hrow₀
  have hrow : row ∈ (σ.commit pid).committed.versions := hrow
  refine ⟨row₀, hrow₀, rfl, row, hrow, hsame.id, hsame.documentId, ?_⟩
  have hid : row₀.id ∈ statusIds (σ.pending pid) := mem_statusIds.mpr ⟨_, _, _, hw⟩
  have hstatus := (hi.commit pid).statusOf hrow
  have hbefore : (σ.committed.statusOf row₀.id).isSome := by
    rw [hi.statusOf hrow₀]
    rfl
  rw [hsame.id, committed_commit,
    statusOf_foldl_of_mem hw (hi.once pid) (hi.not_inserted pid hid).2 hbefore] at hstatus
  exact (Option.some.inj hstatus).symm

/-- A commit that publishes supersedes what the published version names. -/
theorem Commits.publication (hg : spec.Good machine w) (hc : Commits pid a w) :
    Publication (w.shared.pending pid) w.shared.committed := by
  obtain ⟨c, k, -, hp, -⟩ := hc
  exact (hg.safe pid _ hp w.shared (.refl pid _) hg.inv).1

/-! ## One step -/

theorem onePublished_step (hg : spec.Good machine w) (h₁ : OnePublished w.shared.committed)
    (hn : NamesPublished a w) (h : machine.step a w = some w') :
    OnePublished w'.shared.committed := by
  rcases step_committed h with ⟨pid, hcommits, heq⟩ | ⟨heq, -⟩
  · have hi := hg.inv
    have hpublication := hcommits.publication hg
    -- A version published now and one published before are one: the first supersedes the second.
    have hmixed : ∀ {v seen publishedAt row₀ row₀'}, Write.status v seen .PUBLISHED publishedAt ∈
      w.shared.pending pid →
        row₀ ∈ w.shared.committed.versions → row₀.id = v → row₀' ∈ w.shared.committed.versions →
        row₀'.documentId = row₀.documentId → row₀'.lifecycleStatus = .PUBLISHED →
        row₀'.id ∈ statusIds (w.shared.pending pid) := by
      intro v seen publishedAt row₀ row₀' hw hrow hid hrow' hdocument hpublished
      have hnames := hn pid v seen publishedAt hcommits hw row₀ hrow hid row₀' hrow'
        hdocument hpublished
      obtain ⟨row₁, hrow₁, hid₁, -, hall⟩ := hpublication v seen publishedAt hw
      obtain rfl := hi.eq_of_id hrow₁ hrow (hid₁.trans hid.symm)
      obtain ⟨seen', publishedAt', hmem⟩ := hall row₀'.id hnames
      exact mem_statusIds.mpr ⟨seen', _, publishedAt', hmem⟩
    rw [heq]
    intro row hrow row' hrow' hdocument hp hp'
    obtain ⟨row₀, hmem, hid, hdoc, hcase⟩ := published_commit hi hrow hp
    obtain ⟨row₀', hmem', hid', hdoc', hcase'⟩ := published_commit hi hrow' hp'
    have hsame : row₀.documentId = row₀'.documentId := hdoc.trans (hdocument.trans hdoc'.symm)
    rcases hcase with ⟨hold, hnot⟩ | ⟨seen, publishedAt, hw⟩
    · rcases hcase' with ⟨hold', -⟩ | ⟨seen', publishedAt', hw'⟩
      · rw [← hid, ← hid']
        exact h₁ row₀ hmem row₀' hmem' hsame hold hold'
      · exact absurd (hid ▸ hmixed hw' hmem' hid' hmem hsame hold) hnot
    · rcases hcase' with ⟨hold', hnot'⟩ | ⟨seen', publishedAt', hw'⟩
      · exact absurd (hid' ▸ hmixed hw hmem hid hmem' hsame.symm hold') hnot'
      · by_contra hne
        obtain ⟨row₁, -, -, honly, -⟩ := hpublication row.id seen publishedAt hw
        have hsuperseded := (honly row'.id seen' .PUBLISHED publishedAt' hw' (Ne.symm hne)).2
        cases hsuperseded
  · rw [heq]
    exact h₁

theorem publishesOne_of_onePublished (hg : spec.Good machine w)
    (h : ∀ w', machine.step a w = some w' → OnePublished w'.shared.committed) :
    PublishesOne a w := by
  intro w' pid v seen publishedAt hs hc hw
  obtain ⟨row₀, -, -, row, hrow, hid, -, hp⟩ := publication_commit hg.inv hw
  have hone := h w' hs
  rw [hc.step hs] at hone ⊢
  refine ⟨row, hrow, hid, hp, fun row' hrow' hdocument hp' => ?_⟩
  exact (hone row' hrow' row hrow hdocument hp' hp).trans hid

/-- Where a publication leaves at most one version published, its draft names the one that was. -/
theorem namesPublished_of_onePublished (hg : spec.Good machine w)
    (h : ∀ w', machine.step a w = some w' → OnePublished w'.shared.committed)
    (hs : (machine.step a w).isSome) :
    NamesPublished a w := by
  intro pid v seen publishedAt hc hw row hrow hid row' hrow' hdocument hp
  have hi := hg.inv
  obtain ⟨w', hs⟩ := Option.isSome_iff_exists.mp hs
  have hone := h w' hs
  rw [hc.step hs] at hone
  obtain ⟨row₁, hrow₁, hid₁, honly, -⟩ := hc.publication hg v seen publishedAt hw
  obtain rfl := hi.eq_of_id hrow₁ hrow (hid₁.trans hid.symm)
  have hne : row'.id ≠ v := by
    intro heq
    obtain ⟨hallowed, hseen⟩ := hi.statuses pid v seen .PUBLISHED publishedAt hw
    rw [← heq, hi.statusOf hrow', hp] at hseen
    cases hseen
    cases hallowed
  by_contra hnot
  have hunwritten : row'.id ∉ statusIds (w.shared.pending pid) := by
    intro hmem
    obtain ⟨seen', target, publishedAt', hw'⟩ := mem_statusIds.mp hmem
    exact hnot (honly row'.id seen' target publishedAt' hw' hne).1
  obtain ⟨row₂, hrow₂, hid₂, row₃, hrow₃, hid₃, hdocument₃, hp₃⟩ := publication_commit hi hw
  obtain rfl := hi.eq_of_id hrow₂ hrow (hid₂.trans hid.symm)
  have heq := hone row' (unwritten_commit hrow' hunwritten) row₃ hrow₃
    (hdocument.trans hdocument₃.symm) hp hp₃
  exact hne (heq.trans hid₃)

/-! ## Runs -/

/-- **At most one version is published** at every moment of a run, and each publication leaves its
version as the only one, exactly where every publication's draft names the version that is published
as it commits. -/
theorem one_published_iff (h₀ : Initial w₀) (as : List DocumentAction) :
    (machine.Always (fun w => OnePublished w.shared.committed) as w₀ ∧
      machine.EachStep PublishesOne as w₀) ↔
      machine.EachStep NamesPublished as w₀ := by
  have hgood := h₀.good as
  have hgood_at : ∀ pre a, pre ++ [a] <+: as → ∀ w, machine.run pre w₀ = some w →
      spec.Good machine w :=
    fun pre a hpre w hr => hgood pre ((List.prefix_append pre [a]).trans hpre) w hr
  constructor
  · rintro ⟨hone, -⟩ pre a hpre w w' hr hs
    refine namesPublished_of_onePublished (hgood_at pre a hpre w hr) (fun w'' hs'' => ?_)
      (by rw [hs]; rfl)
    exact (hone.step hpre hr hs'').2
  · intro hnames
    have hone : machine.Always (fun w => OnePublished w.shared.committed) as w₀ := by
      have hboth : machine.Always (fun w => spec.Good machine w ∧
          OnePublished w.shared.committed) as w₀ := by
        refine Machine.always_of_step ⟨.of_idle h₀.inv h₀.idle, ?_⟩ hnames
          fun a w₁ w₂ ⟨hg, h₁⟩ hn hs => ?_
        · intro row hrow
          rw [h₀.versions] at hrow
          cases hrow
        · exact ⟨hg.step fits (a.allowed_all w₁) hs, onePublished_step hg h₁ hn hs⟩
      exact hboth.mono fun w h => h.2
    refine ⟨hone, fun pre a hpre w w' hr hs => ?_⟩
    exact publishesOne_of_onePublished (hgood_at pre a hpre w hr) fun w'' hs'' =>
      (hone.step hpre hr hs'').2

/-! ## Two drafts of one document that name nothing -/

namespace Sample

def publishes (pid : Nat) (versionId : UUID) : List DocumentAction :=
  serves pid (.submitReview versionId owner) 5 ++ serves (pid + 1) (.approve versionId owner) 5 ++
    serves (pid + 2) (.publish versionId owner) 12

def publishesTwo : List DocumentAction :=
  serves 1 (upload none) 6 ++ serves 2 (upload (some (.ofNat 17))) 6 ++ publishes 3 (.ofNat 19) ++
    publishes 6 (.ofNat 35)

theorem publishesTwo_published : (machine.run publishesTwo world).any
    (fun w => w.shared.committed.versions.map (fun row =>
      (row.id, row.documentId, row.lifecycleStatus)) ==
      [(.ofNat 35, .ofNat 17, .PUBLISHED), (.ofNat 19, .ofNat 17, .PUBLISHED)]) = true := by
  decide +kernel

end Sample

/-- Both drafts are published, and stay so. -/
theorem two_published : Initial Sample.world ∧
    ¬ machine.Always (fun w => OnePublished w.shared.committed) Sample.publishesTwo
      Sample.world := by
  refine ⟨Sample.world_initial, fun hone => ?_⟩
  obtain ⟨w, hr, hrows⟩ := (Option.any_eq_true _ _).mp Sample.publishesTwo_published
  have hrows := beq_iff_eq.mp hrows
  have hone := hone.last hr
  have hnew : (UUID.ofNat 35, UUID.ofNat 17, DocumentLifecycleStatus.PUBLISHED) ∈
      w.shared.committed.versions.map fun row => (row.id, row.documentId, row.lifecycleStatus) := by
    rw [hrows]
    exact List.mem_cons_self
  have hold : (UUID.ofNat 19, UUID.ofNat 17, DocumentLifecycleStatus.PUBLISHED) ∈
      w.shared.committed.versions.map fun row => (row.id, row.documentId, row.lifecycleStatus) := by
    rw [hrows]
    exact List.mem_cons_of_mem _ List.mem_cons_self
  obtain ⟨row, hrow, heq⟩ := List.mem_map.mp hnew
  obtain ⟨row', hrow', heq'⟩ := List.mem_map.mp hold
  obtain ⟨hid, hdocument, hp⟩ : row.id = .ofNat 35 ∧ row.documentId = .ofNat 17 ∧
      row.lifecycleStatus = .PUBLISHED := by
    simpa using heq
  obtain ⟨hid', hdocument', hp'⟩ : row'.id = .ofNat 19 ∧ row'.documentId = .ofNat 17 ∧
      row'.lifecycleStatus = .PUBLISHED := by
    simpa using heq'
  have hsame := hone row hrow row' hrow' (hdocument.trans hdocument'.symm) hp hp'
  rw [hid, hid'] at hsame
  exact absurd hsame (by decide)

/-- So for these two uploads and what becomes of them. -/
theorem one_published_two :
    (machine.Always (fun w => OnePublished w.shared.committed) Sample.publishesTwo Sample.world ∧
      machine.EachStep PublishesOne Sample.publishesTwo Sample.world) ↔
      machine.EachStep NamesPublished Sample.publishesTwo Sample.world :=
  one_published_iff Sample.world_initial Sample.publishesTwo

end ProjectAgent.Documents
