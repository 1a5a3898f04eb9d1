/-
Every change of a version's committed status is a commit of a status that was
decided on the status committed before, along the table of transitions;
whatever requests run side by side.
-/
import ProjectAgent.Documents.UseCases

namespace ProjectAgent.Documents

open Interleave

variable {pid : Nat} {w w' : DocumentWorld} {a : DocumentAction} {as : List DocumentAction}
  {id : UUID}
  {status status' : DocumentLifecycleStatus}

/-- The step is a commit of this session, and is done. -/
def Commits (pid : Nat) (a : DocumentAction) (w : DocumentWorld) : Prop :=
  ∃ c k, a = .exec pid c ∧ w.procs pid = some (.stmt .commit k) ∧ (∀ e, c.fault ≠ some (false, e)) ∧
    w.shared.numberTaken pid = false

/-! ## One step -/

/-- A commit is lost before it is done, or done; where a version's number is taken it rolls back. -/
theorem exec_commit {c : Choice} {σ σ' : Store} {r : Except DocumentError Unit}
    (h : exec pid .commit c σ = some (r, σ')) :
    (∃ e, c.fault = some (false, e)) ∧ σ' = σ ∨
    (∀ e, c.fault ≠ some (false, e)) ∧ σ' = if σ.numberTaken pid then σ.rollback pid
      else σ.commit pid := by
  have hperform : ∀ r', perform pid c σ .commit = some (r', σ') →
      σ' = if σ.numberTaken pid then σ.rollback pid else σ.commit pid := by
    intro r' h
    simp only [perform] at h
    split at h <;> cases h
    · next ht => rw [if_pos ht]
    · next ht => rw [if_neg ht]
  unfold exec at h
  cases hf : c.fault with
  | none =>
    rw [hf] at h
    exact .inr ⟨fun _ h => (by cases h), hperform r h⟩
  | some fault =>
    obtain ⟨done, e⟩ := fault
    rw [hf] at h
    cases done with
    | false =>
      cases h
      exact .inl ⟨⟨e, rfl⟩, rfl⟩
    | true =>
      obtain ⟨⟨r', σ₁⟩, hp, heq⟩ := Option.map_eq_some_iff.mp h
      cases heq
      exact .inr ⟨fun _ h => (by cases h), hperform r' hp⟩

theorem commits_of_exec {c : Choice} {σ' : Store} {r : Except DocumentError Unit}
    {k : Except DocumentError Unit → Session Unit} (hp : w.procs pid = some (.stmt .commit k))
    (h : exec pid .commit c w.shared = some (r, σ')) :
    Commits pid (.exec pid c) w ∧ σ' = w.shared.commit pid ∨
      σ'.committed = w.shared.committed ∧ σ'.changed = w.shared.changed := by
  rcases exec_commit h with ⟨-, rfl⟩ | ⟨hdone, rfl⟩
  · exact .inr ⟨rfl, rfl⟩
  · cases htaken : w.shared.numberTaken pid with
    | false => exact .inl ⟨⟨c, k, rfl, hp, hdone, htaken⟩, rfl⟩
    | true => exact .inr ⟨rfl, rfl⟩

theorem Commits.step (hc : Commits pid a w) (h : machine.step a w = some w') :
    w'.shared = w.shared.commit pid := by
  obtain ⟨c, k, rfl, hp, hdone, htaken⟩ := hc
  rcases Machine.step_cases h with ⟨request, q, p, ha, -⟩ | ⟨q, c', s, k', r, ha, hq, hx, -⟩ |
    ⟨q, r, ha, -⟩ |
    ⟨q, p, ha, -⟩ | ⟨e, ha, -⟩
  · cases ha
  · cases ha
    rw [hp] at hq
    cases hq
    rcases exec_commit hx with ⟨⟨e, hlost⟩, -⟩ | ⟨-, heq⟩
    · exact absurd hlost (hdone e)
    · rw [heq, htaken]
      rfl
  all_goals cases ha

/-- What is committed changes only by a commit. -/
theorem step_committed (h : machine.step a w = some w') :
    (∃ pid, Commits pid a w ∧ w'.shared = w.shared.commit pid) ∨
      w'.shared.committed = w.shared.committed ∧
        ((∃ request pid, a = .start request pid ∧
          w'.shared.changed = Function.update w.shared.changed pid []) ∨
          (∀ request pid, a ≠ .start request pid) ∧ w'.shared.changed = w.shared.changed) := by
  rcases Machine.step_cases h with ⟨request, pid, p, rfl, -, hs, -⟩ |
    ⟨pid, c, s, k, r, rfl, hp, hx, -⟩ |
    ⟨pid, r, rfl, -, hs, -⟩ | ⟨pid, p, rfl, -, hs, -⟩ | ⟨e, rfl, hs, -⟩
  · obtain ⟨-, hw⟩ := Prod.mk.inj (Option.some.inj hs)
    rw [← hw]
    exact .inr ⟨rfl, .inl ⟨request, pid, rfl, rfl⟩⟩
  · have hx : exec pid s c w.shared = some (r, w'.shared) := hx
    have heffect := exec_effect hx
    by_cases hc : s = .commit
    · subst hc
      rcases commits_of_exec hp hx with ⟨hcommits, heq⟩ | ⟨hcommitted, hchanged⟩
      · exact .inl ⟨pid, hcommits, heq⟩
      · exact .inr ⟨hcommitted, .inr ⟨fun _ _ h => (nomatch h), hchanged⟩⟩
    · generalize w'.shared = σ' at heffect
      cases heffect with
      | commit | failedCommit => exact absurd rfl hc
      | lock versionId document version db db' _ hdocument hversion =>
        exact .inr ⟨(Db.lock_eq_some hversion).1.trans (Db.lock_eq_some hdocument).1,
          .inr ⟨fun _ _ h => (nomatch h), rfl⟩⟩
      | none | insertDocument | insertVersion | setStatus | insertAudit | rollback =>
        exact .inr ⟨rfl, .inr ⟨fun _ _ h => (nomatch h), rfl⟩⟩
  · rw [hs]
    exact .inr ⟨rfl, .inr ⟨fun _ _ h => (nomatch h), rfl⟩⟩
  · rw [hs]
    exact .inr ⟨rfl, .inr ⟨fun _ _ h => (nomatch h), rfl⟩⟩
  · have hs : outside e w.shared = some w'.shared := hs
    cases e with
    | bindProjectCode | bindKnowledgeSpaces =>
      rw [← Option.some.inj hs]
      exact .inr ⟨rfl, .inr ⟨fun _ _ h => (nomatch h), rfl⟩⟩

/-- What a commit makes of a committed status. -/
theorem statusOf_commit {σ : Store} (hi : Inv σ) (h : σ.committed.statusOf id = some status) :
    (∃ target publishedAt, Write.status id status target publishedAt ∈ σ.pending pid ∧
      canTransitionDocument status target = true ∧
        (σ.commit pid).committed.statusOf id = some target) ∨
    id ∉ statusIds (σ.pending pid) ∧ (σ.commit pid).committed.statusOf id = some status := by
  have hmem : id ∈ σ.committed.ids := by
    obtain ⟨row, hrow, -⟩ := Option.map_eq_some_iff.mp h
    exact Tables.version_isSome.mp (by rw [hrow]; rfl)
  have hversion : id ∉ versionIds (σ.pending pid) := fun hv => hi.fresh pid id hv hmem
  by_cases hid : id ∈ statusIds (σ.pending pid)
  · obtain ⟨seen, target, publishedAt, hw⟩ := mem_statusIds.mp hid
    obtain ⟨hallowed, hseen⟩ := hi.statuses pid id seen target publishedAt hw
    obtain rfl : status = seen := Option.some.inj (h.symm.trans hseen)
    refine .inl ⟨target, publishedAt, hw, hallowed, ?_⟩
    exact statusOf_foldl_of_mem hw (hi.once pid) hversion (by rw [h]; rfl)
  · exact .inr ⟨hid, (statusOf_foldl_of_not_mem hid hversion _).trans h⟩

/-- A step leaves a committed status, or commits a transition from it. -/
theorem statusOf_step (hg : spec.Good machine w) (h : machine.step a w = some w')
    (hs : w.shared.committed.statusOf id = some status) :
    ∃ status', w'.shared.committed.statusOf id = some status' ∧
      (status' = status ∨ ∃ pid publishedAt, Commits pid a w ∧
        Write.status id status status' publishedAt ∈ w.shared.pending pid ∧
        canTransitionDocument status status' = true) := by
  rcases step_committed h with ⟨pid, hcommits, heq⟩ | ⟨heq, -⟩
  · rw [heq]
    rcases statusOf_commit hg.inv hs with ⟨target, publishedAt, hw, hallowed, htarget⟩ | ⟨-, hsame⟩
    · exact ⟨target, htarget, .inr ⟨pid, publishedAt, hcommits, hw, hallowed⟩⟩
    · exact ⟨status, hsame, .inl rfl⟩
  · rw [heq]
    exact ⟨status, hs, .inl rfl⟩

/-- A version that comes to be is a draft. -/
theorem statusOf_inserted (hg : spec.Good machine w) (h : machine.step a w = some w')
    (hn : w.shared.committed.statusOf id = none)
    (hs : w'.shared.committed.statusOf id = some status) :
    status = .DRAFT := by
  rcases step_committed h with ⟨pid, -, heq⟩ | ⟨heq, -⟩
  · rw [heq] at hs
    obtain ⟨row, hrow, rfl⟩ := Option.map_eq_some_iff.mp hs
    obtain ⟨hmem, hid⟩ := Tables.version_mem hrow
    obtain ⟨row₀, hfrom, hsame, hrest⟩ := version_foldl hmem
    have hnot : id ∉ w.shared.committed.ids := by
      intro hmem
      obtain ⟨row', hrow'⟩ := Option.isSome_iff_exists.mp (Tables.version_isSome.mpr hmem)
      unfold Tables.statusOf at hn
      rw [hrow'] at hn
      cases hn
    have hunwritten : row.id ∉ statusIds (w.shared.pending pid) := by
      rw [hid]
      exact fun hmem => hnot (hg.inv.not_inserted pid hmem).1
    rcases hfrom with hold | hnew
    · exact absurd (List.mem_map.mpr ⟨row₀, hold, hsame.id.symm.trans hid⟩) hnot
    · rw [hrest hunwritten]
      exact (hg.inv.drafts pid row₀ hnew).1
  · rw [heq, hn] at hs
    cases hs

/-! ## Runs -/

def Gone (t : Tables) (id : UUID) : Prop :=
  t.statusOf id = some .DELETE_PENDING ∨ t.statusOf id = some .DELETED

/-- A version that is to be deleted stays so. -/
theorem gone_step (hg : spec.Good machine w) (h : machine.step a w = some w')
    (hgone : Gone w.shared.committed id) :
    Gone w'.shared.committed id := by
  have hkept : ∀ status, status = .DELETE_PENDING ∨ status = .DELETED →
      w.shared.committed.statusOf id = some status → Gone w'.shared.committed id := by
    intro status hstatus hs
    obtain ⟨status', hs', hsame | ⟨pid, publishedAt, -, -, hallowed⟩⟩ := statusOf_step hg h hs
    · rw [hsame] at hs'
      rcases hstatus with rfl | rfl
      · exact .inl hs'
      · exact .inr hs'
    · rcases hstatus with rfl | rfl <;> cases status' <;> first | exact .inr hs' | cases hallowed
  rcases hgone with hs | hs
  · exact hkept _ (.inl rfl) hs
  · exact hkept _ (.inr rfl) hs

theorem gone_run (hg : spec.Good machine w) (h : machine.run as w = some w')
    (hgone : Gone w.shared.committed id) :
    Gone w'.shared.committed id := by
  have halways : machine.Always (fun w => spec.Good machine w ∧
      Gone w.shared.committed id) as w := by
    refine Machine.always_of_step ⟨hg, hgone⟩ Machine.eachStep_true
      fun a w₁ w₂ ⟨hg₁, hgone₁⟩ _ hs => ?_
    exact ⟨hg₁.step fits (a.allowed_all w₁) hs, gone_step hg₁ hs hgone₁⟩
  exact (halways.last h).2

/-- Until it starts anew, a session keeps note of what it has committed. -/
theorem changed_run (h : machine.run as w = some w')
    (hstart : ∀ a ∈ as, ∀ request, a ≠ .start request pid) (hid : id ∈ w.shared.changed pid) :
    id ∈ w'.shared.changed pid := by
  induction as generalizing w with
  | nil =>
    cases h
    exact hid
  | cons a as ih =>
    obtain ⟨w₁, hs, hr⟩ := Option.bind_eq_some_iff.mp h
    refine ih hr (fun b hb => hstart b (List.mem_cons_of_mem _ hb)) ?_
    rcases step_committed hs with ⟨q, -, heq⟩ | ⟨-, ⟨request, q, rfl, heq⟩ | ⟨-, heq⟩⟩
    · rw [heq]
      by_cases hq : pid = q
      · subst hq
        rw [changed_commit_self]
        exact List.mem_append_right _ hid
      · show id ∈ Function.update w.shared.changed q _ pid
        rw [Function.update_of_ne hq]
        exact hid
    · have hq : pid ≠ q := by
        rintro rfl
        exact hstart _ List.mem_cons_self request rfl
      rw [heq, Function.update_of_ne hq]
      exact hid
    · rw [heq]
      exact hid

/-- Where a request is rejected, no commit of its session wrote a status. -/
theorem rejected_run {request : Request} {e : DocumentError}
    {k : Except DocumentError Unit → Session Unit} (hg : spec.Good machine w)
    (h : machine.run (.start request pid :: as) w = some w')
    (hstart : ∀ a ∈ as, ∀ request', a ≠ .start request' pid)
    (hp : w'.procs pid = some (.stmt (.rollback e) k)) (he : e.rejects) :
    ∀ w₁, machine.step (.start request pid) w = some w₁ →
      machine.EachStep (fun a w => Commits pid a w →
        statusIds (w.shared.pending pid) = []) as w₁ := by
  intro w₁ hs pre a hpre w₂ w₃ hr₂ hs₃ hcommits
  have hgood : spec.Good machine w' := (hg.all fits).last h
  have hnone : w'.shared.changed pid = [] :=
    (hgood.safe pid _ hp w'.shared (.refl pid _) hgood.inv).1 he
  obtain ⟨w₁', hs', hr⟩ := Option.bind_eq_some_iff.mp h
  obtain rfl : w₁ = w₁' := Option.some.inj (hs.symm.trans hs')
  obtain ⟨rest, rfl⟩ := hpre
  rw [Machine.run_append, Machine.run_append, hr₂, Option.bind_some, Machine.run_cons, hs₃] at hr
  have hlast : machine.run rest w₃ = some w' := hr
  refine List.eq_nil_iff_forall_not_mem.mpr fun id hid => ?_
  have hid' : id ∈ w₃.shared.changed pid := by
    rw [hcommits.step hs₃, changed_commit_self]
    exact List.mem_append_left _ hid
  have hend := changed_run hlast (fun b hb => hstart b (List.mem_append_right _ hb)) hid'
  rw [hnone] at hend
  cases hend

/-- **No transition is lost and none is illegal.** From every reachable world, whatever runs on: a
step leaves a version's committed status or is the commit of a transition from it that the table
allows; a version comes to be as a draft and stays; one that is to be deleted is nothing else
afterwards; and a request that is rejected has committed no status. -/
theorem lifecycle_kept {w₀ : DocumentWorld} (h₀ : Initial w₀) (h : machine.run as w₀ = some w) :
    (∀ a w', machine.step a w = some w' → ∀ id,
      (∀ status, w.shared.committed.statusOf id = some status → ∃ status',
        w'.shared.committed.statusOf id = some status' ∧
          (status' = status ∨ ∃ pid publishedAt, Commits pid a w ∧
          Write.status id status status' publishedAt ∈ w.shared.pending pid ∧
          canTransitionDocument status status' = true)) ∧
      (w.shared.committed.statusOf id = none →
        ∀ status, w'.shared.committed.statusOf id = some status →
        status = .DRAFT)) ∧
    (∀ bs w', machine.run bs w = some w' → ∀ id, Gone w.shared.committed id →
      Gone w'.shared.committed id) ∧
    ∀ request pid bs w' e k, machine.run (.start request pid :: bs) w = some w' →
      (∀ a ∈ bs, ∀ request', a ≠ .start request' pid) →
        w'.procs pid = some (.stmt (.rollback e) k) → e.rejects →
      ∀ w₁, machine.step (.start request pid) w = some w₁ →
        machine.EachStep (fun a w => Commits pid a w →
          statusIds (w.shared.pending pid) = []) bs w₁ := by
  have hg : spec.Good machine w := (h₀.good as).last h
  refine ⟨fun a w' hs id => ⟨fun status => statusOf_step hg hs, fun hn status =>
    statusOf_inserted hg hs hn⟩,
    fun bs w' hr id => gone_run hg hr, ?_⟩
  intro request pid bs w' e k hr hstart hp he
  exact rejected_run hg hr hstart hp he

/-! ## A version that is uploaded and deleted -/

namespace Sample

def world : DocumentWorld where
  shared := {
    committed := ⟨[], [], []⟩
    pending := fun _ => []
    locked := fun _ => none
    directory := ⟨fun _ => some "P-1", fun _ => ["dataset"]⟩
    drawn := []
    changed := fun _ => [] }
  procs _ := none

theorem world_initial : Initial world := ⟨fun _ => rfl, rfl, rfl, fun _ => rfl, fun _ => rfl⟩

def choice (n : Nat) : Choice :=
  ⟨none, .ofNat n, 0, ⟨"object", "sha256"⟩, "job", ⟨.SUCCEEDED, none⟩⟩

/-- A request served by itself, in so many statements. -/
def serves (pid : Nat) (request : Request) (statements : Nat) : List DocumentAction :=
  .start request pid :: (List.range statements).map (fun i => .exec pid (choice (16 * pid + i))) ++
    [.finish pid]

def owner : DocumentActor := ⟨.ofNat 1, ["publish_document", "archive_document"]⟩

/-- An upload, to a new document or to one that is there. -/
def upload (documentId : Option UUID) : Request := .upload {
  companyId := .ofNat 2
  projectId := .ofNat 3
  documentId := documentId
  documentCategory := "requirement"
  title := "Requirements"
  versionLabel := "v1"
  authorityLevel := "official"
  mimeType := "text/plain"
  ownerUserId := some (.ofNat 1)
  effectiveFrom := none
  effectiveTo := none
  supersedesVersionId := none
  actor := owner }

def versionId : UUID := .ofNat 19

def deletes : List DocumentAction :=
  serves 1 (upload none) 6 ++ serves 2 (.delete versionId owner) 9

theorem deletes_gone : (machine.run deletes world).any
    (fun w => w.shared.committed.statusOf versionId == some .DELETE_PENDING) = true := by
  decide +kernel

end Sample

theorem lifecycle_kept_deleted : ∃ w, machine.run Sample.deletes Sample.world = some w ∧
    ∀ as w', machine.run as w = some w' → Gone w'.shared.committed Sample.versionId := by
  obtain ⟨w, hr, hgone⟩ := (Option.any_eq_true _ _).mp Sample.deletes_gone
  have hkept := (lifecycle_kept Sample.world_initial hr).2.1
  exact ⟨w, hr, fun as w' h => hkept as w' h Sample.versionId (.inl (beq_iff_eq.mp hgone))⟩

end ProjectAgent.Documents
