/-
The selection of a project from the active memberships of a user. It is the
only project that the question and the request leave, but in two cases: of two
projects with the code in the question it takes one, and with two memberships of
one project and nothing else to go by it takes none.
-/
import ProjectAgent.Agent.Nodes
import ProjectAgent.Issue.Store
import ProjectAgent.Lib.Ranking

namespace ProjectAgent.Agent

open Identifiers (QueryAnalysis)
open Issue (Directory MembershipAccessRecord)

variable {rows : List ProjectMembership} {analysis : QueryAnalysis} {requested : Option UUID}
  {p q : UUID}
  {dir : Directory} {userId : UUID} {t : Nat} {records : List MembershipAccessRecord}
    {record other : MembershipAccessRecord}

/-! ## The memberships -/

/-- The rows `list_active_memberships_for_user` joins and filters. -/
def activeMembershipsForUser (dir : Directory) (userId : UUID) (t : Nat) :
    List MembershipAccessRecord :=
  dir.memberships.flatMap fun m =>
    (dir.projects.filter fun p => p.id == m.projectId).filterMap fun p =>
      if m.userId = userId ∧ m.activeAt t ∧ p.lifecycleStatus ≠ .DELETION_PENDING ∧
        p.lifecycleStatus ≠ .DELETED then
        some ⟨p.companyId, p.clientId, p.id, p.code, m.role, m.validFrom, m.validTo⟩
      else none

/-- What the selection reads of a membership. -/
def toProjectMembership (record : MembershipAccessRecord) : ProjectMembership :=
  ⟨record.projectId, record.projectCode⟩

theorem mem_activeMembershipsForUser (h : record ∈ activeMembershipsForUser dir userId t) :
    ∃ project ∈ dir.projects, project.id = record.projectId ∧
      project.code = record.projectCode := by
  unfold activeMembershipsForUser at h
  obtain ⟨m, -, hm⟩ := List.mem_flatMap.mp h
  obtain ⟨project, hproject, hrecord⟩ := List.mem_filterMap.mp hm
  refine ⟨project, List.mem_of_mem_filter hproject, ?_⟩
  split at hrecord
  · rw [← Option.some.inj hrecord]
    exact ⟨rfl, rfl⟩
  · cases hrecord

/-- Memberships of one project have one code. -/
def OneCode (rows : List ProjectMembership) : Prop :=
  ∀ m ∈ rows, ∀ n ∈ rows, m.projectId = n.projectId → m.projectCode = n.projectCode

theorem oneCode (hprojects : (dir.projects.map (·.id)).Nodup)
    (hrecords : records.Perm (activeMembershipsForUser dir userId t)) :
    OneCode (records.map toProjectMembership) := by
  intro m hm n hn hid
  obtain ⟨record, hrecord, rfl⟩ := List.mem_map.mp hm
  obtain ⟨other, hother, rfl⟩ := List.mem_map.mp hn
  obtain ⟨project, hproject, hprojectId, hcode⟩ :=
    mem_activeMembershipsForUser (hrecords.mem_iff.mp hrecord)
  obtain ⟨project', hproject', hprojectId', hcode'⟩ :=
    mem_activeMembershipsForUser (hrecords.mem_iff.mp hother)
  have hsame : project = project' :=
    List.inj_on_of_nodup_map hprojects hproject hproject'
    (hprojectId.trans (hid.trans hprojectId'.symm))
  calc record.projectCode = project.code := hcode.symm
    _ = project'.code := congrArg _ hsame
    _ = other.projectCode := hcode'

/-! ## The selection -/

/-- A project of the user that neither the request nor a code in the question excludes. -/
structure Consistent (rows : List ProjectMembership) (analysis : QueryAnalysis)
    (requested : Option UUID) (p : UUID) : Prop where
  member : ∃ m ∈ rows, m.projectId = p
  requested : ∀ r, requested = some r → p = r
  codes : ∀ code ∈ analysis.projectCodes, ∃ m ∈ rows, m.projectId = p ∧ m.projectCode = code

/-- The only one. -/
def Only (rows : List ProjectMembership) (analysis : QueryAnalysis) (requested : Option UUID)
    (p : UUID) : Prop :=
  Consistent rows analysis requested p ∧ ∀ q, Consistent rows analysis requested q → q = p

/-- The project that is selected is the only consistent one. -/
structure Exact (rows : List ProjectMembership) (analysis : QueryAnalysis)
    (requested : Option UUID) : Prop where
  only : ∀ p, (selectProject rows analysis requested).selectedProjectId = some p ↔
    Only rows analysis requested p
  member : ∀ p, (selectProject rows analysis requested).selectedProjectId = some p →
    ∃ m ∈ rows, m.projectId = p
  single : ∀ p, (∀ m ∈ rows, m.projectId = p) → Consistent rows analysis requested p →
    (selectProject rows analysis requested).selectedProjectId = some p

/-- Without a request, the code in the question is of one project at most; and without a code, the
memberships are of several projects or there is one at most. -/
structure Clear (rows : List ProjectMembership) (analysis : QueryAnalysis) : Prop where
  code : ∀ code, analysis.projectCodes.eraseDups = [code] →
    ∀ m ∈ rows, ∀ n ∈ rows, m.projectCode = code → n.projectCode = code → m.projectId = n.projectId
  several : analysis.projectCodes = [] → rows.length ≤ 1 ∨
    ∃ m ∈ rows, ∃ n ∈ rows, m.projectId ≠ n.projectId

theorem Exact.of_only
    (h : ∀ p, (selectProject rows analysis requested).selectedProjectId = some p ↔
      Only rows analysis requested p) :
    Exact rows analysis requested where
  only := h
  member p hp := ((h p).mp hp).1.member
  single p hall hp := by
    refine (h p).mpr ⟨hp, fun q hq => ?_⟩
    obtain ⟨m, hm, rfl⟩ := hq.member
    exact hall m hm

theorem codes_only {codes : List String} {code : String} :
    codes.eraseDups = [] ∨ codes.eraseDups = [code] ↔ ∀ c ∈ codes, c = code := by
  constructor
  · rintro h c hc
    rw [← List.mem_eraseDups] at hc
    rcases h with h | h
    · rw [h] at hc
      cases hc
    · rw [h] at hc
      exact List.mem_singleton.mp hc
  · intro h
    have hnodup := Interleave.Ranking.nodup_eraseDups codes
    cases hcodes : codes.eraseDups with
    | nil => exact .inl rfl
    | cons x xs =>
      rw [hcodes] at hnodup
      have hall (c : String) (hc : c ∈ x :: xs) : c = code :=
        h c (List.mem_eraseDups.mp (hcodes ▸ hc))
      cases xs with
      | nil => exact .inr (by rw [hall x List.mem_cons_self])
      | cons y ys =>
        have hsame : x = y :=
          (hall x List.mem_cons_self).trans
          (hall y (List.mem_cons_of_mem _ List.mem_cons_self)).symm
        exact absurd (hsame ▸ List.mem_cons_self) (List.nodup_cons.mp hnodup).1

/-- The codes of a consistent project are its own. -/
theorem Consistent.code (hone : OneCode rows) (h : Consistent rows analysis requested p)
    {m : ProjectMembership} (hm : m ∈ rows) (hp : m.projectId = p) :
    ∀ code ∈ analysis.projectCodes, code = m.projectCode := by
  intro code hcode
  obtain ⟨n, hn, hnp, rfl⟩ := h.codes code hcode
  exact hone n hn m hm (hnp.trans hp.symm)

theorem select_requested (hone : OneCode rows) (r : UUID) :
    (selectProject rows analysis (some r)).selectedProjectId = some p ↔
      Only rows analysis (some r) p := by
  unfold selectProject
  dsimp only
  cases hfind : rows.reverse.find? (·.projectId == r) with
  | none =>
    refine iff_of_false nofun ?_
    rintro ⟨hp, -⟩
    obtain ⟨m, hm, hmp⟩ := hp.member
    have hne := List.find?_eq_none.mp hfind m (List.mem_reverse.mpr hm)
    exact hne (beq_iff_eq.mpr (hmp.trans (hp.requested r rfl)))
  | some m =>
    have hm : m ∈ rows := List.mem_reverse.mp (List.mem_of_find?_eq_some hfind)
    have hr : m.projectId = r :=
      beq_iff_eq.mp (List.find?_some (p := fun m : ProjectMembership => m.projectId == r) hfind)
    dsimp only
    split
    · next hother =>
      refine iff_of_false nofun ?_
      rintro ⟨hp, -⟩
      rcases codes_only.mpr (hp.code hone hm (hr.trans (hp.requested r rfl).symm)) with h | h
      · exact hother.1 h
      · exact hother.2 h
    · next hcodes =>
      have hcodes' : ∀ code ∈ analysis.projectCodes, code = m.projectCode := by
        refine codes_only.mp ?_
        by_cases h : analysis.projectCodes.eraseDups = []
        · exact .inl h
        · exact .inr (by_contra fun h' => hcodes ⟨h, h'⟩)
      constructor
      · intro h
        obtain rfl : r = p := Option.some.inj h
        refine ⟨⟨⟨m, hm, hr⟩, fun r' hr' => Option.some.inj hr', fun code hcode => ?_⟩, fun q hq =>
          hq.requested r rfl⟩
        exact ⟨m, hm, hr, (hcodes' code hcode).symm⟩
      · rintro ⟨hp, -⟩
        rw [hp.requested r rfl]

/-- Several codes are of no project. -/
theorem not_consistent (hone : OneCode rows) {x y : String} {ys : List String}
    (hcodes : analysis.projectCodes.eraseDups = x :: y :: ys) :
    ¬ Consistent rows analysis requested p := by
  intro hp
  obtain ⟨m, hm, hmp⟩ := hp.member
  rcases codes_only.mpr (hp.code hone hm hmp) with h | h
  · cases hcodes.symm.trans h
  · cases hcodes.symm.trans h

/-- Of a membership that the codes allow, the project is consistent. -/
theorem consistent_of_code {m : ProjectMembership} (hm : m ∈ rows)
    (hcodes : ∀ code ∈ analysis.projectCodes, code = m.projectCode) :
    Consistent rows analysis none m.projectId :=
  ⟨⟨m, hm, rfl⟩, fun _ h => absurd h.symm (Option.some_ne_none _), fun code hcode =>
    ⟨m, hm, rfl, (hcodes code hcode).symm⟩⟩

theorem select_code {code : String} (hcodes : analysis.projectCodes.eraseDups = [code]) :
    Exact rows analysis none ↔
      ∀ m ∈ rows, ∀ n ∈ rows, m.projectCode = code → n.projectCode = code →
        m.projectId = n.projectId := by
  have hall : ∀ c ∈ analysis.projectCodes, c = code := codes_only.mp (.inr hcodes)
  have hmem : code ∈ analysis.projectCodes :=
    List.mem_eraseDups.mp (hcodes ▸ List.mem_singleton_self code)
  have hselect : (selectProject rows analysis none).selectedProjectId =
      (rows.reverse.find? (·.projectCode == code)).map (·.projectId) := by
    unfold selectProject
    simp only [hcodes]
    cases rows.reverse.find? (·.projectCode == code) <;> rfl
  constructor
  · intro h m hm n hn hmcode hncode
    have hconsistent {k : ProjectMembership} (hk : k ∈ rows) (hkcode : k.projectCode = code) :
        Consistent rows analysis none k.projectId :=
      consistent_of_code hk fun c hc => (hall c hc).trans hkcode.symm
    cases hfind : rows.reverse.find? (·.projectCode == code) with
    | none =>
      exact absurd (beq_iff_eq.mpr hmcode) (List.find?_eq_none.mp hfind m (List.mem_reverse.mpr hm))
    | some k =>
      rw [hfind] at hselect
      obtain ⟨-, hunique⟩ := (h.only k.projectId).mp hselect
      exact (hunique _ (hconsistent hm hmcode)).trans (hunique _ (hconsistent hn hncode)).symm
  · intro h
    refine Exact.of_only fun p => ?_
    rw [hselect]
    have hcode {q : UUID} (hq : Consistent rows analysis none q) : ∃ m ∈ rows, m.projectId = q ∧
        m.projectCode = code :=
      hq.codes code hmem
    cases hfind : rows.reverse.find? (·.projectCode == code) with
    | none =>
      refine iff_of_false nofun ?_
      rintro ⟨hp, -⟩
      obtain ⟨m, hm, -, hmcode⟩ := hcode hp
      exact List.find?_eq_none.mp hfind m (List.mem_reverse.mpr hm) (beq_iff_eq.mpr hmcode)
    | some k =>
      have hk : k ∈ rows := List.mem_reverse.mp (List.mem_of_find?_eq_some hfind)
      have hkcode : k.projectCode = code :=
        beq_iff_eq.mp (List.find?_some (p := fun m : ProjectMembership =>
        m.projectCode == code) hfind)
      have honly {q : UUID} (hq : Consistent rows analysis none q) : q = k.projectId := by
        obtain ⟨m, hm, rfl, hmcode⟩ := hcode hq
        exact h m hm k hk hmcode hkcode
      constructor
      · intro hp
        obtain rfl : k.projectId = p := Option.some.inj hp
        exact ⟨consistent_of_code hk fun c hc => (hall c hc).trans hkcode.symm,
          fun q hq => honly hq⟩
      · rintro ⟨hp, -⟩
        rw [honly hp]
        rfl

theorem select_nothing (hcodes : analysis.projectCodes = []) :
    Exact rows analysis none ↔ rows.length ≤ 1 ∨ ∃ m ∈ rows, ∃ n ∈ rows,
      m.projectId ≠ n.projectId := by
  have herase : analysis.projectCodes.eraseDups = [] := by
    rw [hcodes]
    rfl
  have hconsistent {m : ProjectMembership} (hm : m ∈ rows) :
      Consistent rows analysis none m.projectId := by
    refine consistent_of_code hm ?_
    rw [hcodes]
    exact fun _ h => absurd h List.not_mem_nil
  cases rows with
  | nil =>
    refine iff_of_true (Exact.of_only fun p => iff_of_false ?_ ?_) (.inl (Nat.zero_le 1))
    · unfold selectProject
      simp only [herase]
      exact nofun
    · rintro ⟨hp, -⟩
      obtain ⟨m, hm, -⟩ := hp.member
      cases hm
  | cons m rest =>
    cases rest with
    | nil =>
      refine iff_of_true (Exact.of_only fun p => ?_) (.inl le_rfl)
      have hselect : (selectProject [m] analysis none).selectedProjectId = some m.projectId := by
        unfold selectProject
        simp only [herase]
      rw [hselect]
      constructor
      · intro hp
        obtain rfl : m.projectId = p := Option.some.inj hp
        refine ⟨hconsistent List.mem_cons_self, fun q hq => ?_⟩
        obtain ⟨n, hn, rfl⟩ := hq.member
        rw [List.mem_singleton.mp hn]
      · rintro ⟨hp, -⟩
        obtain ⟨n, hn, rfl⟩ := hp.member
        rw [List.mem_singleton.mp hn]
    | cons n rest =>
      have hselect : (selectProject (m :: n :: rest) analysis none).selectedProjectId = none := by
        unfold selectProject
        simp only [herase]
      constructor
      · intro h
        refine .inr ?_
        by_contra hsame
        push Not at hsame
        have hm := h.single m.projectId (fun k hk => hsame k hk m List.mem_cons_self)
          (hconsistent List.mem_cons_self)
        rw [hselect] at hm
        cases hm
      · rintro (h | ⟨k, hk, l, hl, hne⟩)
        · exact absurd h (by simp)
        · refine Exact.of_only fun p => ?_
          rw [hselect]
          refine iff_of_false nofun ?_
          rintro ⟨-, hunique⟩
          exact hne ((hunique _ (hconsistent hk)).trans (hunique _ (hconsistent hl)).symm)

theorem exact_iff (hone : OneCode rows) :
    Exact rows analysis requested ↔ (requested = none → Clear rows analysis) := by
  cases requested with
  | some r => exact iff_of_true (Exact.of_only fun p => select_requested hone r) nofun
  | none =>
    rw [forall_prop_of_true rfl]
    match hcodes : analysis.projectCodes.eraseDups with
    | [] =>
      have hnone : analysis.projectCodes = [] := by
        refine List.eq_nil_iff_forall_not_mem.mpr fun code hcode => ?_
        rw [← List.mem_eraseDups, hcodes] at hcode
        cases hcode
      rw [select_nothing hnone]
      exact ⟨fun h => ⟨fun code h' => (nomatch hcodes.symm.trans h'), fun _ => h⟩, fun h =>
        h.several hnone⟩
    | [code] =>
      rw [select_code hcodes]
      refine ⟨fun h => ⟨fun code' h' => ?_, fun hnone => ?_⟩, fun h => h.code code hcodes⟩
      · rw [hcodes] at h'
        cases h'
        exact h
      · rw [hnone] at hcodes
        cases hcodes
    | _ :: _ :: _ =>
      have hexact : Exact rows analysis none := by
        refine Exact.of_only fun p => iff_of_false ?_ fun hp => not_consistent hone hcodes hp.1
        unfold selectProject
        simp only [hcodes]
        exact nofun
      refine iff_of_true hexact ⟨fun code h' => ?_, fun hnone => ?_⟩
      · cases hcodes.symm.trans h'
      · rw [hnone] at hcodes
        cases hcodes

/-- **A project is selected exactly if it is the only consistent one**, unless there is no request
and either the one code in the question is of several projects, or there is no code and several
memberships are all of one project. -/
theorem selection_exact_iff (hprojects : (dir.projects.map (·.id)).Nodup)
    (hrecords : records.Perm (activeMembershipsForUser dir userId t)) (analysis : QueryAnalysis)
    (requested : Option UUID) :
    Exact (records.map toProjectMembership) analysis requested ↔
      (requested = none → Clear (records.map toProjectMembership) analysis) :=
  exact_iff (oneCode hprojects hrecords)

section Sample

/-- Two companies' projects of one code, and a project with two memberships. -/
def directory (memberships : List Issue.Membership) : Directory where
  memberships := memberships
  projects := [⟨.ofNat 3, .ofNat 5, .ofNat 6, "ALPHA", .ACTIVE⟩,
    ⟨.ofNat 4, .ofNat 7, .ofNat 8, "ALPHA", .ACTIVE⟩]
  sandboxProjects := []
  publishedVersions _ := []
  activeKnowledgeSpaceIds _ := []
  candidateLinks _ := []

def question (codes : List String) : QueryAnalysis :=
  ⟨"question", "question", codes.map fun code => ⟨.PROJECT_CODE, code, code⟩⟩

/-- A viewer who is a developer, too. -/
def overlapping : List Issue.Membership :=
  [⟨.ofNat 1, .ofNat 3, .VIEWER, 0, none⟩, ⟨.ofNat 1, .ofNat 3, .DEVELOPER, 1, none⟩]

/-- A member of both. -/
def both : List Issue.Membership :=
  [⟨.ofNat 1, .ofNat 3, .VIEWER, 0, none⟩, ⟨.ofNat 1, .ofNat 4, .VIEWER, 0, none⟩]

theorem selection_exact_iff_sample :
    Exact ((activeMembershipsForUser (directory overlapping) (.ofNat 1) 2).map toProjectMembership)
      (question ["ALPHA"]) none ↔
      ((none : Option UUID) = none →
        Clear ((activeMembershipsForUser (directory overlapping) (.ofNat 1) 2).map
          toProjectMembership) (question ["ALPHA"])) :=
  selection_exact_iff (by decide) (List.Perm.refl _) _ _

/-- With two memberships in one project and nothing else to go by, none is selected; of two projects
of one code, one is. -/
theorem selection_not_exact :
    ¬ Exact ((activeMembershipsForUser (directory overlapping) (.ofNat 1) 2).map
      toProjectMembership) (question []) none ∧
      ¬ Exact ((activeMembershipsForUser (directory both) (.ofNat 1) 2).map toProjectMembership)
        (question ["ALPHA"]) none := by
  have hprojects (memberships : List Issue.Membership) :
      ((directory memberships).projects.map (·.id)).Nodup :=
    (by decide : [UUID.ofNat 3, UUID.ofNat 4].Nodup)
  constructor
  · rw [exact_iff (oneCode (hprojects overlapping) (List.Perm.refl _))]
    intro h
    rcases (h rfl).several rfl with hlength | ⟨m, hm, n, hn, hne⟩
    · exact absurd hlength (by decide)
    · have hall : ∀ m ∈ (activeMembershipsForUser (directory overlapping) (.ofNat 1) 2).map
        toProjectMembership,
          m.projectId = .ofNat 3 := by decide
      exact hne ((hall m hm).trans (hall n hn).symm)
  · rw [exact_iff (oneCode (hprojects both) (List.Perm.refl _))]
    intro h
    have hfirst : ⟨.ofNat 5, .ofNat 6, .ofNat 3, "ALPHA", .VIEWER, 0, none⟩ ∈
        activeMembershipsForUser (directory both) (.ofNat 1) 2 := by
      decide
    have hsecond : ⟨.ofNat 7, .ofNat 8, .ofNat 4, "ALPHA", .VIEWER, 0, none⟩ ∈
        activeMembershipsForUser (directory both) (.ofNat 1) 2 := by
      decide
    have hsame := (h rfl).code "ALPHA" rfl _ (List.mem_map_of_mem hfirst) _
      (List.mem_map_of_mem hsecond) rfl rfl
    exact absurd hsame (by decide)

end Sample

end ProjectAgent.Agent
