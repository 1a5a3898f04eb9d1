/-
Queues of several namespaces over one table. Both enqueue paths write a job's
namespace and no statement reads it: what a queue claims, completes, fails and
reaps is its own exactly where no other namespace's job is in the way.
-/
import ProjectAgent.Lib.Ranking
import ProjectAgent.Jobs.Invariants

namespace ProjectAgent.Jobs

open Interleave

variable {settings : Settings} {σ : QueueState} {jobId : UUID} {row row' : BackgroundJob} {s : Step}
  {steps : List QueueStep} {ns : String}

/-! ## The namespace of a job -/

theorem RowStep.keepsNs (h : RowStep settings σ jobId s row row') : row'.ns = row.ns := by
  cases h with
  | kept | claimed | heartbeat | completed => rfl
  | failed =>
    unfold failRow
    dsimp only
    split <;> rfl
  | reaped =>
    unfold reapRow
    dsimp only
    split <;> rfl

/-- Some queue of the namespace has enqueued the job. -/
def EnqueuedUnder (steps : List QueueStep) (jobId : UUID) (ns : String) : Prop :=
  ∃ pre s request now, pre ++ [s] <+: steps ∧ s.step = .enqueue request jobId now ∧
    s.settings.ns = ns ∧
    ∃ jobs, enqueue s.settings (runAll pre).jobs request jobId now = .ok jobs

theorem runAll_snoc (steps : List QueueStep) (s : QueueStep) :
    runAll (steps ++ [s]) = s.apply (runAll steps) := by
  rw [runAll_append]
  rfl

theorem find_run (hrow : (runAll steps).jobs.find jobId = some row) (rest : List QueueStep) :
    ∃ row', (runAll (steps ++ rest)).jobs.find jobId = some row' ∧ row'.ns = row.ns := by
  induction rest using List.reverseRecOn with
  | nil => exact ⟨row, by rw [List.append_nil]; exact hrow, rfl⟩
  | append_singleton rest s ih =>
    obtain ⟨row₁, hrow₁, hns⟩ := ih
    obtain ⟨row₂, hrow₂, hstep⟩ := find_step s.settings (QueueOk.run _).claimed hrow₁ s.step
    refine ⟨row₂, ?_, hstep.keepsNs.trans hns⟩
    rw [← List.append_assoc, runAll_snoc]
    exact hrow₂

/-- **A job's namespace is its enqueuer's.** -/
theorem enqueuedUnder_iff (hrow : (runAll steps).jobs.find jobId = some row) :
    EnqueuedUnder steps jobId ns ↔ row.ns = ns := by
  constructor
  · rintro ⟨pre, s, request, now, ⟨rest, rfl⟩, hs, rfl, jobs, hx⟩
    obtain ⟨-, -, rfl⟩ := enqueue_eq_ok.mp hx
    have hnew : (runAll (pre ++ [s])).jobs.find jobId =
        some (buildJobModel request s.settings.ns jobId now) := by
      rw [runAll_snoc]
      simp only [QueueStep.apply, hs, Jobs.step, hx]
      rw [JobTable.find_cons, if_pos (show (buildJobModel request s.settings.ns jobId now).id =
        jobId from rfl)]
    obtain ⟨row', hrow', hns⟩ := find_run hnew rest
    cases hrow.symm.trans hrow'
    exact hns
  · rintro rfl
    induction steps using List.reverseRecOn generalizing row with
    | nil => cases hrow
    | append_singleton steps s ih =>
      rw [runAll_snoc] at hrow
      cases hwas : (runAll steps).jobs.find jobId with
      | none =>
        obtain ⟨request, now, hs, hvalid, rfl⟩ := find_new hwas hrow
        exact ⟨steps, s, request, now, List.prefix_refl _, hs, rfl, _,
          enqueue_eq_ok.mpr ⟨hvalid, hwas, rfl⟩⟩
      | some row₀ =>
        obtain ⟨row', hrow', hstep⟩ := find_step s.settings (QueueOk.run steps).claimed hwas s.step
        cases hrow.symm.trans hrow'
        obtain ⟨pre, s', request, now, hpre, hs', hns, hx⟩ := ih hwas
        exact ⟨pre, s', request, now, hpre.trans (List.prefix_append ..), hs',
          hns.trans hstep.keepsNs.symm, hx⟩

/-! ## What a step takes -/

/-- The step claims the job, completes it, fails it or reaps it. -/
def QueueStep.takes (s : QueueStep) (σ : QueueState) (jobId : UUID) : Prop :=
  s.step.claims s.settings σ jobId ∨ s.step.completes σ jobId ∨ s.step.returns σ jobId

/-- Every job a queue takes was enqueued under its namespace. -/
def Isolated (steps : List QueueStep) : Prop :=
  ∀ pre s, pre ++ [s] <+: steps → ∀ jobId, s.takes (runAll pre) jobId →
    EnqueuedUnder pre jobId s.settings.ns

/-- The jobs a claim chooses among. -/
def dueJobs (jobs : JobTable) (now : Nat) (locked : List UUID) : List BackgroundJob :=
  List.filter (fun row => row.status == .PENDING && row.availableAt ≤ now &&
    !locked.contains row.id) jobs

/-- The jobs a reap chooses among. -/
def expiredJobs (jobs : JobTable) (now : Nat) (locked : List UUID) : List BackgroundJob :=
  List.filter (fun row => row.status == .RUNNING && row.leaseExpiresAt.any (· < now) &&
    !locked.contains row.id) jobs

/-- Among the jobs a statement chooses from, another namespace's come after the limit. -/
def OwnFirst (r : BackgroundJob → BackgroundJob → Prop) [DecidableRel r]
    (chosen : List BackgroundJob) (limit : Nat) (ns : String) : Prop :=
  ∀ row ∈ chosen, row.ns ≠ ns → limit ≤ (Ranking.before r chosen row).length

/-- No job of another namespace is in the way. -/
def QueueStep.Alone (s : QueueStep) (σ : QueueState) : Prop :=
  match s.step with
  | .enqueue .. | .call _ _ (.heartbeat _) => True
  | .claim _ limit _ selectedAt locked =>
    OwnFirst ClaimsBefore (dueJobs σ.jobs selectedAt locked) limit s.settings.ns
  | .call jobId workerId _ => ∀ row, σ.jobs.find jobId = some row → row.status = .RUNNING →
      row.lockedBy = some workerId → row.ns = s.settings.ns
  | .reap limit now locked =>
    OwnFirst ExpiresBefore (expiredJobs σ.jobs now locked) limit s.settings.ns

instance : Std.Total ClaimsBefore := ⟨fun a b => by unfold ClaimsBefore; omega⟩

instance : IsTrans BackgroundJob ClaimsBefore := ⟨fun a b c => by unfold ClaimsBefore; omega⟩

instance : Std.Total ExpiresBefore := ⟨fun a b => by unfold ExpiresBefore; omega⟩

instance : IsTrans BackgroundJob ExpiresBefore := ⟨fun a b c => by unfold ExpiresBefore; omega⟩

/-- What the first `limit` of a selection are, by what comes before them. -/
theorem mem_selection {r : BackgroundJob → BackgroundJob → Prop} [DecidableRel r] [Std.Total r]
    [IsTrans BackgroundJob r] (hids : ∀ a b, r a b → r b a → a.id = b.id) {jobs : JobTable}
    (hu : jobs.Unique) (p : BackgroundJob → Bool) (limit : Nat) :
    row ∈ ((List.filter p jobs).insertionSort r).take limit ↔
      row ∈ List.filter p jobs ∧ (Ranking.before r (List.filter p jobs) row).length < limit := by
  have hanti : ∀ a ∈ List.filter p jobs, ∀ b ∈ List.filter p jobs, r a b → r b a → a = b := by
    intro a ha b hb hab hba
    have hid := hids a b hab hba
    have hfound := hu.find_of_mem (List.mem_of_mem_filter ha)
    rw [hid, hu.find_of_mem (List.mem_of_mem_filter hb)] at hfound
    exact (Option.some.inj hfound).symm
  have hnodup : (List.filter p jobs).Nodup := (List.Nodup.of_map _ hu).filter _
  constructor
  · intro hmem
    have hin : row ∈ List.filter p jobs := (List.mem_insertionSort _).mp (List.mem_of_mem_take hmem)
    exact ⟨hin, (Ranking.mem_take_sorted hanti hnodup hin).mp hmem⟩
  · rintro ⟨hin, hlt⟩
    exact (Ranking.mem_take_sorted hanti hnodup hin).mpr hlt

theorem id_of_int_eq {a b : BackgroundJob} (h : a.id.int = b.id.int) : a.id = b.id := by
  cases ha : a.id
  cases hb : b.id
  rw [ha, hb] at h
  exact congrArg UUID.mk h

theorem mem_claimStatement_iff {jobs : JobTable} (hu : jobs.Unique) {limit now : Nat}
    {locked : List UUID} :
    row ∈ claimStatement jobs limit now locked ↔ row ∈ dueJobs jobs now locked ∧
      (Ranking.before ClaimsBefore (dueJobs jobs now locked) row).length < limit :=
  mem_selection (fun a b hab hba =>
    id_of_int_eq (by unfold ClaimsBefore at hab hba; omega)) hu _ limit

theorem mem_expiredStatement_iff {jobs : JobTable} (hu : jobs.Unique) {limit now : Nat}
    {locked : List UUID} :
    row ∈ expiredStatement jobs limit now locked ↔ row ∈ expiredJobs jobs now locked ∧
      (Ranking.before ExpiresBefore (expiredJobs jobs now locked) row).length < limit :=
  mem_selection (fun a b hab hba =>
    id_of_int_eq (by unfold ExpiresBefore at hab hba; omega)) hu _ limit

/-- Every row a statement selects is of the namespace exactly if the others come after the limit. -/
theorem ownFirst_iff {r : BackgroundJob → BackgroundJob → Prop} [DecidableRel r]
    {chosen selected : List BackgroundJob} {limit : Nat}
    (h : ∀ row, row ∈ selected ↔ row ∈ chosen ∧ (Ranking.before r chosen row).length < limit) :
    OwnFirst r chosen limit ns ↔ ∀ row ∈ selected, row.ns = ns := by
  constructor
  · intro hown row hrow
    obtain ⟨hin, hlt⟩ := (h row).mp hrow
    by_contra hns
    have hle := hown row hin hns
    omega
  · intro hall row hin hns
    by_contra hlt
    exact hns (hall row ((h row).mpr ⟨hin, Nat.not_le.mp hlt⟩))

/-- **One step stays in its namespace exactly where no other namespace's job is in the way.** -/
theorem alone_iff (h : QueueOk σ) (s : QueueStep) :
    s.Alone σ ↔ ∀ jobId, s.takes σ jobId → ∃ row, σ.jobs.find jobId = some row ∧
      row.ns = s.settings.ns := by
  have hu := h.claimed.unique
  obtain ⟨settings, s⟩ := s
  cases s with
  | enqueue request id now =>
    refine ⟨fun _ jobId htakes => ?_, fun _ => trivial⟩
    rcases htakes with h | h | h <;> exact h.elim
  | claim workerId limit now selectedAt locked =>
    refine (ownFirst_iff fun row => mem_claimStatement_iff hu).trans ⟨fun hall jobId htakes => ?_,
      fun hall row hrow => ?_⟩
    · rcases htakes with hclaims | hno | hno
      · obtain ⟨-, row, hrow, rfl⟩ := mem_claim_iff.mp hclaims
        exact ⟨row, hu.find_of_mem (mem_claimStatement hrow).1, hall row hrow⟩
      · exact hno.elim
      · exact hno.elim
    · have hlimit : ¬ limit < 1 := fun hlt => by
        have hlt' := ((mem_claimStatement_iff hu).mp hrow).2
        omega
      obtain ⟨row', hfind, hns⟩ := hall row.id (.inl (mem_claim_iff.mpr ⟨hlimit, row, hrow, rfl⟩))
      cases (hu.find_of_mem (mem_claimStatement hrow).1).symm.trans hfind
      exact hns
  | call id workerId call =>
    cases call with
    | heartbeat now =>
      refine ⟨fun _ jobId htakes => ?_, fun _ => trivial⟩
      rcases htakes with h | h | h <;> exact h.elim
    | complete now =>
      refine ⟨fun hown jobId htakes => ?_, fun hall row hfind hrunning hlocked => ?_⟩
      · rcases htakes with hno | ⟨rfl, row, howned⟩ | hno
        · exact hno.elim
        · obtain ⟨hfind, hrunning, hlocked⟩ := ownedRunning_eq_ok.mp howned
          exact ⟨row, hfind, hown row hfind hrunning hlocked⟩
        · exact hno.elim
      · obtain ⟨row', hfind', hns⟩ :=
          hall id (.inr (.inl ⟨rfl, row, ownedRunning_eq_ok.mpr ⟨hfind, hrunning, hlocked⟩⟩))
        cases hfind.symm.trans hfind'
        exact hns
    | fail errorCode now =>
      refine ⟨fun hown jobId htakes => ?_, fun hall row hfind hrunning hlocked => ?_⟩
      · rcases htakes with hno | hno | ⟨rfl, row, howned⟩
        · exact hno.elim
        · exact hno.elim
        · obtain ⟨hfind, hrunning, hlocked⟩ := ownedRunning_eq_ok.mp howned
          exact ⟨row, hfind, hown row hfind hrunning hlocked⟩
      · obtain ⟨row', hfind', hns⟩ :=
          hall id (.inr (.inr ⟨rfl, row, ownedRunning_eq_ok.mpr ⟨hfind, hrunning, hlocked⟩⟩))
        cases hfind.symm.trans hfind'
        exact hns
  | reap limit now locked =>
    refine (ownFirst_iff fun row => mem_expiredStatement_iff hu).trans ⟨fun hall jobId htakes => ?_,
      fun hall row hrow => ?_⟩
    · rcases htakes with hno | hno | ⟨row, hrow, rfl⟩
      · exact hno.elim
      · exact hno.elim
      · exact ⟨row, hu.find_of_mem (mem_expiredStatement hrow).1, hall row hrow⟩
    · obtain ⟨row', hfind, hns⟩ := hall row.id (.inr (.inr ⟨row, hrow, rfl⟩))
      cases (hu.find_of_mem (mem_expiredStatement hrow).1).symm.trans hfind
      exact hns

/-- What a step takes is in the table. -/
theorem find_of_takes (h : QueueOk σ) {s : QueueStep} (htakes : s.takes σ jobId) :
    ∃ row, σ.jobs.find jobId = some row := by
  have hu := h.claimed.unique
  obtain ⟨settings, s⟩ := s
  rcases htakes with htakes | htakes | htakes
  · cases s with
    | claim workerId limit now selectedAt locked =>
      obtain ⟨-, row, hrow, rfl⟩ := mem_claim_iff.mp htakes
      exact ⟨row, hu.find_of_mem (mem_claimStatement hrow).1⟩
    | enqueue | call | reap => exact htakes.elim
  · cases s with
    | call id workerId call =>
      cases call with
      | complete =>
        obtain ⟨rfl, row, howned⟩ := htakes
        exact ⟨row, (ownedRunning_eq_ok.mp howned).1⟩
      | heartbeat | fail => exact htakes.elim
    | enqueue | claim | reap => exact htakes.elim
  · cases s with
    | call id workerId call =>
      cases call with
      | fail =>
        obtain ⟨rfl, row, howned⟩ := htakes
        exact ⟨row, (ownedRunning_eq_ok.mp howned).1⟩
      | heartbeat | complete => exact htakes.elim
    | reap limit now locked =>
      obtain ⟨row, hrow, rfl⟩ := htakes
      exact ⟨row, hu.find_of_mem (mem_expiredStatement hrow).1⟩
    | enqueue | claim => exact htakes.elim

/-- **Namespaces are isolated exactly in the runs in which no queue meets
another's jobs**: no job of another namespace is among the first a claim or a
reap may take, and none is completed or failed by a worker that holds it. -/
theorem isolated_iff (steps : List QueueStep) :
    Isolated steps ↔ ∀ pre s, pre ++ [s] <+: steps → s.Alone (runAll pre) := by
  constructor
  · intro hisolated pre s hpre
    refine (alone_iff (QueueOk.run pre) s).mpr fun jobId htakes => ?_
    obtain ⟨row, hrow⟩ := find_of_takes (QueueOk.run pre) htakes
    exact ⟨row, hrow, (enqueuedUnder_iff hrow).mp (hisolated pre s hpre jobId htakes)⟩
  · intro halone pre s hpre jobId htakes
    obtain ⟨row, hrow, hns⟩ := (alone_iff (QueueOk.run pre) s).mp (halone pre s hpre) jobId htakes
    exact (enqueuedUnder_iff hrow).mpr hns

namespace Sample

def otherQueue : Settings := { queue with ns := "evaluation" }

/-- A job of the first queue, and a claim of the second. -/
def crossed : List QueueStep :=
  [⟨queue, .enqueue ⟨"EXECUTE_AGENT_RUN", "00000000-0000-0000-0000-000000000002", 3⟩ job 0⟩,
    ⟨otherQueue, .claim worker 4 10 10 []⟩]

end Sample

/-- The second queue's worker is handed the first queue's job. -/
theorem namespaces_crossed : ¬ Isolated Sample.crossed := by
  intro hisolated
  have hrow : ((runAll (Sample.crossed.take 1)).jobs.find Sample.job).map (·.ns) =
      some "project-agent" := by
    decide +kernel
  obtain ⟨row, hrow, hns⟩ := Option.map_eq_some_iff.mp hrow
  have hclaims :
    ((claim Sample.otherQueue (runAll (Sample.crossed.take 1)).jobs Sample.worker 4 10 10 []).1.any
      (·.jobId == Sample.job)) = true := by decide +kernel
  have htakes : Step.claims Sample.otherQueue (runAll (Sample.crossed.take 1)) Sample.job
      (.claim Sample.worker 4 10 10 []) := by
    obtain ⟨job, hjob, hid⟩ := List.any_eq_true.mp hclaims
    exact ⟨job, hjob, beq_iff_eq.mp hid⟩
  have hunder := hisolated (Sample.crossed.take 1)
    ⟨Sample.otherQueue, .claim Sample.worker 4 10 10 []⟩
    (List.prefix_refl _) Sample.job (.inl htakes)
  have hother := (enqueuedUnder_iff hrow).mp hunder
  rw [hns] at hother
  exact absurd hother (by decide)

end ProjectAgent.Jobs
