/-
What an attempt prepared before a resume was accepted can still do to the run.
Neither `persist_outcome` nor `mark_final_failure` looks at that: what they
find is the run as the resume has left it, queued or running, and they end it.
-/
import ProjectAgent.Runs.Stranded

namespace ProjectAgent.Runs

open Interleave

variable {settings : Jobs.Settings} {pid : Nat} {c : Choice} {σ σ' : WorkStore}
  {runId : UUID} {α : Type}
  {t : Transaction α} {s : Stmt} {w w' : RunWorld}

/-- The attempt was prepared for the run, and a resume has been accepted since. -/
def Stale (σ : WorkStore) (pid : Nat) (runId : UUID) : Prop :=
  ∃ n, σ.prepared pid = some (runId, n) ∧ n < (accepted (σ.events runId)).length

/-- What an attempt does about a run once its graph has answered. -/
def Stmt.ofRun : Stmt → Option UUID
  | .persistOutcome runId _ | .markFinalFailure runId _ => some runId
  | _ => none

/-- A stale attempt's step leaves the run's row and events as they are. -/
def StaleLeaves (settings : Jobs.Settings) (a : RunAction) (w : RunWorld) : Prop :=
  ∀ w', (machine settings).step a w = some w' → ∀ pid c s k runId, a = .exec pid c →
    w.procs pid = some (.stmt s k) → s.ofRun = some runId → Stale w.shared pid runId →
      w'.shared.runs runId = w.shared.runs runId ∧ w'.shared.events runId = w.shared.events runId

/-- The transaction is lost before it commits. -/
def Choice.rolledBack (c : Choice) : Prop := ∃ e, c.lost = some (false, e)

/-- The statement has nothing to do in this state: `persist_outcome` on a run
that is neither queued nor running, or of an outcome it refuses;
`mark_final_failure` on a run that has ended. -/
def Stmt.idle (σ : RunStore) : Stmt → Prop
  | .persistOutcome runId outcome => outcome.malformed ∨ σ.underway runId = false
  | .markFinalFailure runId _ => ∃ row, σ.runs runId = some row ∧ row.status.terminal
  | _ => True

/-- Whatever a stale attempt commits, it finds nothing to do. -/
def FindsClosed (a : RunAction) (w : RunWorld) : Prop :=
  ∀ pid c s k runId, a = .exec pid c → w.procs pid = some (.stmt s k) → s.ofRun = some runId →
    Stale w.shared pid runId → ¬ c.rolledBack → s.idle w.shared.toRunStore

/-! ## What a statement about a run leaves behind -/

theorem transact_rolledBack (h : c.rolledBack) : (transact c σ t).2 = σ := by
  obtain ⟨e, he⟩ := h
  unfold transact
  rw [he]

theorem transact_commits {a : α} {τ : RunStore} (h : ¬ c.rolledBack)
    (ht : t σ.toRunStore = .ok (a, τ)) :
    (transact c σ t).2.toRunStore = τ := by
  unfold transact
  rw [ht]
  cases hlost : c.lost with
  | none => rfl
  | some fault =>
    obtain ⟨_ | _, e⟩ := fault
    · exact absurd ⟨e, hlost⟩ h
    · rfl

/-- The transaction `persist_outcome` or `mark_final_failure` runs. -/
theorem exec_ofRun (hs : s.ofRun = some runId) {r : Except RunError s.Res}
    (h : exec settings pid s c σ = some (r, σ')) :
    ∃ t : Transaction RunRecord, σ'.toRunStore = (transact c σ t).2.toRunStore ∧
      ((∃ outcome, s = .persistOutcome runId outcome ∧ t = persistOutcome runId outcome c.now) ∨
        ∃ errorCode, s = .markFinalFailure runId errorCode ∧
          t = markFinalFailure runId errorCode c.now) := by
  cases s with
  | persistOutcome r outcome =>
    cases hs
    obtain rfl : σ' = _ := (congrArg Prod.snd (Option.some.inj h)).symm
    exact ⟨_, rfl, .inl ⟨outcome, rfl, rfl⟩⟩
  | markFinalFailure r errorCode =>
    cases hs
    obtain rfl : σ' = _ := (congrArg Prod.snd (Option.some.inj h)).symm
    exact ⟨markFinalFailure runId errorCode c.now,
      noting_toRunStore (noteMarked pid runId) (fun _ => rfl) _,
      .inr ⟨errorCode, rfl, rfl⟩⟩
  | prepareExecute | prepareResume | graphExecute | graphResume | otherHandler | complete
      | fail => cases hs

/-- The statement changes nothing if it has nothing to do. -/
theorem idle_leaves (hs : s.ofRun = some runId) {r : Except RunError s.Res}
    (h : exec settings pid s c σ = some (r, σ')) (hidle : c.rolledBack ∨ s.idle σ.toRunStore) :
    σ'.toRunStore = σ.toRunStore := by
  obtain ⟨t, heq, ht⟩ := exec_ofRun hs h
  rw [heq]
  rcases hidle with hlost | hidle
  · rw [transact_rolledBack hlost]
  rcases transact_cases (c := c) (σ := σ) (t := t) with hsame | ⟨run, τ, hok, hτ⟩
  · rw [hsame]
  rw [hτ]
  rcases ht with ⟨outcome, rfl, rfl⟩ | ⟨errorCode, rfl, rfl⟩
  · obtain ⟨-, -, hclosed, hmalformed⟩ := persistOutcome_ok hok
    exact hclosed (hidle.elim hmalformed id)
  · exact (markFinalFailure_ok hok).2.2.1 hidle

/-- And otherwise it ends the run, or makes it wait. -/
theorem busy_writes (hs : s.ofRun = some runId) {r : Except RunError s.Res}
    (h : exec settings pid s c σ = some (r, σ')) {row : AgentRun} (hrow : σ.runs runId = some row)
    (hlost : ¬ c.rolledBack) (hbusy : ¬ s.idle σ.toRunStore) : σ'.runs runId ≠ σ.runs runId := by
  obtain ⟨t, heq, ht⟩ := exec_ofRun hs h
  rcases ht with ⟨outcome, rfl, rfl⟩ | ⟨errorCode, rfl, rfl⟩
  · obtain ⟨hformed, hunderway⟩ := not_or.mp hbusy
    obtain ⟨run, τ, hok⟩ := persistOutcome_goes hrow (Bool.eq_false_iff.mpr hformed) c.now
    rw [transact_commits hlost hok] at heq
    obtain ⟨-, hclosed, -, -⟩ := persistOutcome_ok hok
    intro hsame
    rw [← heq, RunStore.underway, hsame] at hclosed
    exact hunderway hclosed
  · obtain ⟨run, τ, hok⟩ := markFinalFailure_goes hrow errorCode c.now
    rw [transact_commits hlost hok] at heq
    obtain ⟨-, hterminal, -, -⟩ := markFinalFailure_ok hok
    intro hsame
    rw [← heq, hsame] at hterminal
    exact hbusy hterminal

/-! ## When a stale attempt leaves the run alone -/

/-- A run a resume has been accepted for is there. -/
theorem Stale.run (hk : WorkKept σ) (h : Stale σ pid runId) : ∃ row, σ.runs runId = some row := by
  obtain ⟨n, -, hlt⟩ := h
  refine Option.ne_none_iff_exists'.mp fun hn => ?_
  rw [hk.free runId hn] at hlt
  exact absurd hlt (Nat.not_lt_zero n)

theorem staleLeaves_iff {a : RunAction} (hk : WorkKept w.shared)
    (hs : (machine settings).step a w = some w') :
    StaleLeaves settings a w ↔ FindsClosed a w := by
  constructor
  · rintro hleaves pid c s k runId rfl hp hof hstale hlost
    by_contra hbusy
    obtain ⟨row, hrow⟩ := hstale.run hk
    have hsame := hleaves w' hs pid c s k runId rfl hp hof hstale
    simp only [Machine.step, hp] at hs
    obtain ⟨⟨r, σ'⟩, hx, rfl⟩ := Option.map_eq_some_iff.mp hs
    exact busy_writes hof hx hrow hlost hbusy hsame.1
  · rintro hclosed w₁ hs₁ pid c s k runId rfl hp hof hstale
    simp only [Machine.step, hp] at hs₁
    obtain ⟨⟨r, σ'⟩, hx, rfl⟩ := Option.map_eq_some_iff.mp hs₁
    have hidle : c.rolledBack ∨ s.idle w.shared.toRunStore := by
      by_cases hlost : c.rolledBack
      · exact .inl hlost
      · exact .inr (hclosed pid c s k runId rfl hp hof hstale hlost)
    have hsame := idle_leaves hof hx hidle
    exact ⟨congrArg (fun σ => σ.runs runId) hsame, congrArg (fun σ => σ.events runId) hsame⟩

/-- Two conditions that agree on every step of a reached world agree on whole runs. -/
theorem eachStep_iff {cond cond' : RunAction → RunWorld → Prop} (h : Initial w)
    {as : List RunAction}
    (hiff : ∀ {a w₁ w₂}, WorkKept w₁.shared → (machine settings).step a w₁ = some w₂ →
      (cond a w₁ ↔ cond' a w₁)) :
    (machine settings).EachStep cond as w ↔ (machine settings).EachStep cond' as w := by
  have hkept : ∀ pre a, pre ++ [a] <+: as → ∀ w', (machine settings).run pre w = some w' →
      WorkKept w'.shared :=
    fun pre a hpre w' hr =>
      (always_work (P := fun _ => True) h.workKept trivial (fun _ _ _ => trivial) pre
      ((List.prefix_append pre [a]).trans hpre) w' hr).1
  constructor
  · intro hc pre a hpre w₁ w₂ hr hs
    exact (hiff (hkept pre a hpre w₁ hr) hs).mp (hc pre a hpre w₁ w₂ hr hs)
  · intro hc pre a hpre w₁ w₂ hr hs
    exact (hiff (hkept pre a hpre w₁ hr) hs).mpr (hc pre a hpre w₁ w₂ hr hs)

/-- **Stale attempts leave a resumed run alone** exactly where none of them
commits while the run is queued or running. -/
theorem stale_leaves_iff (h : Initial w) (as : List RunAction) :
    (machine settings).EachStep (StaleLeaves settings) as w ↔
      (machine settings).EachStep FindsClosed as w :=
  eachStep_iff h fun hk hs => staleLeaves_iff hk hs

/-! ## An attempt that outlives its lease

The first attempt's heartbeats stop while its graph works on; the second
attempt has the run wait, the user resumes it, and the first attempt's outcome
comes in then. -/

namespace Sample

def createsIssue : RunAction :=
  .env (.createRun ⟨.ofNat 1, fun _ => .ok (.ofNat 2), .ofNat 5, run, job, 0⟩
    ⟨.ofNat 6, .ISSUE_CREATE, "open an issue", none⟩)

def reaps (now : Nat) : RunAction := .env (.reap 100 now [])

/-- What a worker is handed once the first lease has been reaped. -/
def handedAgain : Delivery where
  workerId := "worker"
  job := { (delivery 2 100000000).job with
    lastErrorCode := some "LEASE_EXPIRED", availableAt := 60000001 }

def answers (kind : RunGraphOutcomeKind) : Choice :=
  ⟨0, none, .ok ⟨kind, none, none, some [("request_payload_hash", .str "hash")]⟩, []⟩

/-- Prepared, taken through its graph with this answer, projected and completed. -/
def attempt (pid : Nat) (kind : RunGraphOutcomeKind) : List RunAction :=
  [.exec pid (answers kind), .exec pid (answers kind), .exec pid (answers kind),
    .exec pid (answers kind), .finish pid]

def confirms : RunAction :=
  .env (.resumeRun ⟨.ofNat 1, fun _ => .ok (.ofNat 2), .ofNat 5, run, .ofNat 7, 0⟩ run
    ⟨.CONFIRM, "hash"⟩)

def outlived : List RunAction :=
  [createsIssue, claims 0, .start (delivery 1 0) 0, .exec 0 (answers .SUCCEEDED), reaps 60000001,
    claims 100000000,
    .start handedAgain 1] ++ attempt 1 .WAITING_CONFIRMATION ++
      [confirms, .exec 0 (answers .SUCCEEDED)]

/-- The step is a stale attempt's, about this run, and writes its row. -/
def overwrites (a : RunAction) (w : RunWorld) : Bool :=
  (match w.procs 0 with
    | some (.stmt s _) => s.ofRun == some run
    | _ => false) &&
  (w.shared.prepared 0).any (fun prepared =>
    prepared.1 == run && prepared.2 < (accepted (w.shared.events run)).length) &&
  (((machine queue).step a w).any fun w' => w'.shared.runs run != w.shared.runs run)

theorem outlived_overwrites :
    ((machine queue).run outlived world).any (overwrites (.exec 0 (answers .SUCCEEDED))) =
      true := by
  decide +kernel

theorem not_staleLeaves {c : Choice} {w : RunWorld} (h : overwrites (.exec 0 c) w = true) :
    (∃ w', (machine queue).step (.exec 0 c) w = some w') ∧ ¬ StaleLeaves queue (.exec 0 c) w := by
  simp only [overwrites, Bool.and_eq_true] at h
  obtain ⟨⟨hstmt, hprepared⟩, hstep⟩ := h
  obtain ⟨w', hs, hne⟩ := (Option.any_eq_true _ _).mp hstep
  obtain ⟨⟨r, n⟩, hp, hlt⟩ := (Option.any_eq_true _ _).mp hprepared
  simp only [Bool.and_eq_true, beq_iff_eq, decide_eq_true_eq] at hlt
  obtain ⟨rfl, hlt⟩ := hlt
  refine ⟨⟨w', hs⟩, fun hleaves => ?_⟩
  split at hstmt
  · next s k hproc =>
    have hsame := hleaves w' hs 0 c s k run rfl hproc (beq_iff_eq.mp hstmt) ⟨n, hp, hlt⟩
    rw [hsame.1] at hne
    exact absurd hne (by simp)
  · cases hstmt

end Sample

/-- The resumed run ends with the stale attempt's outcome. -/
theorem stale_overwrites :
    Initial Sample.world ∧ ¬ (machine Sample.queue).EachStep (StaleLeaves Sample.queue)
    (Sample.outlived ++ [.exec 0 (Sample.answers .SUCCEEDED)]) Sample.world := by
  refine ⟨Sample.world_initial, fun hleaves => ?_⟩
  obtain ⟨w, hr, hover⟩ := (Option.any_eq_true _ _).mp Sample.outlived_overwrites
  obtain ⟨⟨w', hs⟩, hnot⟩ := Sample.not_staleLeaves hover
  exact hnot (hleaves Sample.outlived _ (List.prefix_refl _) w w' hr hs)

/-- So for the sample's run before the stale outcome comes in. -/
theorem stale_leaves_outlived :
    (machine Sample.queue).EachStep (StaleLeaves Sample.queue) Sample.outlived Sample.world ↔
      (machine Sample.queue).EachStep FindsClosed Sample.outlived Sample.world :=
  stale_leaves_iff Sample.world_initial Sample.outlived

end ProjectAgent.Runs
