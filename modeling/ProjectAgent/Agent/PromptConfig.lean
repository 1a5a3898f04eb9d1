/-
`PromptConfigService`, the cache of prompt configurations, and what its calls
return when any number of them is under way. A call of `get_snapshot` waits
once, for the repository: what it does before and after that is a step each,
and other calls, `invalidate`, changes of the table and time come between.

The world notes every state the table has had with its time, and what the
calls have returned.
-/
import Mathlib
import ProjectAgent.Agent.Calls

namespace ProjectAgent.Agent

/-! ## The repository -/

/-- A row of `system_configs`; its content is the string its value holds, if it holds one. -/
structure SystemConfig where
  configKey : String
  version : Nat
  enabled : Bool
  content : Option String
  contentHash : String

structure PromptConfigRecord where
  configKey : String
  content : String
  version : Nat
  contentHash : String

inductive PromptError where
  | lookupError (text : String)
  | valueError (text : String)
  | keyError

/-- `latest_enabled`. -/
def latestEnabled (rows : List SystemConfig) (configKey : String) :
    Except PromptError PromptConfigRecord :=
  match ((rows.filter fun row => row.configKey = configKey ∧ row.enabled).insertionSort fun a b =>
      b.version ≤ a.version).head? with
  | none => .error (.lookupError ("no enabled prompt config: " ++ configKey))
  | some row =>
    match row.content.filter (· ≠ "") with
    | none => .error (.valueError ("prompt config " ++ configKey ++ " is missing string content"))
    | some content => .ok ⟨row.configKey, content, row.version, row.contentHash⟩

theorem latestEnabled_key {rows : List SystemConfig} {configKey : String}
    {record : PromptConfigRecord} (h : latestEnabled rows configKey = .ok record) :
    record.configKey = configKey := by
  unfold latestEnabled at h
  split at h
  · cases h
  · next row hhead =>
    have hmem := List.mem_of_mem_head? hhead
    simp only [List.mem_insertionSort, List.mem_filter, decide_eq_true_eq] at hmem
    split at h
    · cases h
    · cases h
      exact hmem.2.1

theorem latestEnabled_known {rows : List SystemConfig} {configKey : String} {e : PromptError}
    (h : latestEnabled rows configKey = .error e) : e ≠ .keyError := by
  unfold latestEnabled at h
  split at h
  · cases h
    exact fun heq => by cases heq
  · split at h
    · cases h
      exact fun heq => by cases heq
    · cases h

/-! ## The service -/

structure PromptConfigService where
  ttl : ℚ
  ttl_nonneg : 0 ≤ ttl

structure PromptCache where
  cache : String × Nat → Option PromptSnapshot
  /-- When the version was read, and which it is. -/
  latest : String → Option (ℚ × Nat)

namespace PromptCache

def empty : PromptCache := ⟨fun _ => none, fun _ => none⟩

/-- `get_snapshot`, up to where it waits: what it returns without waiting. -/
def lookUp (service : PromptConfigService) (c : PromptCache) (configKey : String) (now : ℚ) :
    Option (Except PromptError PromptSnapshot) :=
  match c.latest configKey with
  | none => none
  | some (readAt, version) =>
    if now - readAt ≤ service.ttl then
      match c.cache (configKey, version) with
      | some cached => some (.ok cached)
      | none => some (.error .keyError)
    else none

/-- The snapshot of a record: the one that is kept of its version, or a new one. -/
def snapshotOf (c : PromptCache) (record : PromptConfigRecord) : PromptSnapshot :=
  (c.cache (record.configKey, record.version)).getD ⟨record.configKey, record.content,
    record.version, record.contentHash⟩

/-- The rest of `get_snapshot`, from the record on. -/
def keep (c : PromptCache) (configKey : String) (now : ℚ) (record : PromptConfigRecord) :
    PromptCache where
  cache := Function.update c.cache (record.configKey, record.version) (some (c.snapshotOf record))
  latest := Function.update c.latest configKey (some (now, record.version))

def invalidate (c : PromptCache) : Option String → PromptCache
  | none => .empty
  | some configKey =>
    ⟨fun key => if key.1 = configKey then none
      else c.cache key, Function.update c.latest configKey none⟩

end PromptCache

/-! ## Calls under way -/

/-- Where a call of `get_snapshot` waits: it has read the clock, and then its record. -/
inductive PromptCall where
  | reading (configKey : String) (now : ℚ)
  | read (configKey : String) (now : ℚ) (record : PromptConfigRecord)

structure PromptReturn where
  configKey : String
  startedAt : ℚ
  result : Except PromptError PromptSnapshot

structure PromptWorld where
  now : ℚ
  rows : List SystemConfig
  cached : PromptCache
  calls : Nat → Option PromptCall
  seen : List (ℚ × List SystemConfig)
  returned : List PromptReturn

namespace PromptWorld

def returns (w : PromptWorld) (configKey : String) (startedAt : ℚ)
    (result : Except PromptError PromptSnapshot) : PromptWorld :=
  { w with returned := ⟨configKey, startedAt, result⟩ :: w.returned }

def setCall (w : PromptWorld) (pid : Nat) (call : Option PromptCall) : PromptWorld :=
  { w with calls := Function.update w.calls pid call }

/-- No call has been made. -/
structure Initial (w : PromptWorld) : Prop where
  cached : w.cached = .empty
  calls : ∀ pid, w.calls pid = none
  seen : w.seen = [(w.now, w.rows)]
  returned : w.returned = []

end PromptWorld

open PromptWorld

inductive PromptStep (service : PromptConfigService) (w : PromptWorld) : PromptWorld → Prop where
  | tick (now : ℚ) (later : w.now ≤ now) : PromptStep service w { w with
      now := now, seen := (now, w.rows) :: w.seen }
  | write (rows : List SystemConfig) : PromptStep service w { w with
      rows := rows, seen := (w.now, rows) :: w.seen }
  | invalidate (configKey : Option String) : PromptStep service w { w with
      cached := w.cached.invalidate configKey }
  | hit (configKey : String) (result : Except PromptError PromptSnapshot)
      (found : w.cached.lookUp service configKey w.now = some result) :
        PromptStep service w (w.returns configKey w.now result)
  | miss (pid : Nat) (configKey : String) (idle : w.calls pid = none)
      (notFound : w.cached.lookUp service configKey w.now = none) :
      PromptStep service w (w.setCall pid (some (.reading configKey w.now)))
  | read (pid : Nat) (configKey : String) (now : ℚ) (record : PromptConfigRecord)
      (call : w.calls pid = some (.reading configKey now))
      (latest : latestEnabled w.rows configKey = .ok record) :
        PromptStep service w (w.setCall pid (some (.read configKey now record)))
  | fail (pid : Nat) (configKey : String) (now : ℚ) (e : PromptError)
      (call : w.calls pid = some (.reading configKey now))
      (missing : latestEnabled w.rows configKey = .error e) :
      PromptStep service w ((w.setCall pid none).returns configKey now (.error e))
  | resume (pid : Nat) (configKey : String) (now : ℚ) (record : PromptConfigRecord)
      (call : w.calls pid = some (.read configKey now record)) :
      PromptStep service w ({ w with
        cached := w.cached.keep configKey now record }.setCall pid none |>.returns configKey now
        (.ok (w.cached.snapshotOf record)))
  /-- The call's task is cancelled where it waits. -/
  | cancel (pid : Nat) : PromptStep service w (w.setCall pid none)

/-! ## What the calls return -/

namespace PromptWorld

/-- The record was the latest enabled one of its key at this time or later. -/
def LatestSince (w : PromptWorld) (since : ℚ) (configKey : String)
    (record : PromptConfigRecord) : Prop :=
  ∃ moment ∈ w.seen, since ≤ moment.1 ∧ latestEnabled moment.2 configKey = .ok record

/-- The version was the latest enabled one of its key at this time or later. -/
def VersionSince (w : PromptWorld) (since : ℚ) (configKey : String) (version : Nat) : Prop :=
  ∃ record, w.LatestSince since configKey record ∧ record.version = version

/-- The snapshot is of a record that was the latest enabled one once. -/
def Recorded (w : PromptWorld) (configKey : String) (snapshot : PromptSnapshot) : Prop :=
  ∃ moment ∈ w.seen, ∃ record, latestEnabled moment.2 configKey = .ok record ∧
    snapshot = ⟨record.configKey, record.content, record.version, record.contentHash⟩

/-- What a call returns: no `KeyError`, and a snapshot whose version was the latest enabled one of
the key at a time that is not longer than the ttl before the call. -/
def Served (service : PromptConfigService) (w : PromptWorld) (r : PromptReturn) : Prop :=
  match r.result with
  | .ok snapshot =>
    w.VersionSince (r.startedAt - service.ttl) r.configKey snapshot.version ∧
      w.Recorded r.configKey snapshot
  | .error e => e ≠ .keyError

/-- What a call knows where it waits. -/
def CallOk (w : PromptWorld) : PromptCall → Prop
  | .reading _ now => now ≤ w.now
  | .read configKey now record => w.LatestSince now configKey record

structure Inv (service : PromptConfigService) (w : PromptWorld) : Prop where
  current : (w.now, w.rows) ∈ w.seen
  cache : ∀ configKey version snapshot, w.cached.cache (configKey, version) = some snapshot →
    snapshot.version = version ∧ w.Recorded configKey snapshot
  latest : ∀ configKey readAt version, w.cached.latest configKey = some (readAt, version) →
    (w.cached.cache (configKey, version)).isSome ∧ w.VersionSince readAt configKey version
  calls : ∀ pid call, w.calls pid = some call → w.CallOk call
  served : ∀ r ∈ w.returned, w.Served service r

variable {service : PromptConfigService} {w w' : PromptWorld}

theorem LatestSince.mono {since since' : ℚ} {configKey : String} {record : PromptConfigRecord}
    (h : w.LatestSince since configKey record) (hseen : w.seen ⊆ w'.seen) (hle : since' ≤ since) :
    w'.LatestSince since' configKey record := by
  obtain ⟨moment, hmem, hsince, hlatest⟩ := h
  exact ⟨moment, hseen hmem, hle.trans hsince, hlatest⟩

theorem VersionSince.mono {since since' : ℚ} {configKey : String} {version : Nat}
    (h : w.VersionSince since configKey version) (hseen : w.seen ⊆ w'.seen) (hle : since' ≤ since) :
    w'.VersionSince since' configKey version := by
  obtain ⟨record, hlatest, hversion⟩ := h
  exact ⟨record, hlatest.mono hseen hle, hversion⟩

theorem Recorded.mono {configKey : String} {snapshot : PromptSnapshot}
    (h : w.Recorded configKey snapshot) (hseen : w.seen ⊆ w'.seen) :
    w'.Recorded configKey snapshot := by
  obtain ⟨moment, hmem, hrecord⟩ := h
  exact ⟨moment, hseen hmem, hrecord⟩

theorem Served.mono {r : PromptReturn} (h : w.Served service r) (hseen : w.seen ⊆ w'.seen) :
    w'.Served service r := by
  unfold Served at h ⊢
  split at h
  · exact ⟨h.1.mono hseen le_rfl, h.2.mono hseen⟩
  · exact h

theorem CallOk.mono {call : PromptCall} (h : w.CallOk call) (hseen : w.seen ⊆ w'.seen)
    (hnow : w.now ≤ w'.now) :
    w'.CallOk call := by
  cases call with
  | reading configKey now => exact le_trans (show now ≤ w.now from h) hnow
  | read configKey now record => exact LatestSince.mono h hseen le_rfl

/-- What is cached within the ttl is served. -/
theorem Inv.hit (hi : w.Inv service) {configKey : String}
    {result : Except PromptError PromptSnapshot}
    (h : w.cached.lookUp service configKey w.now = some result) :
    w.Served service ⟨configKey, w.now, result⟩ := by
  unfold PromptCache.lookUp at h
  split at h
  · cases h
  · next readAt version hlatest =>
    obtain ⟨hsome, hsince⟩ := hi.latest configKey readAt version hlatest
    by_cases hle : w.now - readAt ≤ service.ttl
    · rw [if_pos hle] at h
      split at h
      · next cached hcached =>
        cases h
        obtain ⟨hversion, hrecorded⟩ := hi.cache configKey version cached hcached
        refine ⟨?_, hrecorded⟩
        rw [hversion]
        exact hsince.mono (List.Subset.refl _) (by linarith)
      · next hnone =>
        rw [hnone] at hsome
        cases hsome
    · rw [if_neg hle] at h
      cases h

/-- The snapshot of a record that has been read is of its version, and recorded. -/
theorem Inv.snapshotOf (hi : w.Inv service) {since : ℚ} {configKey : String}
    {record : PromptConfigRecord} (h : w.LatestSince since configKey record) :
    (w.cached.snapshotOf record).version = record.version ∧
      w.Recorded record.configKey (w.cached.snapshotOf record) := by
  unfold PromptCache.snapshotOf
  cases hcached : w.cached.cache (record.configKey, record.version) with
  | some snapshot => exact hi.cache _ _ _ hcached
  | none =>
    obtain ⟨moment, hmem, -, hlatest⟩ := h
    refine ⟨rfl, moment, hmem, record, ?_, rfl⟩
    rw [latestEnabled_key hlatest]
    exact hlatest

/-! ## Steps -/

theorem Inv.grown (hi : w.Inv service) (hcached : w'.cached = w.cached)
    (hcalls : w'.calls = w.calls) (hreturned : w'.returned = w.returned) (hseen : w.seen ⊆ w'.seen)
    (hnow : w.now ≤ w'.now) (hcurrent : (w'.now, w'.rows) ∈ w'.seen) : w'.Inv service where
  current := hcurrent
  cache configKey version snapshot h := by
    rw [hcached] at h
    exact (hi.cache configKey version snapshot h).imp_right (·.mono hseen)
  latest configKey readAt version h := by
    rw [hcached] at h ⊢
    exact (hi.latest configKey readAt version h).imp_right (·.mono hseen le_rfl)
  calls pid call h := by
    rw [hcalls] at h
    exact (hi.calls pid call h).mono hseen hnow
  served r h := by
    rw [hreturned] at h
    exact (hi.served r h).mono hseen

theorem Inv.setCall (hi : w.Inv service) {pid : Nat} {call : Option PromptCall}
    (h : ∀ c, call = some c → w.CallOk c) :
    (w.setCall pid call).Inv service where
  current := hi.current
  cache := hi.cache
  latest := hi.latest
  calls q c hq := by
    simp only [PromptWorld.setCall] at hq
    by_cases hqp : q = pid
    · subst hqp
      rw [Function.update_self] at hq
      exact h c hq
    · rw [Function.update_of_ne hqp] at hq
      exact hi.calls q c hq
  served := hi.served

theorem Inv.returns (hi : w.Inv service) {configKey : String} {startedAt : ℚ}
    {result : Except PromptError PromptSnapshot}
    (h : w.Served service ⟨configKey, startedAt, result⟩) :
    (w.returns configKey startedAt result).Inv service where
  current := hi.current
  cache := hi.cache
  latest := hi.latest
  calls := hi.calls
  served r hr := by
    rcases List.mem_cons.mp hr with heq | hr
    · rw [heq]
      exact h
    · exact hi.served r hr

/-- What is forgotten of a key is forgotten of its latest version and of all its snapshots. -/
theorem Inv.invalidate (hi : w.Inv service) (configKey : Option String) :
    Inv service { w with cached := w.cached.invalidate configKey } where
  current := hi.current
  cache key version snapshot h := by
    cases configKey with
    | none => cases h
    | some gone =>
      simp only [PromptCache.invalidate] at h
      by_cases hgone : key = gone
      · rw [if_pos hgone] at h
        cases h
      · rw [if_neg hgone] at h
        exact hi.cache key version snapshot h
  latest key readAt version h := by
    cases configKey with
    | none => cases h
    | some gone =>
      simp only [PromptCache.invalidate] at h ⊢
      by_cases hgone : key = gone
      · rw [hgone, Function.update_self] at h
        cases h
      · rw [Function.update_of_ne hgone] at h
        rw [if_neg hgone]
        exact hi.latest key readAt version h
  calls := hi.calls
  served := hi.served

theorem Inv.keep (hi : w.Inv service) {configKey : String} {now : ℚ} {record : PromptConfigRecord}
    (h : w.LatestSince now configKey record) :
    Inv service { w with cached := w.cached.keep configKey now record } where
  current := hi.current
  cache key version snapshot hcached := by
    simp only [PromptCache.keep] at hcached
    by_cases hkey : (key, version) = (record.configKey, record.version)
    · rw [hkey, Function.update_self] at hcached
      obtain ⟨rfl, rfl⟩ := Prod.mk.inj hkey
      cases hcached
      exact hi.snapshotOf h
    · rw [Function.update_of_ne hkey] at hcached
      exact hi.cache key version snapshot hcached
  latest key readAt version hlatest := by
    have hrecord : record.configKey = configKey := by
      obtain ⟨moment, -, -, hmoment⟩ := h
      exact latestEnabled_key hmoment
    simp only [PromptCache.keep] at hlatest ⊢
    by_cases hkey : key = configKey
    · rw [hkey, Function.update_self] at hlatest
      cases hlatest
      rw [hkey, hrecord, Function.update_self]
      exact ⟨rfl, record, h, rfl⟩
    · rw [Function.update_of_ne hkey] at hlatest
      rw [Function.update_of_ne (fun heq => hkey ((Prod.mk.inj heq).1.trans hrecord))]
      exact hi.latest key readAt version hlatest
  calls := hi.calls
  served := hi.served

theorem Inv.step (hi : w.Inv service) (h : PromptStep service w w') : w'.Inv service := by
  cases h with
  | tick now later =>
    exact hi.grown rfl rfl rfl (List.subset_cons_self _ _) later List.mem_cons_self
  | write rows => exact hi.grown rfl rfl rfl (List.subset_cons_self _ _) le_rfl List.mem_cons_self
  | invalidate configKey => exact hi.invalidate configKey
  | hit configKey result found => exact hi.returns (hi.hit found)
  | miss pid configKey idle notFound =>
    refine hi.setCall fun c hc => ?_
    cases hc
    exact le_refl w.now
  | read pid configKey now record call latest =>
    have hnow : now ≤ w.now := hi.calls pid _ call
    refine hi.setCall fun c hc => ?_
    cases hc
    exact ⟨_, hi.current, hnow, latest⟩
  | fail pid configKey now e call missing =>
    have hidle : (w.setCall pid none).Inv service := hi.setCall fun c hc => by cases hc
    exact hidle.returns (latestEnabled_known missing)
  | resume pid configKey now record call =>
    have hlatest : w.LatestSince now configKey record := hi.calls pid _ call
    have hidle : (PromptWorld.setCall { w with
        cached := w.cached.keep configKey now record } pid none).Inv service :=
      (hi.keep hlatest).setCall fun c hc => by cases hc
    refine hidle.returns ?_
    obtain ⟨hversion, hrecorded⟩ := hi.snapshotOf hlatest
    have hrecord : record.configKey = configKey := by
      obtain ⟨moment, -, -, hmoment⟩ := hlatest
      exact latestEnabled_key hmoment
    have hsince : w.VersionSince (now - service.ttl) configKey
        (w.cached.snapshotOf record).version :=
      ⟨record, hlatest.mono (List.Subset.refl _) (sub_le_self now service.ttl_nonneg),
        hversion.symm⟩
    exact ⟨hsince, hrecord ▸ hrecorded⟩
  | cancel pid => exact hi.setCall fun c hc => by cases hc

theorem Initial.inv (h : w.Initial) : w.Inv service where
  current := by simp [h.seen]
  cache configKey version snapshot hcached := by
    rw [h.cached] at hcached
    cases hcached
  latest configKey readAt version hlatest := by
    rw [h.cached] at hlatest
    cases hlatest
  calls pid call hcall := by
    rw [h.calls] at hcall
    cases hcall
  served r hr := by simp [h.returned] at hr

end PromptWorld

/-- **What `get_snapshot` returns.** However its calls, changes of the table, `invalidate` and time
come one after another, no call ends with a `KeyError`, and a call returns a version that was the
latest enabled one of its key no longer than the ttl before the call, with what was read of that
version once. -/
theorem snapshots_fresh {service : PromptConfigService} {w w' : PromptWorld} (h : w.Initial)
    (hr : Relation.ReflTransGen (PromptStep service) w w') :
    ∀ r ∈ w'.returned, w'.Served service r := by
  have hinv : w'.Inv service := by
    induction hr with
    | refl => exact h.inv
    | tail _ hstep ih => exact ih.step hstep
  exact hinv.served

namespace Sample

theorem ttl_nonneg : (0 : ℚ) ≤ 30 := by norm_num

def promptService : PromptConfigService := ⟨30, ttl_nonneg⟩

def promptRow (version : Nat) : SystemConfig :=
  ⟨"qa", version, true, some "Answer from the evidence.", "digest"⟩

def promptRead (version : Nat) : PromptConfigRecord :=
  ⟨"qa", "Answer from the evidence.", version, "digest"⟩

def promptWorld : PromptWorld := ⟨0, [promptRow 1], .empty, fun _ => none, [(0, [promptRow 1])], []⟩

def promptShown : PromptSnapshot := ⟨"qa", "Answer from the evidence.", 1, "digest"⟩

theorem latestEnabled_first : latestEnabled [promptRow 1] "qa" = .ok (promptRead 1) := by
  simp [latestEnabled, promptRow, promptRead, Option.filter]

theorem latestEnabled_second :
    latestEnabled [promptRow 2, promptRow 1] "qa" = .ok (promptRead 2) := by
  simp [latestEnabled, promptRow, promptRead, Option.filter]

theorem lookUp_kept :
    (PromptCache.empty.keep "qa" 0 (promptRead 1)).lookUp promptService "qa" 0 =
      some (.ok promptShown) := by
  simp [PromptCache.lookUp, PromptCache.keep, PromptCache.snapshotOf, PromptCache.empty,
    promptService, promptRead, promptShown]

end Sample

/-- A version is published while a call waits that has read the one before, and the next call finds
that one cached. -/
theorem snapshots_fresh_stale :
    ∃ w, Relation.ReflTransGen (PromptStep Sample.promptService) Sample.promptWorld w ∧
    w.returned = [⟨"qa", 0, .ok Sample.promptShown⟩, ⟨"qa", 0, .ok Sample.promptShown⟩] ∧
    latestEnabled w.rows "qa" = .ok (Sample.promptRead 2) ∧
      ∀ r ∈ w.returned, w.Served Sample.promptService r := by
  have hinitial : Sample.promptWorld.Initial := ⟨rfl, fun _ => rfl, rfl, rfl⟩
  have hmiss := @PromptStep.miss Sample.promptService Sample.promptWorld 0 "qa" rfl rfl
  have hread := (Relation.ReflTransGen.single hmiss).tail
    (.read 0 "qa" 0 (Sample.promptRead 1) rfl Sample.latestEnabled_first)
  have hwrite := hread.tail (.write [Sample.promptRow 2, Sample.promptRow 1])
  have hresume := hwrite.tail (.resume 0 "qa" 0 (Sample.promptRead 1) rfl)
  have hhit := hresume.tail (.hit "qa" (.ok Sample.promptShown) Sample.lookUp_kept)
  exact ⟨_, hhit, rfl, Sample.latestEnabled_second, snapshots_fresh hinitial hhit⟩

end ProjectAgent.Agent
