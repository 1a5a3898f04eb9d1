/-
`TokenBucket` over exact rationals, shared by callers of `acquire`. What a caller
does under the lock it does at once; it reads the clock when it is called, when
the bucket is refilled, and when it compares its wait with what is left of its
time. A clock may jump back.
-/
import Mathlib.Algebra.BigOperators.Group.List.Basic
import Mathlib.Algebra.Order.Field.Rat
import Mathlib.Logic.Function.Basic
import Mathlib.Tactic.Linarith

namespace ProjectAgent.Workers

structure TokenBucket where
  capacity : ℚ
  refillRate : ℚ
  tokens : ℚ
  updatedAt : ℚ
  capacity_pos : 0 < capacity
  refillRate_pos : 0 < refillRate

namespace TokenBucket

/-- `TokenBucket(...)`, when neither number is refused. -/
def new (capacity refillRate now : ℚ) (hcapacity : 0 < capacity) (hrate : 0 < refillRate) :
    TokenBucket :=
  ⟨capacity, refillRate, capacity, now, hcapacity, hrate⟩

/-- `_refill`. -/
def refill (bucket : TokenBucket) (now : ℚ) : TokenBucket :=
  let elapsed := max 0 (now - bucket.updatedAt)
  if elapsed = 0 then bucket
  else { bucket with
    tokens := min bucket.capacity (bucket.tokens + elapsed * bucket.refillRate), updatedAt := now }

def take (bucket : TokenBucket) (amount : ℚ) : TokenBucket :=
  { bucket with tokens := bucket.tokens - amount }

inductive Verdict where
  | granted
  | timedOut
  | wait (seconds : ℚ)
deriving DecidableEq

/-- What is done under the lock; the clock is read for the refill and for the time that is left. -/
def attempt (bucket : TokenBucket) (amount deadline now now' : ℚ) : TokenBucket × Verdict :=
  let bucket := bucket.refill now
  if amount ≤ bucket.tokens then (bucket.take amount, .granted)
  else
    let waitFor := (amount - bucket.tokens) / bucket.refillRate
    if deadline - now' < waitFor then (bucket, .timedOut) else (bucket, .wait waitFor)

/-! ## What a refill and an attempt do -/

variable {bucket bucket' : TokenBucket} {amount deadline now now' : ℚ} {verdict : Verdict}

theorem refill_capacity : (bucket.refill now).capacity = bucket.capacity := by
  unfold refill
  dsimp only
  split <;> rfl

theorem refill_refillRate : (bucket.refill now).refillRate = bucket.refillRate := by
  unfold refill
  dsimp only
  split <;> rfl

/-- A clock that has not gone back is the time of the refill. -/
theorem refill_updatedAt (h : bucket.updatedAt ≤ now) : (bucket.refill now).updatedAt = now := by
  unfold refill
  dsimp only
  split
  · next hnone =>
    have hle : now - bucket.updatedAt ≤ 0 := hnone ▸ le_max_right _ _
    linarith
  · rfl

theorem refill_tokens (h : bucket.updatedAt ≤ now) (hfull : bucket.tokens ≤ bucket.capacity) :
    (bucket.refill now).tokens = min bucket.capacity (bucket.tokens + (now - bucket.updatedAt) *
      bucket.refillRate) := by
  have helapsed : max 0 (now - bucket.updatedAt) = now - bucket.updatedAt :=
    max_eq_right (by linarith)
  unfold refill
  dsimp only
  rw [helapsed]
  split
  · next hnone => rw [hnone, zero_mul, add_zero, min_eq_right hfull]
  · rfl

/-- What is under the lock: a refill, and then a grant or nothing. -/
theorem attempt_cases (h : bucket.attempt amount deadline now now' = (bucket', verdict)) :
    (verdict = .granted ∧ amount ≤ (bucket.refill now).tokens ∧
      bucket' = (bucket.refill now).take amount) ∨
      (bucket' = bucket.refill now ∧
        (verdict = .timedOut ∨ ∃ seconds, verdict = .wait seconds ∧ 0 < seconds ∧
      seconds ≤ deadline - now')) := by
  unfold attempt at h
  dsimp only at h
  split at h
  · next hfits =>
    cases h
    exact .inl ⟨rfl, hfits, rfl⟩
  · next hshort =>
    split at h
    · cases h
      exact .inr ⟨rfl, .inl rfl⟩
    · next htime =>
      cases h
      refine .inr ⟨rfl, .inr ⟨_, rfl, div_pos ?_ (bucket.refill now).refillRate_pos,
        not_lt.mp htime⟩⟩
      linarith

theorem attempt_constants (h : bucket.attempt amount deadline now now' = (bucket', verdict)) :
    bucket'.capacity = bucket.capacity ∧ bucket'.refillRate = bucket.refillRate := by
  rcases attempt_cases h with ⟨-, -, rfl⟩ | ⟨rfl, -⟩ <;> exact ⟨refill_capacity, refill_refillRate⟩

/-- The tokens are between none and the capacity. -/
def Bounded (bucket : TokenBucket) : Prop := 0 ≤ bucket.tokens ∧ bucket.tokens ≤ bucket.capacity

theorem Bounded.refill (h : bucket.Bounded) : (bucket.refill now).Bounded := by
  have hpositive : 0 ≤ max 0 (now - bucket.updatedAt) * bucket.refillRate :=
    mul_nonneg (le_max_left _ _) bucket.refillRate_pos.le
  unfold TokenBucket.refill
  dsimp only
  split
  · exact h
  · exact ⟨le_min bucket.capacity_pos.le (add_nonneg h.1 hpositive), min_le_left _ _⟩

theorem Bounded.attempt (h : bucket.Bounded) (hamount : 0 < amount)
    (hattempt : bucket.attempt amount deadline now now' = (bucket', verdict)) :
    bucket'.Bounded := by
  rcases attempt_cases hattempt with ⟨-, hfits, rfl⟩ | ⟨rfl, -⟩
  · have hfull : (bucket.refill now).tokens ≤ (bucket.refill now).capacity := h.refill.2
    unfold Bounded take
    dsimp only
    exact ⟨by linarith, by linarith⟩
  · exact h.refill

end TokenBucket

/-! ## What is granted -/

structure Grant where
  caller : Nat
  time : ℚ
  amount : ℚ

/-- The amounts that were granted in an interval, and from a time on. -/
def grantedIn (grants : List Grant) (start stop : ℚ) : ℚ :=
  ((grants.filter fun grant => start ≤ grant.time ∧ grant.time ≤ stop).map Grant.amount).sum

def grantedSince (grants : List Grant) (start : ℚ) : ℚ :=
  ((grants.filter fun grant => start ≤ grant.time).map Grant.amount).sum

variable {grants : List Grant} {grant : Grant} {start stop : ℚ}

theorem grantedSince_append : grantedSince (grants ++ [grant]) start =
    grantedSince grants start + if start ≤ grant.time then grant.amount else 0 := by
  unfold grantedSince
  rw [List.filter_append, List.map_append, List.sum_append]
  congr 1
  split
  · next h => simp [h]
  · next h => simp [h]

theorem grantedIn_append : grantedIn (grants ++ [grant]) start stop =
    grantedIn grants start stop + if start ≤ grant.time ∧ grant.time ≤ stop then grant.amount
      else 0 := by
  unfold grantedIn
  rw [List.filter_append, List.map_append, List.sum_append]
  congr 1
  split
  · next h => simp [h]
  · next h => simp [h]

theorem grantedSince_eq_zero (h : ∀ grant ∈ grants, grant.time < start) :
    grantedSince grants start = 0 := by
  have hnone : grants.filter (fun grant => start ≤ grant.time) = [] :=
    List.filter_eq_nil_iff.mpr fun grant hgrant => by simpa using h grant hgrant
  unfold grantedSince
  rw [hnone, List.map_nil, List.sum_nil]

theorem grantedIn_eq_since (h : ∀ grant ∈ grants, grant.time ≤ stop) :
    grantedIn grants start stop = grantedSince grants start := by
  have hsame : grants.filter (fun grant => start ≤ grant.time ∧ grant.time ≤ stop) =
      grants.filter fun grant => start ≤ grant.time :=
    List.filter_congr fun grant hgrant => by simp [h grant hgrant]
  unfold grantedIn grantedSince
  rw [hsame]

/-- What the grants of a bucket are, by a clock that does not go back: they lie in the past, what
was granted since a time and what is left is what the bucket held and was refilled with, and so in
no interval more was granted than that. -/
structure Metered (bucket : TokenBucket) (grants : List Grant) : Prop where
  bounded : bucket.Bounded
  past : ∀ grant ∈ grants, grant.time ≤ bucket.updatedAt
  amortised : ∀ start, start ≤ bucket.updatedAt →
    bucket.tokens + grantedSince grants start ≤ bucket.capacity + bucket.refillRate *
      (bucket.updatedAt - start)
  interval : ∀ start stop, start ≤ stop →
    grantedIn grants start stop ≤ bucket.capacity + bucket.refillRate * (stop - start)

variable {bucket bucket' : TokenBucket} {amount now : ℚ} {caller : Nat}

theorem Metered.new {capacity refillRate : ℚ} (hcapacity : 0 < capacity) (hrate : 0 < refillRate) :
    Metered (.new capacity refillRate now hcapacity hrate) [] where
  bounded := ⟨hcapacity.le, le_rfl⟩
  past := fun _ h => (nomatch h)
  amortised start h := by
    have hrefill : 0 ≤ refillRate * (now - start) := mul_nonneg hrate.le (sub_nonneg.mpr h)
    show capacity + 0 ≤ capacity + refillRate * (now - start)
    linarith
  interval start stop h := by
    have hrefill : 0 ≤ refillRate * (stop - start) := mul_nonneg hrate.le (sub_nonneg.mpr h)
    show 0 ≤ capacity + refillRate * (stop - start)
    linarith

theorem Metered.refill (h : Metered bucket grants) (hnow : bucket.updatedAt ≤ now) :
    Metered (bucket.refill now) grants where
  bounded := h.bounded.refill
  past grant hgrant := by
    rw [TokenBucket.refill_updatedAt hnow]
    exact (h.past grant hgrant).trans hnow
  amortised start hstart := by
    rw [TokenBucket.refill_updatedAt hnow] at hstart ⊢
    rw [TokenBucket.refill_tokens hnow h.bounded.2, TokenBucket.refill_capacity,
      TokenBucket.refill_refillRate]
    rcases le_or_gt start bucket.updatedAt with hpast | hafter
    · have hbefore := h.amortised start hpast
      have hmin := min_le_right bucket.capacity (bucket.tokens + (now - bucket.updatedAt) *
        bucket.refillRate)
      linarith
    · have hnone : grantedSince grants start = 0 :=
        grantedSince_eq_zero fun grant hgrant => (h.past grant hgrant).trans_lt hafter
      have hmin := min_le_left bucket.capacity (bucket.tokens + (now - bucket.updatedAt) *
        bucket.refillRate)
      have hrefill : 0 ≤ bucket.refillRate * (now - start) :=
        mul_nonneg bucket.refillRate_pos.le (sub_nonneg.mpr hstart)
      rw [hnone]
      linarith
  interval := by
    rw [TokenBucket.refill_capacity, TokenBucket.refill_refillRate]
    exact h.interval

/-- **A grant is counted once**: it is taken from what is left. -/
theorem Metered.take (h : Metered bucket grants) (hamount : 0 < amount)
    (hfits : amount ≤ bucket.tokens) :
    Metered (bucket.take amount) (grants ++ [⟨caller, bucket.updatedAt, amount⟩]) where
  bounded := by
    have hfull := h.bounded.2
    unfold TokenBucket.Bounded TokenBucket.take
    dsimp only
    exact ⟨by linarith, by linarith⟩
  past grant hgrant := by
    rcases List.mem_append.mp hgrant with hgrant | hgrant
    · exact h.past grant hgrant
    · exact (congrArg Grant.time (List.mem_singleton.mp hgrant)).le
  amortised start hstart := by
    have hpast : start ≤ bucket.updatedAt := hstart
    have hbefore := h.amortised start hpast
    rw [grantedSince_append]
    unfold TokenBucket.take
    dsimp only
    rw [if_pos hpast]
    linarith
  interval start stop hstop := by
    rw [grantedIn_append]
    show _ ≤ bucket.capacity + bucket.refillRate * (stop - start)
    split
    · next hin =>
      have hpast : ∀ grant ∈ grants, grant.time ≤ stop :=
        fun grant hgrant => (h.past grant hgrant).trans hin.2
      have hbefore := h.amortised start hin.1
      have hlater : bucket.refillRate * (bucket.updatedAt - start) ≤ bucket.refillRate *
          (stop - start) :=
        mul_le_mul_of_nonneg_left (by linarith [hin.2]) bucket.refillRate_pos.le
      rw [grantedIn_eq_since hpast]
      dsimp only
      linarith
    · rw [add_zero]
      exact h.interval start stop hstop

variable (caller) in
/-- An attempt grants what it takes, or only refills. -/
theorem Metered.attempt {deadline now' : ℚ} {verdict : TokenBucket.Verdict}
    (h : Metered bucket grants) (hnow : bucket.updatedAt ≤ now) (hamount : 0 < amount)
    (hattempt : bucket.attempt amount deadline now now' = (bucket', verdict)) :
    Metered bucket' (if verdict = .granted then grants ++ [⟨caller, now, amount⟩] else grants) ∧
      bucket'.updatedAt = now := by
  have hrefill := h.refill hnow
  have htime : (bucket.refill now).updatedAt = now := TokenBucket.refill_updatedAt hnow
  rcases TokenBucket.attempt_cases hattempt with ⟨rfl, hfits, rfl⟩ | ⟨rfl, rfl | ⟨seconds, rfl, -⟩⟩
  · have htaken : Metered ((bucket.refill now).take amount)
        (grants ++ [⟨caller, (bucket.refill now).updatedAt, amount⟩]) :=
      hrefill.take hamount hfits
    rw [htime] at htaken
    exact ⟨htaken, htime⟩
  · exact ⟨hrefill, htime⟩
  · exact ⟨hrefill, htime⟩

/-! ## Callers of one bucket -/

inductive Caller where
  | fresh
  | ready (amount deadline : ℚ)
  | asleep (amount deadline : ℚ)
  | returned
  | timedOut
  /-- The amount is above the capacity. -/
  | refused
  /-- `asyncio.CancelledError`, before the lock is there or in a sleep. -/
  | cancelled
deriving DecidableEq

/-- The call raised. -/
def Caller.failed : Caller → Prop
  | .timedOut | .refused | .cancelled => True
  | _ => False

structure Callers where
  bucket : TokenBucket
  callers : Nat → Caller
  grants : List Grant

def Callers.set (σ : Callers) (id : Nat) (caller : Caller) : Callers :=
  { σ with callers := Function.update σ.callers id caller }

/-- One step of one caller, and what it read from the clock. -/
inductive AcquireStep : Callers → List ℚ → Callers → Prop where
  | nothing {σ id amount} : σ.callers id = .fresh → amount ≤ 0 →
      AcquireStep σ [] (σ.set id .returned)
  | refuse {σ id amount} : σ.callers id = .fresh → 0 < amount → σ.bucket.capacity < amount →
      AcquireStep σ [] (σ.set id .refused)
  | call {σ id amount timeout now} : σ.callers id = .fresh → 0 < amount →
      amount ≤ σ.bucket.capacity →
      AcquireStep σ [now] (σ.set id (.ready amount (now + max 0 timeout)))
  | grant {σ id amount deadline now now' bucket} : σ.callers id = .ready amount deadline →
      σ.bucket.attempt amount deadline now now' = (bucket, .granted) →
      AcquireStep σ [now] { σ.set id .returned with
        bucket := bucket, grants := σ.grants ++ [⟨id, now, amount⟩] }
  | timeOut {σ id amount deadline now now' bucket} : σ.callers id = .ready amount deadline →
      σ.bucket.attempt amount deadline now now' = (bucket, .timedOut) →
      AcquireStep σ [now, now'] { σ.set id .timedOut with bucket := bucket }
  | sleep {σ id amount deadline now now' bucket seconds} : σ.callers id = .ready amount deadline →
      σ.bucket.attempt amount deadline now now' = (bucket, .wait seconds) →
      AcquireStep σ [now, now'] { σ.set id (.asleep amount deadline) with bucket := bucket }
  | wake {σ id amount deadline} : σ.callers id = .asleep amount deadline →
      AcquireStep σ [] (σ.set id (.ready amount deadline))
  | cancel {σ id amount deadline} : σ.callers id = .ready amount deadline ∨
      σ.callers id = .asleep amount deadline →
      AcquireStep σ [] (σ.set id .cancelled)

/-- The callers take their steps in some order; the readings of the clock, in order. -/
inductive AcquireRun (σ₀ : Callers) : List ℚ → Callers → Prop where
  | start : AcquireRun σ₀ [] σ₀
  | step {readings readings' σ σ'} : AcquireRun σ₀ readings σ → AcquireStep σ readings' σ' →
      AcquireRun σ₀ (readings ++ readings') σ'

/-- A bucket that nobody has called yet. -/
def newCallers (capacity refillRate now : ℚ) (hcapacity : 0 < capacity)
    (hrate : 0 < refillRate) : Callers :=
  ⟨.new capacity refillRate now hcapacity hrate, fun _ => .fresh, []⟩

/-- An amount that is waited for is positive, and only who returned was granted something. -/
structure Fair (σ : Callers) : Prop where
  bounded : σ.bucket.Bounded
  waiting : ∀ id amount deadline, σ.callers id = .ready amount deadline ∨
    σ.callers id = .asleep amount deadline → 0 < amount
  granted : ∀ grant ∈ σ.grants, σ.callers grant.caller = .returned

variable {σ σ' : Callers} {readings : List ℚ} {id : Nat} {caller : Caller}

theorem Fair.set (h : Fair σ) (hid : σ.callers id ≠ .returned)
    (hcaller : ∀ amount deadline, caller = .ready amount deadline ∨
      caller = .asleep amount deadline → 0 < amount) :
    Fair (σ.set id caller) where
  bounded := h.bounded
  waiting other amount deadline hother := by
    by_cases heq : other = id
    · subst heq
      have hself : (σ.set other caller).callers other = caller := Function.update_self _ _ _
      rw [hself] at hother
      exact hcaller amount deadline hother
    · have hsame : (σ.set id caller).callers other = σ.callers other :=
        Function.update_of_ne heq _ _
      rw [hsame] at hother
      exact h.waiting other amount deadline hother
  granted grant hgrant := by
    have hreturned := h.granted grant hgrant
    have hne : grant.caller ≠ id := fun heq => hid (heq ▸ hreturned)
    exact (Function.update_of_ne hne _ _).trans hreturned

theorem Fair.step (h : Fair σ) (hstep : AcquireStep σ readings σ') : Fair σ' := by
  cases hstep with
  | cancel hid =>
    refine h.set (fun hreturned => ?_) nofun
    rw [hreturned] at hid
    exact hid.elim nofun nofun
  | nothing hid _ => exact h.set (hid ▸ nofun) nofun
  | refuse hid _ _ => exact h.set (hid ▸ nofun) nofun
  | call hid hamount _ =>
    refine h.set (hid ▸ nofun) fun amount deadline hcaller => ?_
    rcases hcaller with hcaller | hcaller
    · cases hcaller
      exact hamount
    · cases hcaller
  | @grant id amount deadline now now' bucket hid hattempt =>
    have hset : Fair (σ.set id .returned) := h.set (hid ▸ nofun) nofun
    refine ⟨h.bounded.attempt (h.waiting id _ _ (.inl hid)) hattempt, hset.waiting,
      fun grant hgrant => ?_⟩
    rcases List.mem_append.mp hgrant with hgrant | hgrant
    · exact hset.granted grant hgrant
    · rw [List.mem_singleton.mp hgrant]
      exact Function.update_self _ _ _
  | @timeOut id amount deadline now now' bucket hid hattempt =>
    have hset : Fair (σ.set id .timedOut) := h.set (hid ▸ nofun) nofun
    exact ⟨h.bounded.attempt (h.waiting id _ _ (.inl hid)) hattempt, hset.waiting, hset.granted⟩
  | @sleep id amount deadline now now' bucket seconds hid hattempt =>
    have hpositive := h.waiting id amount deadline (.inl hid)
    have hset : Fair (σ.set id (.asleep amount deadline)) := by
      refine h.set (hid ▸ nofun) fun amount deadline hcaller => ?_
      rcases hcaller with hcaller | hcaller
      · cases hcaller
      · cases hcaller
        exact hpositive
    exact ⟨h.bounded.attempt hpositive hattempt, hset.waiting, hset.granted⟩
  | @wake id amount deadline hid =>
    refine h.set (hid ▸ nofun) fun amount' deadline' hcaller => ?_
    rcases hcaller with hcaller | hcaller
    · cases hcaller
      exact h.waiting id _ _ (.inr hid)
    · cases hcaller

/-- By a clock that does not go back. -/
theorem Metered.step {times : List ℚ} (h : Metered σ.bucket σ.grants) (hfair : Fair σ)
    (hupdated : σ.bucket.updatedAt ∈ times) (hmono : (times ++ readings).Pairwise (· ≤ ·))
    (hstep : AcquireStep σ readings σ') :
    Metered σ'.bucket σ'.grants ∧ σ'.bucket.updatedAt ∈ times ++ readings := by
  have hlater : ∀ now ∈ readings, σ.bucket.updatedAt ≤ now :=
    (List.pairwise_append.mp hmono).2.2 _ hupdated
  cases hstep with
  | nothing _ _ | refuse _ _ _ | call _ _ _ | wake _ | cancel _ =>
    exact ⟨h, List.mem_append_left _ hupdated⟩
  | @grant id amount deadline now now' bucket hid hattempt =>
    obtain ⟨hmetered, htime⟩ := h.attempt id (hlater now List.mem_cons_self)
      (hfair.waiting id _ _ (.inl hid)) hattempt
    refine ⟨hmetered, List.mem_append_right _ ?_⟩
    exact htime ▸ List.mem_cons_self
  | @timeOut id amount deadline now now' bucket hid hattempt =>
    obtain ⟨hmetered, htime⟩ := h.attempt id (hlater now List.mem_cons_self)
      (hfair.waiting id _ _ (.inl hid)) hattempt
    refine ⟨hmetered, List.mem_append_right _ ?_⟩
    exact htime ▸ List.mem_cons_self
  | @sleep id amount deadline now now' bucket seconds hid hattempt =>
    obtain ⟨hmetered, htime⟩ := h.attempt id (hlater now List.mem_cons_self)
      (hfair.waiting id _ _ (.inl hid)) hattempt
    refine ⟨hmetered, List.mem_append_right _ ?_⟩
    exact htime ▸ List.mem_cons_self

variable {capacity refillRate start : ℚ} {hcapacity : 0 < capacity} {hrate : 0 < refillRate}

theorem fair_run (h : AcquireRun (newCallers capacity refillRate start hcapacity hrate) readings σ)
    :
    Fair σ := by
  induction h with
  | start =>
    exact ⟨⟨hcapacity.le, le_rfl⟩, fun _ _ _ h => h.elim nofun nofun, fun _ h => (nomatch h)⟩
  | step _ hstep ih => exact ih.step hstep

theorem metered_run
    (h : AcquireRun (newCallers capacity refillRate start hcapacity hrate) readings σ)
    (hmono : (start :: readings).Pairwise (· ≤ ·)) :
    Metered σ.bucket σ.grants ∧ σ.bucket.updatedAt ∈ start :: readings := by
  induction h with
  | start => exact ⟨.new hcapacity hrate, List.mem_cons_self⟩
  | @step readings readings' σ σ' hrun hstep ih =>
    obtain ⟨hmetered, hupdated⟩ :=
      ih (hmono.sublist (List.sublist_append_left (start :: readings) readings'))
    exact hmetered.step (fair_run hrun) hupdated hmono hstep

theorem constants_step (hstep : AcquireStep σ readings σ') :
    σ'.bucket.capacity = σ.bucket.capacity ∧ σ'.bucket.refillRate = σ.bucket.refillRate := by
  cases hstep with
  | nothing _ _ | refuse _ _ _ | call _ _ _ | wake _ | cancel _ => exact ⟨rfl, rfl⟩
  | grant _ hattempt | timeOut _ hattempt | sleep _ hattempt =>
    exact TokenBucket.attempt_constants hattempt

theorem constants_run
    (h : AcquireRun (newCallers capacity refillRate start hcapacity hrate) readings σ) :
    σ.bucket.capacity = capacity ∧ σ.bucket.refillRate = refillRate := by
  induction h with
  | start => exact ⟨rfl, rfl⟩
  | step _ hstep ih =>
    obtain ⟨hcap, hrefill⟩ := constants_step hstep
    exact ⟨hcap.trans ih.1, hrefill.trans ih.2⟩

/-- **The bound of a bucket**: its tokens are between none and the capacity, whatever its clock
does; by a clock that does not go back no more is granted in an interval than the capacity and what
is refilled in it; and a call that fails is granted nothing. -/
theorem bucket_bounded
    (h : AcquireRun (newCallers capacity refillRate start hcapacity hrate) readings σ) :
    (0 ≤ σ.bucket.tokens ∧ σ.bucket.tokens ≤ capacity) ∧
      ((start :: readings).Pairwise (· ≤ ·) → ∀ first length, 0 ≤ length →
        grantedIn σ.grants first (first + length) ≤ capacity + refillRate * length) ∧
      ∀ id, (σ.callers id).failed → ∀ grant ∈ σ.grants, grant.caller ≠ id := by
  obtain ⟨hcap, hrefill⟩ := constants_run h
  refine ⟨?_, fun hmono first length hlength => ?_, fun id hfailed grant hgrant heq => ?_⟩
  · have hbounded := (fair_run h).bounded
    rwa [TokenBucket.Bounded, hcap] at hbounded
  · have hinterval := (metered_run h hmono).1.interval first (first + length)
      (le_add_of_nonneg_right hlength)
    rwa [hcap, hrefill, add_sub_cancel_left] at hinterval
  · rw [← heq, (fair_run h).granted grant hgrant] at hfailed
    exact hfailed

/-- Of a new bucket of two tokens the first caller is granted what it asks for, and the second one
half a second later; the third one is out of time, and the last one is cancelled while it sleeps. -/
theorem bucket_bounded_sample :
    ∃ readings σ, AcquireRun (newCallers 2 1 0 two_pos one_pos) readings σ ∧
    (0 ≤ σ.bucket.tokens ∧ σ.bucket.tokens ≤ 2) ∧
    σ.grants.map (fun grant => (grant.caller, grant.time)) = [(0, 0), (1, 1 / 2)] ∧
    grantedIn σ.grants 0 (0 + 1 / 2) ≤ 2 + 1 * (1 / 2) ∧
    σ.callers 2 = .timedOut ∧ σ.callers 3 = .cancelled ∧ ∀ grant ∈ σ.grants, grant.caller ≠ 2 ∧
      grant.caller ≠ 3 := by
  have hcall : AcquireRun (newCallers 2 1 0 two_pos one_pos) _ _ := .step .start
    (@AcquireStep.call (newCallers 2 1 0 two_pos one_pos) 0 (3 / 2) 0 0 rfl (by norm_num)
      (by decide +kernel))
  have hgrant := AcquireRun.step hcall
    (@AcquireStep.grant _ 0 (3 / 2) 0 0 0 _ (by decide +kernel) (if_pos (by decide +kernel)))
  have hcall₁ := AcquireRun.step hgrant
    (@AcquireStep.call _ 1 1 3 0 (by decide +kernel) one_pos (by decide +kernel))
  have hsleep₁ := AcquireRun.step hcall₁
    (@AcquireStep.sleep _ 1 1 3 0 0 _ _ (by decide +kernel)
      ((if_neg (by decide +kernel)).trans (if_neg (by decide +kernel))))
  have hcall₂ := AcquireRun.step hsleep₁
    (@AcquireStep.call _ 2 2 0 (1 / 4) (by decide +kernel) two_pos (by decide +kernel))
  have htimeOut₂ := AcquireRun.step hcall₂
    (@AcquireStep.timeOut _ 2 2 (1 / 4) (1 / 4) (1 / 4) _ (by decide +kernel)
      ((if_neg (by decide +kernel)).trans (if_pos (by decide +kernel))))
  have hwake₁ := AcquireRun.step htimeOut₂ (@AcquireStep.wake _ 1 1 3 (by decide +kernel))
  have hgrant₁ := AcquireRun.step hwake₁
    (@AcquireStep.grant _ 1 1 3 (1 / 2) (1 / 2) _ (by decide +kernel) (if_pos (by decide +kernel)))
  have hcall₃ := AcquireRun.step hgrant₁
    (@AcquireStep.call _ 3 1 5 (1 / 2) (by decide +kernel) one_pos (by decide +kernel))
  have hsleep₃ := AcquireRun.step hcall₃
    (@AcquireStep.sleep _ 3 1 (11 / 2) (1 / 2) (1 / 2) _ _ (by decide +kernel)
      ((if_neg (by decide +kernel)).trans (if_neg (by decide +kernel))))
  have hcancel₃ := AcquireRun.step hsleep₃
    (@AcquireStep.cancel _ 3 1 (11 / 2) (.inr (by decide +kernel)))
  obtain ⟨htokens, hgranted, hfailed⟩ := bucket_bounded hcancel₃
  refine ⟨_, _, hcancel₃, htokens, by
    decide +kernel, hgranted (by decide +kernel) 0 (1 / 2) (by norm_num),
    by decide +kernel, by decide +kernel, fun grant hgrant => ⟨?_, ?_⟩⟩
  · exact hfailed 2 trivial grant hgrant
  · exact hfailed 3 trivial grant hgrant

end ProjectAgent.Workers
