/-
`ModelTokenBucketRegistry.acquire`: of the two buckets of a model, which are
refilled over one window, first the one of requests and then the one of tokens,
each with the whole timeout, among any other callers. What the first bucket granted is not given
back when the second one fails. By a clock that does not go back, and where nobody is woken early.
-/
import Mathlib.Tactic.Ring
import ProjectAgent.Workers.RateLimit

namespace ProjectAgent.Workers

namespace TokenBucket

/-- An `acquire` of one bucket under way: it does not read the clock again before a time, and has
slept for so long. -/
structure Acquire where
  amount : ℚ
  deadline : ℚ
  since : ℚ
  slept : ℚ
deriving DecidableEq

inductive Begin where
  | nothing
  | refused
  | begun (acquire : Acquire)

/-- What is done before the loop. -/
def begin (bucket : TokenBucket) (amount timeout now : ℚ) : Begin :=
  if amount ≤ 0 then .nothing
  else if bucket.capacity < amount then .refused
  else .begun ⟨amount, now + max 0 timeout, now, 0⟩

/-- It sleeps. -/
def Acquire.sleep (acquire : Acquire) (now seconds : ℚ) : Acquire :=
  { acquire with since := now + seconds, slept := acquire.slept + seconds }

end TokenBucket

open TokenBucket (Acquire Begin Verdict)

structure ModelRequest where
  estimatedTokens : ℤ
  timeout : ℚ
deriving DecidableEq

inductive LimitError where
  | timedOut
  /-- The amount is above the capacity. -/
  | refused
deriving DecidableEq

/-- A call, how long it slept for the one bucket and for the other, and, if it raised, whether a
request had been taken. -/
inductive ModelCall where
  | fresh
  | requesting (request : ModelRequest) (acquire : Acquire)
  | requested (request : ModelRequest) (slept : ℚ)
  | counting (request : ModelRequest) (slept : ℚ) (acquire : Acquire)
  | returned (request : ModelRequest) (slept slept' : ℚ)
  | raised (request : ModelRequest) (taken : Bool) (error : LimitError) (slept slept' : ℚ)
deriving DecidableEq

namespace ModelCall

variable (request : ModelRequest) (slept : ℚ) (acquire : Acquire) (now : ℚ)

def beginRequest : Begin → ModelCall
  | .nothing => .requested request 0
  | .refused => .raised request false .refused 0 0
  | .begun acquire => .requesting request acquire

def attemptRequest : Verdict → ModelCall
  | .granted => .requested request acquire.slept
  | .timedOut => .raised request false .timedOut acquire.slept 0
  | .wait seconds => .requesting request (acquire.sleep now seconds)

def beginTokens : Begin → ModelCall
  | .nothing => .returned request slept 0
  | .refused => .raised request true .refused slept 0
  | .begun acquire => .counting request slept acquire

def attemptTokens : Verdict → ModelCall
  | .granted => .returned request slept acquire.slept
  | .timedOut => .raised request true .timedOut slept acquire.slept
  | .wait seconds => .counting request slept (acquire.sleep now seconds)

end ModelCall

/-- What a verdict adds to the grants. -/
def Verdict.grants (id : Nat) (now amount : ℚ) : Verdict → List Grant
  | .granted => [⟨id, now, amount⟩]
  | .timedOut | .wait _ => []

/-- The two buckets of a model, its calls, what they were granted, and the last reading of the
clock. -/
structure Limiter where
  requests : TokenBucket
  tokens : TokenBucket
  calls : Nat → ModelCall
  requestGrants : List Grant
  tokenGrants : List Grant
  clock : ℚ

/-- `max(1, estimated_tokens)`. -/
def ModelRequest.amount (request : ModelRequest) : ℚ := max 1 (request.estimatedTokens : ℚ)

inductive LimiterStep : Limiter → Limiter → Prop where
  | call {σ id now} (request : ModelRequest) : σ.calls id = .fresh → σ.clock ≤ now →
      LimiterStep σ { σ with
        calls := Function.update σ.calls id
          (.beginRequest request (σ.requests.begin 1 request.timeout now))
        clock := now }
  | request {σ id now now' request acquire bucket verdict} : σ.calls id =
      .requesting request acquire →
      σ.clock ≤ now → now ≤ now' → acquire.since ≤ now →
      σ.requests.attempt acquire.amount acquire.deadline now now' = (bucket, verdict) →
      LimiterStep σ { σ with
        requests := bucket
        calls := Function.update σ.calls id (.attemptRequest request acquire now' verdict)
        requestGrants := σ.requestGrants ++ Verdict.grants id now acquire.amount verdict
        clock := now' }
  | next {σ id now request slept} : σ.calls id = .requested request slept → σ.clock ≤ now →
      LimiterStep σ { σ with
        calls := Function.update σ.calls id
          (.beginTokens request slept (σ.tokens.begin request.amount request.timeout now))
        clock := now }
  | count {σ id now now' request slept acquire bucket verdict} : σ.calls id =
      .counting request slept acquire →
      σ.clock ≤ now → now ≤ now' → acquire.since ≤ now →
      σ.tokens.attempt acquire.amount acquire.deadline now now' = (bucket, verdict) →
      LimiterStep σ { σ with
        tokens := bucket
        calls := Function.update σ.calls id (.attemptTokens request slept acquire now' verdict)
        tokenGrants := σ.tokenGrants ++ Verdict.grants id now acquire.amount verdict
        clock := now' }

inductive LimiterRun (σ₀ : Limiter) : Limiter → Prop where
  | start : LimiterRun σ₀ σ₀
  | step {σ σ'} : LimiterRun σ₀ σ → LimiterStep σ σ' → LimiterRun σ₀ σ'

/-- What the buckets of a model are built from; a `TokenBucket` refuses other capacities. -/
structure ModelTokenBucketRegistry where
  requestCapacity : ℕ
  tokenCapacity : ℕ
  window : ℚ
  requestCapacity_pos : 0 < requestCapacity
  tokenCapacity_pos : 0 < tokenCapacity
  window_pos : 0 < window

namespace ModelTokenBucketRegistry

variable (registry : ModelTokenBucketRegistry)

theorem rate_pos {capacity : ℕ} (h : 0 < capacity) : 0 < (capacity / registry.window : ℚ) :=
  div_pos (Nat.cast_pos.mpr h) registry.window_pos

/-- `_buckets_for`, at the first call for a model: each bucket is refilled in one window. -/
def bucketsFor (now now' : ℚ) : TokenBucket × TokenBucket :=
  (.new registry.requestCapacity (registry.requestCapacity / registry.window) now
      (Nat.cast_pos.mpr registry.requestCapacity_pos)
        (registry.rate_pos registry.requestCapacity_pos),
    .new registry.tokenCapacity (registry.tokenCapacity / registry.window) now'
      (Nat.cast_pos.mpr registry.tokenCapacity_pos) (registry.rate_pos registry.tokenCapacity_pos))

theorem bucketsFor_bounded {now now' : ℚ} :
    (registry.bucketsFor now now').1.Bounded ∧ (registry.bucketsFor now now').2.Bounded :=
  ⟨⟨Nat.cast_nonneg _, le_rfl⟩, Nat.cast_nonneg _, le_rfl⟩

end ModelTokenBucketRegistry

/-- Nobody has called yet; the buckets hold something. -/
def idle (requests tokens : TokenBucket) (clock : ℚ) : Limiter :=
  ⟨requests, tokens, fun _ => .fresh, [], [], clock⟩

/-! ## What a call took -/

/-- The amounts that a call was granted. -/
def taken (grants : List Grant) (id : Nat) : List ℚ :=
  (grants.filter (·.caller = id)).map Grant.amount

/-- It slept no longer than it was given. -/
def Paced (timeout : ℚ) (acquire : Acquire) : Prop :=
  acquire.deadline - max 0 timeout + acquire.slept ≤ acquire.since ∧
    acquire.since ≤ acquire.deadline

/-- What a call took, and how long it slept for each bucket. -/
def Took (σ : Limiter) (id : Nat) : ModelCall → Prop
  | .fresh => taken σ.requestGrants id = [] ∧ taken σ.tokenGrants id = []
  | .requesting request acquire =>
    taken σ.requestGrants id = [] ∧ taken σ.tokenGrants id = [] ∧ acquire.amount = 1 ∧
      Paced request.timeout acquire
  | .requested request slept =>
    taken σ.requestGrants id = [1] ∧ taken σ.tokenGrants id = [] ∧ slept ≤ max 0 request.timeout
  | .counting request slept acquire =>
    taken σ.requestGrants id = [1] ∧ taken σ.tokenGrants id = [] ∧
      slept ≤ max 0 request.timeout ∧ acquire.amount = request.amount ∧
        Paced request.timeout acquire
  | .returned request slept slept' =>
    taken σ.requestGrants id = [1] ∧ taken σ.tokenGrants id = [request.amount] ∧
      slept ≤ max 0 request.timeout ∧ slept' ≤ max 0 request.timeout
  | .raised request false _ slept slept' =>
    taken σ.requestGrants id = [] ∧ taken σ.tokenGrants id = [] ∧
      slept ≤ max 0 request.timeout ∧ slept' = 0
  | .raised request true _ slept slept' =>
    taken σ.requestGrants id = [1] ∧ taken σ.tokenGrants id = [] ∧
      slept ≤ max 0 request.timeout ∧ slept' ≤ max 0 request.timeout

variable {σ σ' σ₀ : Limiter} {id other : Nat} {grants : List Grant} {now now' amount timeout : ℚ}
  {bucket bucket' : TokenBucket}
  {verdict : Verdict} {acquire : Acquire} {call : ModelCall}

theorem taken_other (h : other ≠ id) :
    taken (grants ++ Verdict.grants id now amount verdict) other = taken grants other := by
  have hnone : taken (Verdict.grants id now amount verdict) other = [] := by
    cases verdict with
    | granted =>
      unfold taken Verdict.grants
      rw [List.filter_cons_of_neg (by simpa using h.symm), List.filter_nil, List.map_nil]
    | timedOut | wait seconds => rfl
  unfold taken at hnone ⊢
  rw [List.filter_append, List.map_append, hnone, List.append_nil]

theorem taken_granted :
    taken (grants ++ Verdict.grants id now amount .granted) id = taken grants id ++ [amount] := by
  unfold taken Verdict.grants
  rw [List.filter_append, List.map_append, List.filter_cons_of_pos (by simp), List.filter_nil,
    List.map_singleton]

theorem Paced.slept_le (h : Paced timeout acquire) : acquire.slept ≤ max 0 timeout := by
  have hstart := h.1.trans h.2
  linarith

theorem Paced.sleep {seconds : ℚ} (h : Paced timeout acquire) (hsince : acquire.since ≤ now)
    (htime : seconds ≤ acquire.deadline - now) : Paced timeout (acquire.sleep now seconds) := by
  have hstart := h.1
  unfold Paced TokenBucket.Acquire.sleep
  dsimp only
  exact ⟨by linarith, by linarith⟩

variable (bucket timeout now) in
/-- An amount above none is refused, or waited for from now on. -/
theorem begin_cases (hamount : 0 < amount) : bucket.begin amount timeout now = .refused ∨
    ∃ acquire, bucket.begin amount timeout now = .begun acquire ∧ acquire.amount = amount ∧
      Paced timeout acquire := by
  unfold TokenBucket.begin
  rw [if_neg (not_le.mpr hamount)]
  split
  · exact .inl rfl
  · refine .inr ⟨_, rfl, rfl, ?_, le_add_of_nonneg_right (le_max_left _ _)⟩
    dsimp only
    linarith

theorem ModelRequest.amount_pos (request : ModelRequest) : 0 < request.amount :=
  zero_lt_one.trans_le (le_max_left _ _)

/-- A call is where it is by what it took itself. -/
theorem Took.congr (h : Took σ id call)
    (hrequests : taken σ'.requestGrants id = taken σ.requestGrants id)
    (htokens : taken σ'.tokenGrants id = taken σ.tokenGrants id) : Took σ' id call := by
  unfold Took at h ⊢
  rw [hrequests, htokens]
  exact h

theorem took_step (h : ∀ id, Took σ id (σ.calls id)) (hstep : LimiterStep σ σ') :
    ∀ id, Took σ' id (σ'.calls id) := by
  intro other
  cases hstep with
  | @call id now request hid _ =>
    by_cases heq : other = id
    · subst heq
      have hnone := h other
      rw [hid] at hnone
      dsimp only
      rw [Function.update_self]
      rcases begin_cases now request.timeout σ.requests zero_lt_one with
        hbegin | ⟨acquire, hbegin, hamount, hpaced⟩
      · rw [hbegin]
        exact ⟨hnone.1, hnone.2, le_max_left _ _, rfl⟩
      · rw [hbegin]
        exact ⟨hnone.1, hnone.2, hamount, hpaced⟩
    · dsimp only
      rw [Function.update_of_ne heq]
      exact (h other).congr rfl rfl
  | @request id now now' request acquire bucket verdict hid _ hnow hsince hattempt =>
    by_cases heq : other = id
    · subst heq
      have hbefore := h other
      rw [hid] at hbefore
      obtain ⟨hrequests, htokens, hamount, hpaced⟩ := hbefore
      dsimp only
      rw [Function.update_self]
      rcases TokenBucket.attempt_cases hattempt with ⟨rfl, -, -⟩ |
        ⟨-, rfl | ⟨seconds, rfl, -, htime⟩⟩
      · refine ⟨taken_granted.trans ?_, htokens, hpaced.slept_le⟩
        rw [hrequests, hamount]
        rfl
      · exact ⟨(congrArg (taken · other) (List.append_nil _)).trans hrequests, htokens,
          hpaced.slept_le, rfl⟩
      · exact ⟨(congrArg (taken · other) (List.append_nil _)).trans hrequests, htokens, hamount,
          hpaced.sleep (hsince.trans hnow) htime⟩
    · dsimp only
      rw [Function.update_of_ne heq]
      exact (h other).congr (taken_other heq) rfl
  | @next id now request slept hid _ =>
    by_cases heq : other = id
    · subst heq
      have hbefore := h other
      rw [hid] at hbefore
      obtain ⟨hrequests, htokens, hslept⟩ := hbefore
      dsimp only
      rw [Function.update_self]
      rcases begin_cases now request.timeout σ.tokens request.amount_pos with
        hbegin | ⟨acquire, hbegin, hamount, hpaced⟩
      · rw [hbegin]
        exact ⟨hrequests, htokens, hslept, le_max_left _ _⟩
      · rw [hbegin]
        exact ⟨hrequests, htokens, hslept, hamount, hpaced⟩
    · dsimp only
      rw [Function.update_of_ne heq]
      exact (h other).congr rfl rfl
  | @count id now now' request slept acquire bucket verdict hid _ hnow hsince hattempt =>
    by_cases heq : other = id
    · subst heq
      have hbefore := h other
      rw [hid] at hbefore
      obtain ⟨hrequests, htokens, hslept, hamount, hpaced⟩ := hbefore
      dsimp only
      rw [Function.update_self]
      rcases TokenBucket.attempt_cases hattempt with ⟨rfl, -, -⟩ |
        ⟨-, rfl | ⟨seconds, rfl, -, htime⟩⟩
      · refine ⟨hrequests, taken_granted.trans ?_, hslept, hpaced.slept_le⟩
        rw [htokens, hamount]
        rfl
      · exact ⟨hrequests, (congrArg (taken · other) (List.append_nil _)).trans htokens, hslept,
          hpaced.slept_le⟩
      · exact ⟨hrequests, (congrArg (taken · other) (List.append_nil _)).trans htokens,
          hslept, hamount,
          hpaced.sleep (hsince.trans hnow) htime⟩
    · dsimp only
      rw [Function.update_of_ne heq]
      exact (h other).congr rfl (taken_other heq)

/-! ## What the buckets hold -/

/-- What is left of a bucket by refills and grants alone. -/
def replay (bucket : TokenBucket) (grants : List Grant) : TokenBucket :=
  grants.foldl (fun bucket grant => (bucket.refill grant.time).take grant.amount) bucket

/-- The one bucket is refilled to what the other is, from now on. -/
structure Alike (bucket bucket' : TokenBucket) (clock : ℚ) : Prop where
  updated : bucket.updatedAt ≤ clock
  updated' : bucket'.updatedAt ≤ clock
  bounded : bucket.Bounded
  bounded' : bucket'.Bounded
  refill : ∀ now, clock ≤ now → bucket.refill now = bucket'.refill now

theorem refill_congr (hcapacity : bucket.capacity = bucket'.capacity)
    (hrate : bucket.refillRate = bucket'.refillRate) (htokens : bucket.tokens = bucket'.tokens)
    (hupdated : bucket.updatedAt = bucket'.updatedAt) : bucket = bucket' := by
  cases bucket
  cases bucket'
  dsimp only at hcapacity hrate htokens hupdated
  subst hcapacity hrate htokens hupdated
  rfl

/-- A refill in between makes no difference. -/
theorem refill_refill (hbounded : bucket.Bounded) (hupdated : bucket.updatedAt ≤ now)
    (hnow : now ≤ now') :
    (bucket.refill now).refill now' = bucket.refill now' := by
  have htime : (bucket.refill now).updatedAt = now := TokenBucket.refill_updatedAt hupdated
  have hlater : bucket.updatedAt ≤ now' := hupdated.trans hnow
  have hnow' : (bucket.refill now).updatedAt ≤ now' := htime.trans_le hnow
  refine refill_congr ?_ ?_ ?_ ?_
  · simp only [TokenBucket.refill_capacity]
  · simp only [TokenBucket.refill_refillRate]
  · rw [TokenBucket.refill_tokens hnow' hbounded.refill.2,
      TokenBucket.refill_tokens hlater hbounded.2,
      TokenBucket.refill_tokens hupdated hbounded.2, TokenBucket.refill_capacity,
        TokenBucket.refill_refillRate, htime]
    have hrefill : 0 ≤ (now' - now) * bucket.refillRate :=
      mul_nonneg (sub_nonneg.mpr hnow) bucket.refillRate_pos.le
    have hsplit : bucket.tokens + (now - bucket.updatedAt) * bucket.refillRate + (now' - now) *
      bucket.refillRate =
        bucket.tokens + (now' - bucket.updatedAt) * bucket.refillRate := by ring
    rcases le_total bucket.capacity (bucket.tokens + (now - bucket.updatedAt) * bucket.refillRate)
      with hfull | hfree
    · rw [min_eq_left hfull, min_eq_left (by linarith), min_eq_left (by linarith)]
    · rw [min_eq_right hfree, hsplit]
  · rw [TokenBucket.refill_updatedAt hnow', TokenBucket.refill_updatedAt hlater]

theorem Alike.refl (hbounded : bucket.Bounded) (hupdated : bucket.updatedAt ≤ now) :
    Alike bucket bucket now :=
  ⟨hupdated, hupdated, hbounded, hbounded, fun _ _ => rfl⟩

theorem Alike.later {clock : ℚ} (h : Alike bucket bucket' clock) (hnow : clock ≤ now) :
    Alike bucket bucket' now :=
  ⟨h.updated.trans hnow, h.updated'.trans hnow, h.bounded, h.bounded', fun _ hlater =>
    h.refill _ (hnow.trans hlater)⟩

/-- An attempt leaves what refills and what it was granted leave. -/
theorem Alike.attempt {clock deadline : ℚ} {start : TokenBucket}
    (h : Alike bucket (replay start grants) clock) (hclock : clock ≤ now) (hnow : now ≤ now')
    (hamount : 0 < amount)
    (hattempt : bucket.attempt amount deadline now now' = (bucket', verdict)) :
    Alike bucket' (replay start (grants ++ Verdict.grants id now amount verdict)) now' := by
  have hsame := h.refill now hclock
  have htime : (bucket.refill now).updatedAt = now :=
    TokenBucket.refill_updatedAt (h.updated.trans hclock)
  have hbounded := h.bounded.attempt hamount hattempt
  rcases TokenBucket.attempt_cases hattempt with ⟨rfl, -, rfl⟩ | ⟨rfl, hverdict⟩
  · have hreplay : replay start (grants ++ Verdict.grants id now amount .granted) =
        (bucket.refill now).take amount := by
      unfold replay at hsame ⊢
      unfold Verdict.grants
      rw [List.foldl_append, List.foldl_cons, List.foldl_nil, hsame]
    rw [hreplay]
    exact .refl hbounded (htime.trans_le hnow)
  · have hnone : Verdict.grants id now amount verdict = [] := by
      rcases hverdict with rfl | ⟨seconds, rfl, -⟩ <;> rfl
    rw [hnone, List.append_nil]
    refine ⟨htime.trans_le hnow, h.updated'.trans (hclock.trans hnow), hbounded, h.bounded',
      fun later hlater => ?_⟩
    rw [refill_refill h.bounded (h.updated.trans hclock) (hnow.trans hlater),
      h.refill later (hclock.trans (hnow.trans hlater))]

/-- Each bucket holds what refills and the grants leave. -/
def Kept (requests tokens : TokenBucket) (σ : Limiter) : Prop :=
  Alike σ.requests (replay requests σ.requestGrants) σ.clock ∧
    Alike σ.tokens (replay tokens σ.tokenGrants) σ.clock

theorem Kept.step {requests tokens : TokenBucket} (h : Kept requests tokens σ)
    (htook : ∀ id, Took σ id (σ.calls id)) (hstep : LimiterStep σ σ') :
    Kept requests tokens σ' := by
  cases hstep with
  | call _ _ hclock | next _ hclock => exact ⟨h.1.later hclock, h.2.later hclock⟩
  | @request id now now' request acquire bucket verdict hid hclock hnow _ hattempt =>
    have hbefore := htook id
    rw [hid] at hbefore
    refine ⟨h.1.attempt hclock hnow ?_ hattempt, h.2.later (hclock.trans hnow)⟩
    rw [hbefore.2.2.1]
    exact zero_lt_one
  | @count id now now' request slept acquire bucket verdict hid hclock hnow _ hattempt =>
    have hbefore := htook id
    rw [hid] at hbefore
    refine ⟨h.1.later (hclock.trans hnow), h.2.attempt hclock hnow ?_ hattempt⟩
    rw [hbefore.2.2.2.1]
    exact request.amount_pos

/-- **What a call of the limiter took, however it ended**: a request and the tokens, neither, or the
request alone when it was the tokens that failed; it slept for each bucket no longer than its
timeout, and the buckets hold what refills and the grants leave. -/
theorem model_acquire {requests tokens : TokenBucket} {clock : ℚ} (hrequests : requests.Bounded)
    (htokens : tokens.Bounded) (hclock : requests.updatedAt ≤ clock)
    (hclock' : tokens.updatedAt ≤ clock) (h : LimiterRun (idle requests tokens clock) σ) :
    (∀ id, Took σ id (σ.calls id)) ∧ Kept requests tokens σ := by
  induction h with
  | start => exact ⟨fun _ => ⟨rfl, rfl⟩, .refl hrequests hclock, .refl htokens hclock'⟩
  | step _ hstep ih => exact ⟨took_step ih.1 hstep, ih.2.step ih.1 hstep⟩

/-- The buckets of a model as the registry has just built them. -/
def started (registry : ModelTokenBucketRegistry) (clock : ℚ) : Limiter :=
  idle (registry.bucketsFor clock clock).1 (registry.bucketsFor clock clock).2 clock

/-- A call that raises took nothing, and one that returns took both. -/
def AllOrNothing : Prop := ∀ registry clock σ, LimiterRun (started registry clock) σ → ∀ id,
  match σ.calls id with
  | .returned request _ _ =>
    taken σ.requestGrants id = [1] ∧ taken σ.tokenGrants id = [request.amount]
  | .raised _ _ _ _ _ => taken σ.requestGrants id = [] ∧ taken σ.tokenGrants id = []
  | _ => True

/-- A call sleeps no longer than its timeout. -/
def InTime : Prop := ∀ registry clock σ, LimiterRun (started registry clock) σ → ∀ id,
  match σ.calls id with
  | .returned request slept slept' | .raised request _ _ slept slept' =>
    slept + slept' ≤ max 0 request.timeout
  | _ => True

/-- Two requests and twenty tokens in ten seconds. -/
def smallRegistry : ModelTokenBucketRegistry := ⟨2, 20, 10, two_pos, by decide, by norm_num⟩

/-- More tokens are asked for than there can be: the request is gone. -/
theorem too_many_refused : ∃ σ, LimiterRun (started smallRegistry 0) σ ∧
    σ.calls 0 = .raised ⟨21, 0⟩ true .refused 0 0 ∧ taken σ.requestGrants 0 = [1] := by
  have hcall : LimiterRun (started smallRegistry 0) _ :=
    .step .start (@LimiterStep.call (started smallRegistry 0) 0 0 ⟨21, 0⟩ rfl le_rfl)
  have hrequest := LimiterRun.step hcall
    (@LimiterStep.request _ 0 0 0 ⟨21, 0⟩
      ⟨1, 0, 0, 0⟩ _ _ (by decide +kernel) le_rfl le_rfl le_rfl rfl)
  have hnext := LimiterRun.step hrequest
    (@LimiterStep.next _ 0 0 ⟨21, 0⟩ 0 (by decide +kernel) le_rfl)
  exact ⟨_, hnext, by decide +kernel, by decide +kernel⟩

/-- Two callers take all that there is; the third one is given nine seconds, and sleeps ten. -/
theorem third_waits : ∃ σ, LimiterRun (started smallRegistry 0) σ ∧
    σ.calls 0 = .returned ⟨10, 0⟩ 0 0 ∧ σ.calls 1 = .returned ⟨10, 0⟩ 0 0 ∧
    σ.calls 2 = .returned ⟨20, 9⟩ 5 5 := by
  have hcall : LimiterRun (started smallRegistry 0) _ :=
    .step .start (@LimiterStep.call (started smallRegistry 0) 0 0 ⟨10, 0⟩ rfl le_rfl)
  have hrequest := LimiterRun.step hcall
    (@LimiterStep.request _ 0 0 0 ⟨10, 0⟩
      ⟨1, 0, 0, 0⟩ _ _ (by decide +kernel) le_rfl le_rfl le_rfl rfl)
  have hnext := LimiterRun.step hrequest
    (@LimiterStep.next _ 0 0 ⟨10, 0⟩ 0 (by decide +kernel) le_rfl)
  have hcount := LimiterRun.step hnext
    (@LimiterStep.count _ 0 0 0 ⟨10, 0⟩ 0 ⟨10, 0, 0, 0⟩ _ _
      (by decide +kernel) le_rfl le_rfl le_rfl rfl)
  have hcall₁ := LimiterRun.step hcount (@LimiterStep.call _ 1 0 ⟨10, 0⟩ (by decide +kernel) le_rfl)
  have hrequest₁ := LimiterRun.step hcall₁
    (@LimiterStep.request _ 1 0 0 ⟨10, 0⟩
      ⟨1, 0, 0, 0⟩ _ _ (by decide +kernel) le_rfl le_rfl le_rfl rfl)
  have hnext₁ := LimiterRun.step hrequest₁
    (@LimiterStep.next _ 1 0 ⟨10, 0⟩ 0 (by decide +kernel) le_rfl)
  have hcount₁ := LimiterRun.step hnext₁
    (@LimiterStep.count _ 1 0 0 ⟨10, 0⟩ 0 ⟨10, 0, 0, 0⟩ _ _
      (by decide +kernel) le_rfl le_rfl le_rfl rfl)
  -- both buckets are empty now
  have hcall₂ := LimiterRun.step hcount₁
    (@LimiterStep.call _ 2 0 ⟨20, 9⟩ (by decide +kernel) le_rfl)
  have hasleep := LimiterRun.step hcall₂
    (@LimiterStep.request _ 2 0 0 ⟨20, 9⟩
      ⟨1, 9, 0, 0⟩ _ _ (by decide +kernel) le_rfl le_rfl le_rfl rfl)
  have hrequest₂ := LimiterRun.step hasleep
    (@LimiterStep.request _ 2 5 5 ⟨20, 9⟩ ⟨1, 9, 5, 5⟩ _ _ (by decide +kernel) (by decide +kernel)
      le_rfl le_rfl rfl)
  have hnext₂ := LimiterRun.step hrequest₂
    (@LimiterStep.next _ 2 5 ⟨20, 9⟩ 5 (by decide +kernel) le_rfl)
  have hasleep' := LimiterRun.step hnext₂
    (@LimiterStep.count _ 2 5 5 ⟨20, 9⟩ 5 ⟨20, 14, 5, 0⟩ _ _
      (by decide +kernel) le_rfl le_rfl le_rfl rfl)
  have hcount₂ := LimiterRun.step hasleep'
    (@LimiterStep.count _ 2 10 10 ⟨20, 9⟩ 5 ⟨20, 14, 10, 5⟩ _ _ (by decide +kernel)
      (by decide +kernel)
      le_rfl le_rfl rfl)
  exact ⟨_, hcount₂, by decide +kernel, by decide +kernel, by decide +kernel⟩

/-- **What was taken is not given back**, and each bucket has the whole timeout. -/
theorem acquire_not_all_or_nothing : ¬ AllOrNothing ∧ ¬ InTime := by
  refine ⟨fun h => ?_, fun h => ?_⟩
  · obtain ⟨σ, hrun, hcall, htaken⟩ := too_many_refused
    have hnothing := h smallRegistry 0 σ hrun 0
    rw [hcall] at hnothing
    rw [htaken] at hnothing
    exact absurd hnothing.1 (List.cons_ne_nil _ _)
  · obtain ⟨σ, hrun, -, -, hcall⟩ := third_waits
    have hintime := h smallRegistry 0 σ hrun 2
    rw [hcall] at hintime
    exact absurd hintime (by decide +kernel)

/-- Three callers of one model, of which the last one waits for both buckets. -/
theorem model_acquire_sample : ∃ σ, LimiterRun (started smallRegistry 0) σ ∧
    σ.calls 0 = .returned ⟨10, 0⟩ 0 0 ∧ σ.calls 1 = .returned ⟨10, 0⟩ 0 0 ∧
    σ.calls 2 = .returned ⟨20, 9⟩ 5 5 ∧ (∀ id, Took σ id (σ.calls id)) ∧
    Kept (smallRegistry.bucketsFor 0 0).1 (smallRegistry.bucketsFor 0 0).2 σ := by
  obtain ⟨σ, hrun, hcall, hcall₁, hcall₂⟩ := third_waits
  have hbounded := @ModelTokenBucketRegistry.bucketsFor_bounded smallRegistry 0 0
  exact ⟨σ, hrun, hcall, hcall₁, hcall₂,
    model_acquire hbounded.1 hbounded.2 le_rfl le_rfl hrun⟩

end ProjectAgent.Workers
