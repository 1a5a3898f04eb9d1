/-
`RagflowHttpClient`: a request with its attempts, and what is made of the
response to the last one. An attempt is answered by a response or raises;
which, is given for every attempt by its number. Delays are exact rationals.
-/
import Mathlib
import ProjectAgent.Lib.Retry
import ProjectAgent.Ragflow.Provider

namespace ProjectAgent.Ragflow

structure RagflowRetryPolicy where
  maxAttempts : Nat
  baseDelaySeconds : ℚ
  maxDelaySeconds : ℚ
  one_le_attempts : 1 ≤ maxAttempts
  base_nonneg : 0 ≤ baseDelaySeconds
  base_le_max : baseDelaySeconds ≤ maxDelaySeconds

theorem default_attempts : 1 ≤ 3 := Nat.le_add_left 1 2

theorem default_delays : (0 : ℚ) ≤ 1 / 4 ∧ (1 / 4 : ℚ) ≤ 2 := by norm_num

/-- `RagflowRetryPolicy()`. -/
def RagflowRetryPolicy.default : RagflowRetryPolicy :=
  ⟨3, 1 / 4, 2, default_attempts, default_delays.1, default_delays.2⟩

/-- `delay_for_retry`, of a number from one on; from 1025 on, of which `2.0 **` makes an
`OverflowError`, it goes on as before. -/
def RagflowRetryPolicy.delayForRetry (policy : RagflowRetryPolicy) (retryNumber : Nat) : ℚ :=
  min (policy.baseDelaySeconds * 2 ^ (retryNumber - 1)) policy.maxDelaySeconds

structure Response where
  statusCode : Nat
  /-- `response.json()`, which raises where there is none. -/
  json : Option Any
  text : String

/-- What an attempt is answered with: a response, or one of httpx's exceptions or another one. -/
inductive Answer where
  | response (response : Response)
  | timeoutException
  | networkError
  | raised (typeName : String)

inductive ClientError where
  | httpError (statusCode : Nat) (message : String)
  /-- Without a code it is "missing". -/
  | apiError (code : Option Any) (message : String)
  | protocolError (text : String)
  | timeoutException
  | networkError
  | raised (typeName : String)
  | runtimeError (text : String)

def firstChars (text : String) : String := String.ofList (text.toList.take 500)

section
variable (py : Python) (policy : RagflowRetryPolicy)

/-- `_extract_error_message`. -/
def extractErrorMessage (response : Response) : String :=
  match response.json with
  | some (.dict payload) =>
    match payload.lookup "message" with
    | none | some .null => firstChars response.text
    | some message => message.text py
  | _ => firstChars response.text

/-- The body of the loop of `_request`: what the attempt ends it with. -/
def attempted (answer : Nat → Answer) (attempt : Nat) : Option (Except ClientError Response) :=
  match answer attempt with
  | .timeoutException =>
    if policy.maxAttempts ≤ attempt then some (.error .timeoutException) else none
  | .networkError => if policy.maxAttempts ≤ attempt then some (.error .networkError) else none
  | .raised typeName => some (.error (.raised typeName))
  | .response response =>
    if (response.statusCode = 429 ∨ 500 ≤ response.statusCode) ∧
      attempt < policy.maxAttempts then none
    else if 400 ≤ response.statusCode then
      some (.error (.httpError response.statusCode (extractErrorMessage py response)))
    else some (.ok response)

/-- What a request has done. -/
structure Sent where
  requests : Nat
  slept : List ℚ
  result : Except ClientError Response

/-- `_request`. -/
def sendRequest (answer : Nat → Answer) : Sent :=
  let sent := Retry.loop (attempted py policy answer) 1 policy.maxAttempts
  match sent.2 with
  | some result => ⟨sent.1.length + 1, sent.1.map policy.delayForRetry, result⟩
  | none =>
    ⟨sent.1.length, sent.1.map policy.delayForRetry,
      .error (.runtimeError "unreachable RAGFlow retry state")⟩

/-- `value == 0`. -/
def Any.isZero : Any → Bool
  | .int value => value = 0
  | .bool value => !value
  | .float value => value = .finite 0
  | _ => false

/-- What `request_data` makes of a response. -/
def envelopeData (response : Response) : Except ClientError Any :=
  match response.json with
  | none => .error (.protocolError "RAGFlow response is not valid JSON")
  | some (.dict payload) =>
    match payload.lookup "code" with
    | none | some .null =>
      .error (.apiError none (((payload.lookup "message").getD (.str "unknown error")).text py))
    | some code =>
      if code.isZero then .ok ((payload.lookup "data").getD .null)
      else .error (.apiError (some code)
        (((payload.lookup "message").getD (.str "unknown error")).text py))
  | some _ => .error (.protocolError "RAGFlow JSON envelope must be an object")

/-- `request_data`. -/
def requestData (answer : Nat → Answer) : Except ClientError Any :=
  match (sendRequest py policy answer).result with
  | .error e => .error e
  | .ok response => envelopeData py response

end

/-! ## Which attempts are repeated -/

/-- The answer is one a request may be sent again for. -/
def Answer.transient : Answer → Prop
  | .timeoutException | .networkError => True
  | .raised _ => False
  | .response r => r.statusCode = 429 ∨ 500 ≤ r.statusCode

/-- What the answer means for the caller, if the request is not sent again. -/
def Answer.meaning (py : Python) : Answer → Except ClientError Response
  | .timeoutException => .error .timeoutException
  | .networkError => .error .networkError
  | .raised typeName => .error (.raised typeName)
  | .response r =>
    if 400 ≤ r.statusCode then .error (.httpError r.statusCode (extractErrorMessage py r))
      else .ok r

variable {py : Python} {policy : RagflowRetryPolicy} {answer : Nat → Answer} {attempt : Nat}

theorem attempted_none_iff :
    attempted py policy answer attempt = none ↔ (answer attempt).transient ∧
      attempt < policy.maxAttempts := by
  unfold attempted Answer.transient
  split
  · simp
  · simp
  · simp
  · next response _ =>
    by_cases hagain : (response.statusCode = 429 ∨ 500 ≤ response.statusCode) ∧
      attempt < policy.maxAttempts
    · simp [hagain]
    · rw [if_neg hagain]
      split <;> simp [hagain]

theorem attempted_meaning {result : Except ClientError Response}
    (h : attempted py policy answer attempt = some result) :
    result = (answer attempt).meaning py := by
  unfold attempted at h
  unfold Answer.meaning
  split at h
  · next heq =>
    split at h
    · cases h
      rfl
    · cases h
  · next heq =>
    split at h
    · cases h
      rfl
    · cases h
  · cases h
    rfl
  · next response heq =>
    split at h
    · cases h
    · split at h
      · next hstatus =>
        cases h
        exact (if_pos hstatus).symm
      · next hstatus =>
        cases h
        exact (if_neg hstatus).symm

theorem RagflowRetryPolicy.delay_bounds (policy : RagflowRetryPolicy) (retryNumber : Nat) :
    0 ≤ policy.delayForRetry retryNumber ∧
      policy.delayForRetry retryNumber ≤ policy.maxDelaySeconds := by
  have hmax : 0 ≤ policy.maxDelaySeconds := policy.base_nonneg.trans policy.base_le_max
  have hbase : 0 ≤ policy.baseDelaySeconds * 2 ^ (retryNumber - 1) :=
    mul_nonneg policy.base_nonneg (by positivity)
  exact ⟨le_min hbase hmax, min_le_right _ _⟩

/-- What a request does with its attempts: it ends at the first answer that is not transient, or at
the last attempt there is. -/
structure Bounded (py : Python) (policy : RagflowRetryPolicy) (answer : Nat → Answer)
    (sent : Sent) : Prop where
  sends : 1 ≤ sent.requests
  bounded : sent.requests ≤ policy.maxAttempts
  repeated : ∀ k, 1 ≤ k → k < sent.requests → (answer k).transient
  last : (answer sent.requests).transient → sent.requests = policy.maxAttempts
  result : sent.result = (answer sent.requests).meaning py
  slept : sent.slept.length + 1 = sent.requests
  waited : sent.slept.sum ≤ (policy.maxAttempts - 1 : ℕ) * policy.maxDelaySeconds

theorem sendRequest_bounded (py : Python) (policy : RagflowRetryPolicy) (answer : Nat → Answer) :
    Bounded py policy answer (sendRequest py policy answer) := by
  obtain ⟨left, hleft⟩ : ∃ left, policy.maxAttempts = left + 1 :=
    ⟨policy.maxAttempts - 1, by have := policy.one_le_attempts; omega⟩
  have hends : (attempted py policy answer (1 + left)).isSome = true := by
    rw [Option.isSome_iff_ne_none]
    intro hnone
    have hlt := (attempted_none_iff.mp hnone).2
    omega
  obtain ⟨last, result, hle, hlast, hresult, hbefore, hloop⟩ := Retry.loop_ends hends
  have hsent : sendRequest py policy answer =
      ⟨last, (List.range' 1 (last - 1)).map policy.delayForRetry, result⟩ := by
    unfold sendRequest
    rw [hleft, hloop]
    simp only [List.length_range', Sent.mk.injEq, and_true]
    omega
  rw [hsent]
  have hmost : last ≤ policy.maxAttempts := by omega
  refine ⟨hle, hmost, fun k hk hlt => (attempted_none_iff.mp (hbefore k hk hlt)).1,
    fun htransient => ?_,
    attempted_meaning hresult, ?_, ?_⟩
  · show last = policy.maxAttempts
    by_contra hne
    have hnone : attempted py policy answer last = none :=
      attempted_none_iff.mpr ⟨htransient, by omega⟩
    rw [hresult] at hnone
    cases hnone
  · simp only [List.length_map, List.length_range']
    omega
  · have hsum := List.sum_le_card_nsmul
      ((List.range' 1 (last - 1)).map policy.delayForRetry) policy.maxDelaySeconds (by
      intro delay hdelay
      obtain ⟨k, -, rfl⟩ := List.mem_map.mp hdelay
      exact (policy.delay_bounds k).2)
    rw [List.length_map, List.length_range', nsmul_eq_mul] at hsum
    have hmax : 0 ≤ policy.maxDelaySeconds := policy.base_nonneg.trans policy.base_le_max
    have hcount : ((last - 1 : ℕ) : ℚ) ≤ (policy.maxAttempts - 1 : ℕ) := by
      exact_mod_cast (show last - 1 ≤ policy.maxAttempts - 1 by omega)
    exact hsum.trans (mul_le_mul_of_nonneg_right hcount hmax)

/-- What a caller of `request_data` is given: the data of an envelope with the code zero, in a
response below 400 that was the last one the request got. -/
def GivesData (answer : Nat → Answer) (last : Nat) (data : Any) : Prop :=
  ∃ response payload code, answer last = .response response ∧ response.statusCode < 400 ∧
    response.json = some (.dict payload) ∧
    payload.lookup "code" = some code ∧ code.isZero = true ∧
      data = (payload.lookup "data").getD .null

theorem envelopeData_ok_iff {response : Response} {data : Any} :
    envelopeData py response = .ok data ↔ ∃ payload code, response.json = some (.dict payload) ∧
      payload.lookup "code" = some code ∧ code.isZero = true ∧
        data = (payload.lookup "data").getD .null := by
  unfold envelopeData
  constructor
  · intro h
    split at h
    · cases h
    · next payload hjson =>
      split at h
      · cases h
      · cases h
      · next code hnull hcode =>
        by_cases hzero : code.isZero = true
        · rw [if_pos hzero] at h
          cases h
          exact ⟨payload, code, hjson, hcode, hzero, rfl⟩
        · rw [if_neg hzero] at h
          cases h
    · cases h
  · rintro ⟨payload, code, hjson, hcode, hzero, rfl⟩
    rw [hjson]
    simp only [hcode]
    cases code with
    | null => cases hzero
    | bool | int | float | str | list | dict => simp only [hzero, if_true]

theorem meaning_ok_iff {a : Answer} {response : Response} :
    a.meaning py = .ok response ↔ a = .response response ∧ response.statusCode < 400 := by
  cases a with
  | timeoutException | networkError | raised => simp [Answer.meaning]
  | response r =>
    by_cases hstatus : 400 ≤ r.statusCode
    · simp only [Answer.meaning, if_pos hstatus, Answer.response.injEq]
      refine ⟨fun h => (by cases h), ?_⟩
      rintro ⟨rfl, hlt⟩
      omega
    · simp only [Answer.meaning, if_neg hstatus, Except.ok.injEq, Answer.response.injEq]
      refine ⟨?_, fun h => h.1⟩
      rintro rfl
      exact ⟨rfl, by omega⟩

/-- With the policy that a client has by itself. -/
theorem default_requests {answer : Nat → Answer} :
    (sendRequest py .default answer).requests ≤ 3 ∧
      (sendRequest py .default answer).slept.sum ≤ 4 := by
  have hbounded := sendRequest_bounded py .default answer
  have hwaited := hbounded.waited
  refine ⟨hbounded.bounded, hwaited.trans ?_⟩
  norm_num [RagflowRetryPolicy.default]

/-- **Requests are sent again for transient answers only.** Whatever the attempts are answered with,
a request is sent at most as often as the policy says, again only after an answer that is transient,
and no more after one that is not; all its waiting together is at most the greatest delay for every
attempt but the first. The caller is given data only from the last answer, and only where it is an
envelope with the code zero: an application error is not sent again. -/
theorem request_data_bounded (py : Python) (policy : RagflowRetryPolicy) (answer : Nat → Answer) :
    Bounded py policy answer (sendRequest py policy answer) ∧
      ∀ data, requestData py policy answer = .ok data ↔
      GivesData answer (sendRequest py policy answer).requests data := by
  have hbounded := sendRequest_bounded py policy answer
  refine ⟨hbounded, fun data => ?_⟩
  unfold requestData GivesData
  constructor
  · intro h
    split at h
    · cases h
    · next response hresult =>
      rw [hbounded.result] at hresult
      obtain ⟨hanswer, hstatus⟩ := meaning_ok_iff.mp hresult
      obtain ⟨payload, code, hdata⟩ := envelopeData_ok_iff.mp h
      exact ⟨response, payload, code, hanswer, hstatus, hdata⟩
  · rintro ⟨response, payload, code, hanswer, hstatus, hdata⟩
    rw [hbounded.result, meaning_ok_iff.mpr ⟨hanswer, hstatus⟩]
    exact envelopeData_ok_iff.mpr ⟨payload, code, hdata⟩

end ProjectAgent.Ragflow
