/-
`OpenAICompatibleStructuredLLMAdapter`: a request to the model with its
attempts, what is read in the response, and the usage that is kept of every
request. Calls that are under way at once share nothing but the usage, which
each of them writes in its last step.
-/
import Mathlib
import ProjectAgent.Agent.Calls
import ProjectAgent.Lib.JsonValue
import ProjectAgent.Lib.Retry

namespace ProjectAgent.Agent.Llm

open Json (Value)

structure StructuredLLMRetryPolicy where
  maxAttempts : Nat
  one_le_attempts : 1 ≤ maxAttempts

theorem default_attempts : 1 ≤ 3 := Nat.le_add_left 1 2

/-- `StructuredLLMRetryPolicy()`. -/
def StructuredLLMRetryPolicy.default : StructuredLLMRetryPolicy := ⟨3, default_attempts⟩

structure Response where
  statusCode : Nat
  /-- `response.json()`, which raises where there is none. -/
  json : Option Value

inductive Posted where
  | response (response : Response)
  /-- `httpx.TimeoutException` or `httpx.TransportError`. -/
  | transportError
  | raised (typeName : String)

inductive StructuredLLMError where
  | transportError (text : String)
  | httpError (text : String)
  | protocolError (text : String)
  | schemaError (text : String)
  | lookupError (text : String)
  | assertionError (text : String)
  | raised (typeName : String)

/-- The body of the loop of `_post_with_retry`: what the attempt ends it with. -/
def attempted (policy : StructuredLLMRetryPolicy) (posted : Nat → Posted) (attempt : Nat) :
    Option (Except StructuredLLMError Response) :=
  match posted attempt with
  | .transportError =>
    if policy.maxAttempts ≤ attempt then
      some (.error (.transportError "structured LLM transport failure after bounded retries"))
    else none
  | .raised typeName => some (.error (.raised typeName))
  | .response response =>
    if 200 ≤ response.statusCode ∧ response.statusCode < 300 then some (.ok response)
    else if ¬ (response.statusCode = 429 ∨ 500 ≤ response.statusCode) ∨
        policy.maxAttempts ≤ attempt then
      some (.error (.httpError
        ("structured LLM provider returned HTTP " ++ toString response.statusCode)))
    else none

/-- `_post_with_retry`, and how often it has posted. -/
def postWithRetry (policy : StructuredLLMRetryPolicy) (posted : Nat → Posted) :
    Nat × Except StructuredLLMError Response :=
  let sent := Retry.loop (attempted policy posted) 1 policy.maxAttempts
  match sent.2 with
  | some result => (sent.1.length + 1, result)
  | none =>
    (sent.1.length, .error (.assertionError "retry loop exhausted without returning or raising"))

/-- `body["choices"][0]["message"]["content"]`, if it is there and a text. -/
def contentOf (body : List (String × Value)) : Option String :=
  match body.lookup "choices" with
  | some (.list (.dict choice :: _)) =>
    match choice.lookup "message" with
    | some (.dict message) =>
      match message.lookup "content" with
      | some (.str content) => some content
      | _ => none
    | _ => none
  | _ => none

/-- A number of tokens: an `int` that is no `bool`, and not negative. -/
def tokensOf (usage : List (String × Value)) (key : String) : Option Nat :=
  match usage.lookup key with
  | some (.int (.ofNat n)) => some n
  | _ => none

/-- `_parse_response`. -/
def parseResponse (response : Response) : Except StructuredLLMError (String × LLMTokenUsage) :=
  match response.json with
  | none => .error (.protocolError "invalid provider response JSON")
  | some (.dict body) =>
    match contentOf body with
    | none => .error (.protocolError "invalid provider response shape")
    | some content =>
      match body.lookup "usage" with
      | some (.dict usage) =>
        match tokensOf usage "prompt_tokens", tokensOf usage "completion_tokens" with
        | some promptTokens, some completionTokens =>
          .ok (content, ⟨promptTokens, completionTokens⟩)
        | _, _ => .error (.protocolError "invalid provider token usage")
      | _ => .error (.protocolError "invalid provider token usage")
  | some _ => .error (.protocolError "invalid provider response shape")

/-! ## Usage -/

/-- A call of `generate`: its request's id, the response model with its `model_validate_json`, and
what its attempts are answered with. -/
structure Generation where
  requestId : String
  ResponseModel : Type
  validate : String → Option ResponseModel
  posted : Nat → Posted

section
variable (policy : StructuredLLMRetryPolicy)

/-- `generate`, with the usage it keeps when it succeeds. -/
def generate (g : Generation) : Except StructuredLLMError (g.ResponseModel × LLMTokenUsage) :=
  match (postWithRetry policy g.posted).2 with
  | .error e => .error e
  | .ok response =>
    match parseResponse response with
    | .error e => .error e
    | .ok (content, usage) =>
      match g.validate content with
      | none => .error (.schemaError "provider returned an invalid structured response")
      | some result => .ok (result, usage)

/-- `_usage`, after one more call has ended. -/
def keepUsage (usages : String → Option LLMTokenUsage) (g : Generation) :
    String → Option LLMTokenUsage :=
  match generate policy g with
  | .ok (_, usage) => Function.update usages g.requestId (some usage)
  | .error _ => usages

/-- `get_usage`, after these calls have ended in this order. -/
def getUsage (generations : List Generation) (requestId : String) :
    Except StructuredLLMError LLMTokenUsage :=
  match generations.foldl (keepUsage policy) (fun _ => none) requestId with
  | some usage => .ok usage
  | none => .error (.lookupError ("unknown LLM request_id: " ++ requestId))

/-- The usage a call has reported for the request. -/
def reported (requestId : String) (g : Generation) : Option LLMTokenUsage :=
  if g.requestId = requestId then (generate policy g).toOption.map (·.2) else none

end

variable {policy : StructuredLLMRetryPolicy} {posted : Nat → Posted}

/-- The answer is one a request may be posted again for. -/
def Posted.transient : Posted → Prop
  | .transportError => True
  | .raised _ => False
  | .response r => r.statusCode = 429 ∨ 500 ≤ r.statusCode

theorem attempted_none_iff {attempt : Nat} :
    attempted policy posted attempt = none ↔ (posted attempt).transient ∧
      attempt < policy.maxAttempts := by
  unfold attempted Posted.transient
  split
  · simp
  · simp
  · next response _ =>
    by_cases hok : 200 ≤ response.statusCode ∧ response.statusCode < 300
    · rw [if_pos hok]
      refine ⟨fun h => (by cases h), fun h => ?_⟩
      omega
    · rw [if_neg hok]
      split <;> simp <;> omega

theorem attempted_ok {attempt : Nat} {response : Response}
    (h : attempted policy posted attempt = some (.ok response)) :
    posted attempt = .response response ∧ 200 ≤ response.statusCode ∧
      response.statusCode < 300 := by
  unfold attempted at h
  split at h
  · split at h <;> cases h
  · cases h
  · next response' heq =>
    split at h
    · next hok =>
      cases h
      exact ⟨heq, hok⟩
    · split at h <;> cases h

/-- How often a request is posted: again only for transient answers, and at most as often as the
policy says. -/
structure Bounded (policy : StructuredLLMRetryPolicy) (posted : Nat → Posted) (requests : Nat) :
    Prop where
  sends : 1 ≤ requests
  bounded : requests ≤ policy.maxAttempts
  repeated : ∀ k, 1 ≤ k → k < requests → (posted k).transient
  last : (posted requests).transient → requests = policy.maxAttempts

theorem postWithRetry_bounded (policy : StructuredLLMRetryPolicy) (posted : Nat → Posted) :
    Bounded policy posted (postWithRetry policy posted).1 ∧
      attempted policy posted (postWithRetry policy posted).1 =
        some (postWithRetry policy posted).2 := by
  have hpositive := policy.one_le_attempts
  obtain ⟨left, hleft⟩ : ∃ left, policy.maxAttempts = left + 1 :=
    ⟨policy.maxAttempts - 1, by omega⟩
  have hends : (attempted policy posted (1 + left)).isSome = true := by
    rw [Option.isSome_iff_ne_none]
    intro hnone
    have hlt := (attempted_none_iff.mp hnone).2
    omega
  obtain ⟨last, result, hle, hlast, hresult, hbefore, hloop⟩ := Retry.loop_ends hends
  have hsent : postWithRetry policy posted = (last, result) := by
    unfold postWithRetry
    rw [hleft, hloop]
    simp only [List.length_range', Prod.mk.injEq, and_true]
    omega
  rw [hsent]
  have hmost : last ≤ policy.maxAttempts := by omega
  refine ⟨⟨hle, hmost, fun k hk hlt => (attempted_none_iff.mp (hbefore k hk hlt)).1,
    fun htransient => ?_⟩, hresult⟩
  show last = policy.maxAttempts
  by_contra hne
  have hnone : attempted policy posted last = none := attempted_none_iff.mpr ⟨htransient, by omega⟩
  rw [hresult] at hnone
  cases hnone

/-- The last call that reported the request's usage. -/
theorem usages_eq (generations : List Generation) (requestId : String) :
    generations.foldl (keepUsage policy) (fun _ => none) requestId =
      generations.reverse.findSome? (reported policy requestId) := by
  induction generations using List.reverseRecOn with
  | nil => rfl
  | append_singleton generations g ih =>
    rw [List.foldl_append, List.reverse_append, List.foldl_cons, List.foldl_nil,
      List.reverse_singleton, List.singleton_append, List.findSome?_cons, ← ih]
    unfold keepUsage reported
    cases hg : generate policy g with
    | error e => simp [Except.toOption]
    | ok kept =>
      by_cases hid : g.requestId = requestId
      · simp [hid, Except.toOption]
      · simp [hid, Function.update_of_ne (Ne.symm hid)]

/-- A call succeeds only with the last answer it got, which is a 2xx one. -/
theorem generate_ok {g : Generation} {result : g.ResponseModel} {usage : LLMTokenUsage}
    (h : generate policy g = .ok (result, usage)) : ∃ response content,
      g.posted (postWithRetry policy g.posted).1 = .response response ∧
      200 ≤ response.statusCode ∧ response.statusCode < 300 ∧
      parseResponse response = .ok (content, usage) ∧ g.validate content = some result := by
  have hends := (postWithRetry_bounded policy g.posted).2
  unfold generate at h
  split at h
  · cases h
  · next response hpost =>
    rw [hpost] at hends
    obtain ⟨hposted, hok⟩ := attempted_ok hends
    split at h
    · cases h
    · next content usage' hparse =>
      split at h
      · cases h
      · next result' hvalid =>
        cases h
        exact ⟨response, content, hposted, hok.1, hok.2, hparse, hvalid⟩

/-- **A request's usage is that of its last answer.** Every call posts its request again for
transient answers only, and at most as often as the policy says; it succeeds only with a 2xx answer,
the last one it got, whose content its own response model validates. Whatever calls have ended
before, `get_usage` returns what the last successful one of the request reported, and raises if
there is none. -/
theorem usage_of_last_answer (policy : StructuredLLMRetryPolicy) (generations : List Generation) :
    (∀ g ∈ generations, Bounded policy g.posted (postWithRetry policy g.posted).1 ∧
      ∀ result usage, generate policy g = .ok (result, usage) → ∃ response content,
        g.posted (postWithRetry policy g.posted).1 = .response response ∧
        200 ≤ response.statusCode ∧ response.statusCode < 300 ∧
        parseResponse response = .ok (content, usage) ∧ g.validate content = some result) ∧
    ∀ requestId usage, getUsage policy generations requestId = .ok usage ↔
      generations.reverse.findSome? (reported policy requestId) = some usage := by
  refine ⟨fun g _ => ⟨(postWithRetry_bounded policy g.posted).1, fun _ _ => generate_ok⟩,
    fun requestId usage => ?_⟩
  unfold getUsage
  rw [usages_eq]
  cases generations.reverse.findSome? (reported policy requestId) <;> simp

/-! ## Three calls -/

/-- An answer with some content, that took so many tokens. -/
def answerOf (content : String) (promptTokens completionTokens : ℤ) : Response where
  statusCode := 200
  json := some (.dict [
    ("choices", .list [.dict [("message", .dict [("content", .str content)])]]),
    ("usage", .dict [("prompt_tokens", .int promptTokens),
      ("completion_tokens", .int completionTokens)])])

/-- The provider is overloaded once. -/
def onceOverloaded (response : Response) : Nat → Posted
  | 1 => .response ⟨503, none⟩
  | _ => .response response

/-- Two models: the one takes any text, and the other only `true` and `false`. The second call of
the request is answered with what its model refuses. -/
def threeCalls : List Generation := [
  ⟨"r1", String, some, onceOverloaded (answerOf "yes" 7 5)⟩,
  ⟨"r2", String, some, fun _ => .response (answerOf "no" 1 1)⟩,
  ⟨"r1", Bool, fun text => if text = "true" then some true
    else if text = "false" then some false else none,
    fun _ => .response (answerOf "yes" 9 9)⟩]

theorem usage_of_last_answer_sample :
    getUsage .default threeCalls "r1" = .ok ⟨7, 5⟩ ∧
      (postWithRetry .default (onceOverloaded (answerOf "yes" 7 5))).1 = 2 ∧
      ∀ usage, getUsage .default threeCalls "r3" ≠ .ok usage := by
  obtain ⟨-, husage⟩ := usage_of_last_answer .default threeCalls
  refine ⟨(husage "r1" ⟨7, 5⟩).mpr rfl, rfl, fun usage h => ?_⟩
  cases (husage "r3" usage).mp h

end ProjectAgent.Agent.Llm
