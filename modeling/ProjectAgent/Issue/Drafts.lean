/-
`IssueDraftService`: the create request a draft stands for, and the hash that
a confirmation is bound to. The hash is SHA-256 of the request's JSON text;
where SHA-256 is taken to be injective, the hash names the request
(`payloadHash_inj`), and so the draft (`draft_of_hash`).
-/
import ProjectAgent.Identifiers.Domain

namespace ProjectAgent

/-- What the services are built with: `IdentifierExtractor.extract`, the hex
digest of SHA-256 over the UTF-8 encoding of a text's characters, and the confirmation TTL. -/
structure Deps where
  extract : String → List Identifiers.ExtractedIdentifier
  sha256 : List Char → String
  ttl : Nat

namespace Deps

variable (deps : Deps)

def errorCode (description : String) : Option String :=
  ((deps.extract description).find? (·.identifierType == .ERROR_CODE)).map (·.normalizedValue)

def details (draft : IssueDraft) : List String :=
  [draft.description] ++
  (if draft.reproductionSteps = [] then []
    else ["\nReproduction steps:\n" ++ "\n".intercalate (draft.reproductionSteps.map ("- " ++ ·))])
      ++
  ((orNone draft.expectedBehavior).map ("\nExpected behavior:\n" ++ ·)).toList ++
  ((orNone draft.actualBehavior).map ("\nActual behavior:\n" ++ ·)).toList

def buildCreateRequest (draft : IssueDraft) : CreateIssueRequest where
  projectId := draft.projectId
  requestId := draft.id
  title := draft.title
  description := String.join (details draft)
  issueType := draft.issueType
  priority := draft.proposedPriority
  reporterId := draft.createdBy
  module := draft.module
  errorCode := deps.errorCode draft.description
  environment := draft.environment

def payload (request : CreateIssueRequest) : List Json.Member :=
  [("project_id", some request.projectId.str),
   ("request_id", some request.requestId.str),
   ("title", some request.title),
   ("description", some request.description),
   ("issue_type", some request.issueType),
   ("priority", some request.priority),
   ("reporter_id", some request.reporterId.str),
   ("module", request.module),
   ("error_code", request.errorCode),
   ("environment", request.environment)]

def payloadHash (request : CreateIssueRequest) : String :=
  deps.sha256 (Json.dumps (payload request))

/-- A draft's hash, the one `prepare` shows and `record_decision` checks. -/
def draftHash (draft : IssueDraft) : String := deps.payloadHash (deps.buildCreateRequest draft)

/-- A request is its payload, whatever the order of the members. -/
theorem payload_inj {r r' : CreateIssueRequest} (h : (payload r).Perm (payload r')) : r = r' := by
  have hmem : ∀ m ∈ payload r, m ∈ payload r' := fun m hm => h.mem_iff.mp hm
  simp only [payload, List.mem_cons, List.not_mem_nil, or_false, forall_eq_or_imp, forall_eq,
    Prod.mk.injEq,
    String.reduceEq, false_and, true_and, false_or, Option.some.injEq] at hmem
  obtain ⟨hp, hq, ht, hd, hi, hr, hre, hm, he, hv⟩ := hmem
  cases r
  cases r'
  simp_all only [CreateIssueRequest.mk.injEq, true_and, and_true]
  exact ⟨UUID.str_inj hp, UUID.str_inj hq, UUID.str_inj hre⟩

/-- **The hash names the request.** -/
theorem payloadHash_inj (hsha : Function.Injective deps.sha256) {r r' : CreateIssueRequest}
    (h : deps.payloadHash r = deps.payloadHash r') : r = r' :=
  payload_inj (Json.dumps_perm (hsha h))

/-- A draft's id is its request's, so a hash belongs to one draft only. -/
theorem draft_of_hash (hsha : Function.Injective deps.sha256) {d d' : IssueDraft}
    (h : deps.draftHash d = deps.draftHash d') : d.id = d'.id :=
  congrArg CreateIssueRequest.requestId (deps.payloadHash_inj hsha h)

end Deps

end ProjectAgent
