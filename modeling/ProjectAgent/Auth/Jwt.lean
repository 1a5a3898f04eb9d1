/-
`JwtIdentityVerifier.verify`, and what escapes it besides `JwtIdentityError`.
base64, `json.loads` and HMAC are parameters; doubles and `UUID(text)` are not.
-/
import Mathlib
import ProjectAgent.Basic
import ProjectAgent.Lib.Fallible
import ProjectAgent.Lib.JsonValue

namespace ProjectAgent.Auth

open Double (Number)
open Json (Value)

inductive LoadsError where
  | valueError
  /-- The text is nested too deep. -/
  | recursionError

structure Python where
  /-- `base64.b64decode(text, altchars=b"-_", validate=True)`, which raises a `ValueError` or gives
  the bytes. -/
  b64decode : String → Option ByteArray
  loads : String → Except LoadsError Value
  hmacSha256 : ByteArray → ByteArray → ByteArray

/-- What `verify` raises. -/
inductive Failure where
  | jwtIdentityError (text : String)
  | unicodeEncodeError
  | recursionError
  | overflowError

structure JwtIdentityVerifier where
  secret : ByteArray
  issuer : String
  audience : String
  leewaySeconds : ℕ
  secret_long : 32 ≤ secret.size

/-- `JwtIdentityVerifier(...)`; a negative leeway is none. -/
def JwtIdentityVerifier.new (secret issuer audience : String) (leewaySeconds : ℤ) :
    Except String JwtIdentityVerifier :=
  if h : 32 ≤ secret.toByteArray.size then
    .ok ⟨secret.toByteArray, issuer, audience, leewaySeconds.toNat, h⟩
  else .error "JWT HS256 secret must be at least 32 bytes"

section Verify

variable (python : Python)

/-- `token.split(".")`. -/
def segments (token : String) : List String := (token.toList.splitOn '.').map String.ofList

/-- `_decode_base64url`. -/
def decodeBase64url (value : String) : Option ByteArray :=
  if value = "" then none
  else python.b64decode (value ++ String.ofList (List.replicate ((4 - value.length % 4) % 4) '='))

/-- The text of a segment. -/
def textOf (segment : String) : Option String :=
  (decodeBase64url python segment).bind String.fromUTF8?

/-- `_decode_json_object`. -/
def decodeJsonObject (segment label : String) : Except Failure (List (String × Value)) :=
  match textOf python segment with
  | none => .error (.jwtIdentityError ("invalid JWT " ++ label))
  | some text =>
    match python.loads text with
    | .error .valueError => .error (.jwtIdentityError ("invalid JWT " ++ label))
    | .error .recursionError => .error .recursionError
    | .ok (.dict items) => .ok items
    | .ok _ => .error (.jwtIdentityError ("JWT " ++ label ++ " must be an object"))

def verifyHeader (segment : String) : Except Failure Unit := do
  let header ← decodeJsonObject python segment "header"
  if (Value.get header "alg" .null).isStr "HS256" then .ok ()
  else .error (.jwtIdentityError "JWT algorithm must be HS256")

/-- `text.encode("ascii")`. -/
def encodeAscii (text : String) : Option ByteArray :=
  if text.toList.all (·.val < 128) then some text.toByteArray else none

def verifySignature (verifier : JwtIdentityVerifier) (header payload signature : String) :
    Except Failure Unit :=
  match encodeAscii (header ++ "." ++ payload) with
  | none => .error .unicodeEncodeError
  | some signingInput =>
    match decodeBase64url python signature with
    | none => .error (.jwtIdentityError "invalid JWT signature encoding")
    | some supplied =>
      if python.hmacSha256 verifier.secret signingInput = supplied then .ok ()
      else .error (.jwtIdentityError "JWT signature verification failed")

def audienceOk (audience : String) : Value → Bool
  | .str text => text = audience
  | .list items => items.any (·.isStr audience)
  | _ => false

def validateAddress (verifier : JwtIdentityVerifier) (payload : List (String × Value)) :
    Except Failure Unit :=
  if !(Value.get payload "iss" .null).isStr verifier.issuer then
    .error (.jwtIdentityError "JWT issuer mismatch")
  else if !audienceOk verifier.audience (Value.get payload "aud" .null) then
    .error (.jwtIdentityError "JWT audience mismatch")
  else .ok ()

/-- `float(n)`. -/
def floatOfInt (n : ℤ) : Except Failure Number :=
  match Number.ofInt n with
  | some number => .ok number
  | none => .error .overflowError

/-- `float(value)` of what is an instance of `int` or `float`. -/
def floatOf : Value → Except Failure (Option Number)
  | .int n => (floatOfInt n).map some
  | .bool b => (floatOfInt (if b then 1 else 0)).map some
  | .float number => .ok (some number)
  | _ => .ok none

def validateTimes (verifier : JwtIdentityVerifier) (now : ℚ) (payload : List (String × Value)) :
    Except Failure Unit := do
  match ← floatOf (Value.get payload "exp" .null) with
  | none => .error (.jwtIdentityError "JWT exp claim is required")
  | some exp =>
    let leeway ← floatOfInt verifier.leewaySeconds
    if (exp.add leeway).le (.finite now) then .error (.jwtIdentityError "JWT has expired")
    else match Value.get payload "nbf" .null with
    | .null => .ok ()
    | value => do
      match ← floatOf value with
      | none => .error (.jwtIdentityError "JWT nbf must be numeric")
      | some nbf =>
        if (Number.add (.finite now) leeway).lt nbf then
          .error (.jwtIdentityError "JWT is not active yet") else .ok ()

def subjectOf (payload : List (String × Value)) : Except Failure UUID :=
  match Value.get payload "sub" .null with
  | .str subject =>
    match UUID.parse subject with
    | some userId => .ok userId
    | none => .error (.jwtIdentityError "JWT sub must be a UUID string")
  | _ => .error (.jwtIdentityError "JWT sub must be a UUID string")

/-- `JwtIdentityVerifier.verify`, with the clock's time. -/
def verify (verifier : JwtIdentityVerifier) (now : ℚ) (token : String) : Except Failure UUID :=
  match segments token with
  | [header, payload, signature] => do
    verifyHeader python header
    verifySignature python verifier header payload signature
    let object ← decodeJsonObject python payload "payload"
    validateAddress verifier object
    validateTimes verifier now object
    subjectOf object
  | _ => .error (.jwtIdentityError "JWT must contain three segments")

/-- What a request ends with that is not served. -/
inductive ApiError where
  | unauthorized
  /-- Nothing handles it. -/
  | escaped (failure : Failure)

/-- `get_authenticated_identity`. -/
def getAuthenticatedIdentity (casefold : String → String) (verifier : JwtIdentityVerifier) (now : ℚ)
    (credentials : Option (String × String)) : Except ApiError UUID :=
  match credentials with
  | none => .error .unauthorized
  | some (scheme, token) =>
    if casefold scheme ≠ "bearer" then .error .unauthorized
    else match verify python verifier now token with
    | .ok userId => .ok userId
    | .error (.jwtIdentityError _) => .error .unauthorized
    | .error failure => .error (.escaped failure)

end Verify

end ProjectAgent.Auth
