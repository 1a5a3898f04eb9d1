/-
When `verify` has one failure: which tokens make it raise something other than
`JwtIdentityError`, or give an identity that is not in time.
-/
import ProjectAgent.Auth.Jwt

namespace ProjectAgent.Auth

open Double (Number)
open Json (Value)

variable {python : Python} {verifier : JwtIdentityVerifier} {now : ℚ}
  {token header payload signature segment label : String}
variable {object : List (String × Value)} {failure : Failure} {userId : UUID}

def Failure.isIdentity : Failure → Prop
  | .jwtIdentityError _ => True
  | _ => False

/-! ## The header -/

/-- The segment decodes to a text that is nested too deep. -/
def TooDeep (python : Python) (segment : String) : Prop :=
  ∃ text, textOf python segment = some text ∧ python.loads text = .error .recursionError

theorem decode_failure (h : decodeJsonObject python segment label = .error failure) :
    failure.isIdentity ∨ (failure = .recursionError ∧ TooDeep python segment) := by
  unfold decodeJsonObject at h
  split at h
  · cases h
    exact .inl trivial
  · next text htext =>
    split at h
    · cases h
      exact .inl trivial
    · next hdeep =>
      cases h
      exact .inr ⟨rfl, text, htext, hdeep⟩
    · cases h
    · cases h
      exact .inl trivial

theorem TooDeep.decode (h : TooDeep python segment) :
    decodeJsonObject python segment label = .error .recursionError := by
  obtain ⟨text, htext, hdeep⟩ := h
  unfold decodeJsonObject
  rw [htext]
  dsimp only
  rw [hdeep]

/-- The header is an object, and its algorithm is HS256. -/
def HeaderOk (python : Python) (header : String) : Prop :=
  ∃ object, decodeJsonObject python header "header" = .ok object ∧
    (Value.get object "alg" .null).isStr "HS256"

theorem verifyHeader_ok : verifyHeader python header = .ok () ↔ HeaderOk python header := by
  unfold verifyHeader HeaderOk
  rw [Fallible.bind_eq_ok]
  refine exists_congr fun object => and_congr_right fun _ => ?_
  split
  · next halg => exact ⟨fun _ => halg, fun _ => rfl⟩
  · next halg => exact ⟨nofun, fun h => absurd h halg⟩

theorem verifyHeader_failure (h : verifyHeader python header = .error failure) :
    failure.isIdentity ∨ (failure = .recursionError ∧ TooDeep python header) := by
  unfold verifyHeader at h
  cases hdecode : decodeJsonObject python header "header" with
  | error e =>
    rw [hdecode] at h
    cases h
    exact decode_failure hdecode
  | ok object =>
    rw [hdecode] at h
    dsimp only [bind, Except.bind] at h
    split at h
    · cases h
    · cases h
      exact .inl trivial

theorem TooDeep.verifyHeader (h : TooDeep python header) :
    verifyHeader python header = .error .recursionError := by
  unfold Auth.verifyHeader
  rw [h.decode]
  rfl

/-! ## The signature -/

/-- The third segment is the HMAC-SHA256 of the first two. -/
def Signed (python : Python) (verifier : JwtIdentityVerifier)
    (header payload signature : String) : Prop :=
  ∃ signingInput, encodeAscii (header ++ "." ++ payload) = some signingInput ∧
    decodeBase64url python signature = some (python.hmacSha256 verifier.secret signingInput)

theorem verifySignature_ok : verifySignature python verifier header payload signature = .ok () ↔
    Signed python verifier header payload signature := by
  unfold verifySignature Signed
  constructor
  · intro h
    split at h
    · cases h
    · next signingInput hascii =>
      split at h
      · cases h
      · next supplied hsupplied =>
        split at h
        · next hsame => exact ⟨signingInput, hascii, hsame ▸ hsupplied⟩
        · cases h
  · rintro ⟨signingInput, hascii, hsupplied⟩
    rw [hascii]
    dsimp only
    rw [hsupplied]
    dsimp only
    rw [if_pos rfl]

theorem verifySignature_failure
    (h : verifySignature python verifier header payload signature = .error failure) :
    failure.isIdentity ∨ (failure = .unicodeEncodeError ∧
      encodeAscii (header ++ "." ++ payload) = none) := by
  unfold verifySignature at h
  split at h
  · next hascii =>
    cases h
    exact .inr ⟨rfl, hascii⟩
  · split at h
    · cases h
      exact .inl trivial
    · split at h
      · cases h
      · cases h
        exact .inl trivial

theorem verifySignature_foreign (h : encodeAscii (header ++ "." ++ payload) = none) :
    verifySignature python verifier header payload signature = .error .unicodeEncodeError := by
  unfold verifySignature
  rw [h]

/-! ## The claims -/

/-- Of the issuer and for the audience. -/
def Addressed (verifier : JwtIdentityVerifier) (object : List (String × Value)) : Prop :=
  (Value.get object "iss" .null).isStr verifier.issuer ∧
    audienceOk verifier.audience (Value.get object "aud" .null)

theorem validateAddress_ok :
    validateAddress verifier object = .ok () ↔ Addressed verifier object := by
  unfold validateAddress Addressed
  split
  · next hissuer => exact ⟨nofun, fun h => absurd h.1 (by simpa using hissuer)⟩
  · next hissuer =>
    split
    · next haudience => exact ⟨nofun, fun h => absurd h.2 (by simpa using haudience)⟩
    · next haudience =>
        exact ⟨fun _ => ⟨by simpa using hissuer, by simpa using haudience⟩, fun _ => rfl⟩

theorem validateAddress_failure (h : validateAddress verifier object = .error failure) :
    failure.isIdentity := by
  unfold validateAddress at h
  split at h
  · cases h
    trivial
  · split at h
    · cases h
      trivial
    · cases h

/-! ## The times -/

/-- An integer that is too large for a double. -/
def TooLarge (n : ℤ) : Prop := Number.ofInt n = none

theorem floatOfInt_failure {n : ℤ} (h : floatOfInt n = .error failure) :
    failure = .overflowError ∧ TooLarge n := by
  unfold floatOfInt at h
  split at h
  · cases h
  · next hlarge =>
    cases h
    exact ⟨rfl, hlarge⟩

theorem TooLarge.floatOfInt {n : ℤ} (h : TooLarge n) : floatOfInt n = .error .overflowError := by
  unfold Auth.floatOfInt
  rw [h]

theorem floatOf_failure {value : Value} (h : floatOf value = .error failure) :
    failure = .overflowError ∧ ∃ n, value.int? = some n ∧ TooLarge n := by
  have hmap : ∀ {n : ℤ}, (floatOfInt n).map some = .error failure → failure = .overflowError ∧
      TooLarge n := by
    intro n hn
    cases hfloat : floatOfInt n with
    | ok number =>
      rw [hfloat] at hn
      cases hn
    | error e =>
      rw [hfloat] at hn
      cases hn
      exact floatOfInt_failure hfloat
  cases value with
  | int n =>
    obtain ⟨hfailure, hlarge⟩ := hmap h
    exact ⟨hfailure, n, rfl, hlarge⟩
  | bool b =>
    obtain ⟨hfailure, hlarge⟩ := hmap h
    exact ⟨hfailure, _, rfl, hlarge⟩
  | null | float number | str text | list items | dict items => cases h

theorem floatOf_large {value : Value} {n : ℤ} (hvalue : value.int? = some n) (hlarge : TooLarge n) :
    floatOf value = .error .overflowError := by
  cases value with
  | int m =>
    cases hvalue
    dsimp only [floatOf]
    rw [hlarge.floatOfInt]
    rfl
  | bool b =>
    cases hvalue
    dsimp only [floatOf]
    rw [hlarge.floatOfInt]
    rfl
  | null | float number | str text | list items | dict items => cases hvalue

/-- A double that is no number was written as one. -/
theorem floatOf_nan {value : Value} : floatOf value = .ok (some .nan) ↔ value = .float .nan := by
  have hmap : ∀ {n : ℤ}, (floatOfInt n).map some ≠ .ok (some .nan) := by
    intro n hn
    unfold floatOfInt Number.ofInt at hn
    split at hn
    · next number hnumber =>
      cases hn
      split at hnumber <;> cases hnumber
    · cases hn
  cases value with
  | int n => exact ⟨fun h => absurd h hmap, nofun⟩
  | bool b => exact ⟨fun h => absurd h hmap, nofun⟩
  | float number =>
    constructor
    · intro h
      cases h
      rfl
    · intro h
      cases h
      rfl
  | null | str text | list items | dict items => exact ⟨nofun, nofun⟩

theorem floatOfInt_finite {n : ℤ} {number : Number} (h : floatOfInt n = .ok number) :
    ∃ q, number = .finite q := by
  unfold floatOfInt Number.ofInt at h
  split at h
  · next found hfound =>
    cases h
    split at hfound
    · cases hfound
    · cases hfound
      exact ⟨_, rfl⟩
  · cases h

theorem add_finite_eq_nan {x : Number} {q : ℚ} : x.add (.finite q) = .nan ↔ x = .nan := by
  cases x with
  | nan => exact ⟨fun _ => rfl, fun _ => rfl⟩
  | infinity n => exact ⟨nofun, nofun⟩
  | finite p => exact ⟨fun h => absurd h Number.ofRat_ne_nan, nofun⟩

/-- Neither check of a time fails: it is not past the expiry, nor before the start. -/
def Unexpired (verifier : JwtIdentityVerifier) (now : ℚ) (object : List (String × Value))
    (leeway : Number) : Prop :=
  ∃ exp, floatOf (Value.get object "exp" .null) = .ok (some exp) ∧
    floatOfInt verifier.leewaySeconds = .ok leeway ∧
    (exp.add leeway).le (.finite now) = false

def Passes (verifier : JwtIdentityVerifier) (now : ℚ) (object : List (String × Value)) : Prop :=
  ∃ leeway, Unexpired verifier now object leeway ∧ (Value.get object "nbf" .null = .null ∨
    ∃ nbf, floatOf (Value.get object "nbf" .null) = .ok (some nbf) ∧
      (Number.add (.finite now) leeway).lt nbf = false)

/-- It is before the expiry and not before the start, by doubles. -/
def InTime (verifier : JwtIdentityVerifier) (now : ℚ) (object : List (String × Value)) : Prop :=
  ∃ exp leeway, floatOf (Value.get object "exp" .null) = .ok (some exp) ∧
    floatOfInt verifier.leewaySeconds = .ok leeway ∧
    (Number.finite now).lt (exp.add leeway) = true ∧ (Value.get object "nbf" .null = .null ∨
      ∃ nbf, floatOf (Value.get object "nbf" .null) = .ok (some nbf) ∧
        nbf.le (Number.add (.finite now) leeway) = true)

/-- A number of the claims, or the leeway, is too large for a double. -/
def Overflows (verifier : JwtIdentityVerifier) (now : ℚ) (object : List (String × Value)) : Prop :=
  (∃ n, (Value.get object "exp" .null).int? = some n ∧ TooLarge n) ∨
    (∃ exp, floatOf (Value.get object "exp" .null) = .ok (some exp) ∧
      TooLarge verifier.leewaySeconds) ∨
    ∃ leeway n, Unexpired verifier now object leeway ∧
      (Value.get object "nbf" .null).int? = some n ∧ TooLarge n

/-- `NaN` is the expiry or the start. -/
def NotANumber (object : List (String × Value)) : Prop :=
  Value.get object "exp" .null = .float .nan ∨ Value.get object "nbf" .null = .float .nan

theorem Unexpired.unique {leeway leeway' : Number} (h : Unexpired verifier now object leeway)
    (h' : floatOfInt verifier.leewaySeconds = .ok leeway') : leeway = leeway' := by
  obtain ⟨exp, -, hleeway, -⟩ := h
  exact Except.ok.inj (hleeway.symm.trans h')

/-- What the checks of the times end with. -/
theorem validateTimes_cases :
    (validateTimes verifier now object = .ok () ∧ Passes verifier now object) ∨
    (∃ text, validateTimes verifier now object = .error (.jwtIdentityError text)) ∨
    (validateTimes verifier now object = .error .overflowError ∧
      Overflows verifier now object) := by
  unfold validateTimes
  cases hexp : floatOf (Value.get object "exp" .null) with
  | error e =>
    obtain ⟨rfl, hlarge⟩ := floatOf_failure hexp
    exact .inr (.inr ⟨rfl, .inl hlarge⟩)
  | ok found =>
    cases found with
    | none => exact .inr (.inl ⟨_, rfl⟩)
    | some exp =>
      dsimp only [bind, Except.bind]
      cases hleeway : floatOfInt verifier.leewaySeconds with
      | error e =>
        obtain ⟨rfl, hlarge⟩ := floatOfInt_failure hleeway
        exact .inr (.inr ⟨rfl, .inr (.inl ⟨exp, hexp, hlarge⟩)⟩)
      | ok leeway =>
        dsimp only
        split
        · exact .inr (.inl ⟨_, rfl⟩)
        · next hunexpired =>
          have hunexpired : Unexpired verifier now object leeway :=
            ⟨exp, hexp, hleeway, Bool.eq_false_iff.mpr hunexpired⟩
          split
          · next hnone => exact .inl ⟨rfl, leeway, hunexpired, .inl hnone⟩
          · cases hnbf : floatOf (Value.get object "nbf" .null) with
            | error e =>
              obtain ⟨rfl, n, hn, hlarge⟩ := floatOf_failure hnbf
              exact .inr (.inr ⟨rfl, .inr (.inr ⟨leeway, n, hunexpired, hn, hlarge⟩)⟩)
            | ok found =>
              cases found with
              | none => exact .inr (.inl ⟨_, rfl⟩)
              | some nbf =>
                dsimp only
                split
                · exact .inr (.inl ⟨_, rfl⟩)
                · next hactive =>
                    exact .inl ⟨rfl, leeway, hunexpired,
                      .inr ⟨nbf, hnbf, Bool.eq_false_iff.mpr hactive⟩⟩

theorem Passes.validateTimes (h : Passes verifier now object) :
    validateTimes verifier now object = .ok () := by
  obtain ⟨leeway, ⟨exp, hexp, hleeway, hexpiry⟩, hstart⟩ := h
  unfold Auth.validateTimes
  rw [hexp]
  dsimp only [bind, Except.bind]
  rw [hleeway]
  dsimp only
  rw [hexpiry, if_neg Bool.false_ne_true]
  rcases hstart with hnone | ⟨nbf, hnbf, hactive⟩
  · rw [hnone]
  · split
    · rfl
    · rw [hnbf]
      dsimp only
      rw [hactive, if_neg Bool.false_ne_true]

theorem Overflows.validateTimes (h : Overflows verifier now object) :
    validateTimes verifier now object = .error .overflowError := by
  unfold Auth.validateTimes
  rcases h with ⟨n, hn, hlarge⟩ | ⟨exp, hexp, hlarge⟩ |
    ⟨leeway, n, ⟨exp, hexp, hleeway, hexpiry⟩, hn, hlarge⟩
  · rw [floatOf_large hn hlarge]
    rfl
  · rw [hexp]
    dsimp only [bind, Except.bind]
    rw [hlarge.floatOfInt]
  · rw [hexp]
    dsimp only [bind, Except.bind]
    rw [hleeway]
    dsimp only
    rw [hexpiry, if_neg Bool.false_ne_true]
    split
    · next hnone =>
      rw [hnone] at hn
      cases hn
    · rw [floatOf_large hn hlarge]

/-- What passes is in time, but for what is not a number. -/
theorem Passes.inTime (h : Passes verifier now object) :
    InTime verifier now object ↔ ¬ NotANumber object := by
  obtain ⟨leeway, ⟨exp, hexp, hleeway, hexpiry⟩, hstart⟩ := h
  obtain ⟨q, hfinite⟩ := floatOfInt_finite hleeway
  constructor
  · rintro ⟨exp', leeway', hexp', hleeway', hbefore, hafter⟩ (hnan | hnan)
    · have hread : floatOf (Value.get object "exp" .null) = .ok (some .nan) := floatOf_nan.mpr hnan
      cases hexp'.symm.trans hread
      cases hleeway'.symm.trans hleeway
      subst hfinite
      cases hbefore
    · have hread : floatOf (Value.get object "nbf" .null) = .ok (some .nan) := floatOf_nan.mpr hnan
      rcases hafter with hnone | ⟨nbf, hnbf, hle⟩
      · rw [hnan] at hnone
        cases hnone
      · cases hnbf.symm.trans hread
        rw [Number.le_nan] at hle
        cases hle
  · intro hnumber
    have hexpNumber : exp ≠ .nan := fun hnan => hnumber (.inl (floatOf_nan.mp (hnan ▸ hexp)))
    refine ⟨exp, leeway, hexp, hleeway, ?_, hstart.imp_right ?_⟩
    · rcases Number.lt_of_not_le hexpiry with hlt | hnan | hnan
      · exact hlt
      · rw [hfinite, add_finite_eq_nan] at hnan
        exact absurd hnan hexpNumber
      · cases hnan
    · rintro ⟨nbf, hnbf, hactive⟩
      refine ⟨nbf, hnbf, ?_⟩
      have hnbfNumber : nbf ≠ .nan := fun hnan => hnumber (.inr (floatOf_nan.mp (hnan ▸ hnbf)))
      have hlater : Number.add (.finite now) leeway ≠ .nan := by
        rw [hfinite]
        exact Number.ofRat_ne_nan
      cases hle : nbf.le (Number.add (.finite now) leeway) with
      | true => rfl
      | false =>
        rcases Number.lt_of_not_le hle with hlt | hnan | hnan
        · exact absurd (hlt.symm.trans hactive) Bool.true_eq_false.mp
        · exact absurd hnan hnbfNumber
        · exact absurd hnan hlater

/-! ## One failure -/

/-- The subject is a UUID. -/
def Subject (object : List (String × Value)) (userId : UUID) : Prop :=
  ∃ subject, Value.get object "sub" .null = .str subject ∧ UUID.parse subject = some userId

theorem subjectOf_ok : subjectOf object = .ok userId ↔ Subject object userId := by
  unfold subjectOf Subject
  constructor
  · intro h
    split at h
    · next subject hsubject =>
      split at h
      · next found hfound =>
        cases h
        exact ⟨subject, hsubject, hfound⟩
      · cases h
    · cases h
  · rintro ⟨subject, hsubject, hfound⟩
    rw [hsubject]
    dsimp only
    rw [hfound]

theorem subjectOf_failure (h : subjectOf object = .error failure) : failure.isIdentity := by
  unfold subjectOf at h
  split at h
  · split at h
    · cases h
    · cases h
      trivial
  · cases h
    trivial

/-- A token whose header and signature are right, and the claims it carries. -/
def Trusted (python : Python) (verifier : JwtIdentityVerifier) (token : String)
    (object : List (String × Value)) : Prop :=
  ∃ header payload signature, segments token = [header, payload, signature] ∧
    HeaderOk python header ∧
    Signed python verifier header payload signature ∧
      decodeJsonObject python payload "payload" = .ok object

/-- What an identity is to be returned for. -/
def Genuine (python : Python) (verifier : JwtIdentityVerifier) (now : ℚ) (token : String)
    (userId : UUID) : Prop :=
  ∃ object, Trusted python verifier token object ∧ Addressed verifier object ∧
    InTime verifier now object ∧ Subject object userId

/-- `verify` raises `JwtIdentityError` or returns a genuine identity. -/
def OneFailure (python : Python) (verifier : JwtIdentityVerifier) (now : ℚ)
    (token : String) : Prop :=
  match verify python verifier now token with
  | .ok userId => Genuine python verifier now token userId
  | .error failure => failure.isIdentity

/-- The tokens that are treated otherwise. -/
inductive Odd (python : Python) (verifier : JwtIdentityVerifier) (now : ℚ)
    (token : String) : Prop where
  | deepHeader {header payload signature : String} : segments token = [header, payload, signature] →
      TooDeep python header →
      Odd python verifier now token
  | foreignText {header payload signature : String} : segments token =
      [header, payload, signature] → HeaderOk python header →
      encodeAscii (header ++ "." ++ payload) = none → Odd python verifier now token
  | deepPayload {header payload signature : String} : segments token =
      [header, payload, signature] → HeaderOk python header →
      Signed python verifier header payload signature → TooDeep python payload →
        Odd python verifier now token
  | tooLarge {object : List (String × Value)} : Trusted python verifier token object →
      Addressed verifier object → Overflows verifier now object →
      Odd python verifier now token
  | notANumber {object : List (String × Value)} {userId : UUID} :
      Trusted python verifier token object → Addressed verifier object →
      Passes verifier now object →
      Subject object userId → NotANumber object → Odd python verifier now token

/-- What `verify` does with three segments. -/
theorem verify_segments {signature : String} (h : segments token = [header, payload, signature]) :
    verify python verifier now token = (do
      verifyHeader python header
      verifySignature python verifier header payload signature
      let object ← decodeJsonObject python payload "payload"
      validateAddress verifier object
      validateTimes verifier now object
      subjectOf object) := by
  unfold verify
  rw [h]

/-- With the claims of a trusted token. -/
theorem verify_trusted (h : Trusted python verifier token object) :
    verify python verifier now token = (do
      validateAddress verifier object
      validateTimes verifier now object
      subjectOf object) := by
  obtain ⟨header, payload, signature, hsegments, hheader, hsigned, hobject⟩ := h
  rw [verify_segments hsegments, verifyHeader_ok.mpr hheader]
  dsimp only [bind, Except.bind]
  rw [verifySignature_ok.mpr hsigned]
  dsimp only
  rw [hobject]

theorem Trusted.unique {object' : List (String × Value)} (h : Trusted python verifier token object)
    (h' : Trusted python verifier token object') : object = object' := by
  obtain ⟨header, payload, signature, hsegments, -, -, hobject⟩ := h
  obtain ⟨header', payload', signature', hsegments', -, -, hobject'⟩ := h'
  cases hsegments.symm.trans hsegments'
  exact Except.ok.inj (hobject.symm.trans hobject')

theorem Odd.not_oneFailure (h : Odd python verifier now token) :
    ¬ OneFailure python verifier now token := by
  unfold OneFailure
  cases h with
  | deepHeader hsegments hdeep =>
    rw [verify_segments hsegments, hdeep.verifyHeader]
    exact id
  | foreignText hsegments hheader hforeign =>
    rw [verify_segments hsegments, verifyHeader_ok.mpr hheader]
    dsimp only [bind, Except.bind]
    rw [verifySignature_foreign hforeign]
    exact id
  | deepPayload hsegments hheader hsigned hdeep =>
    rw [verify_segments hsegments, verifyHeader_ok.mpr hheader]
    dsimp only [bind, Except.bind]
    rw [verifySignature_ok.mpr hsigned]
    dsimp only
    rw [hdeep.decode]
    exact id
  | tooLarge htrusted haddressed hlarge =>
    rw [verify_trusted htrusted, validateAddress_ok.mpr haddressed]
    dsimp only [bind, Except.bind]
    rw [hlarge.validateTimes]
    exact id
  | @notANumber object userId htrusted haddressed hpasses hsubject hnumber =>
    rw [verify_trusted htrusted, validateAddress_ok.mpr haddressed]
    dsimp only [bind, Except.bind]
    rw [hpasses.validateTimes]
    dsimp only
    rw [subjectOf_ok.mpr hsubject]
    rintro ⟨object', htrusted', -, hintime, -⟩
    cases htrusted.unique htrusted'
    exact hpasses.inTime.mp hintime hnumber

theorem oneFailure_or_odd :
    OneFailure python verifier now token ∨ Odd python verifier now token := by
  unfold OneFailure
  by_cases hthree : ∃ header payload signature, segments token = [header, payload, signature]
  · obtain ⟨header, payload, signature, hsegments⟩ := hthree
    cases hheader : verifyHeader python header with
    | error e =>
      rcases verifyHeader_failure hheader with hidentity | ⟨-, hdeep⟩
      · rw [verify_segments hsegments, hheader]
        exact .inl hidentity
      · exact .inr (.deepHeader hsegments hdeep)
    | ok =>
      have hheader := verifyHeader_ok.mp hheader
      cases hsigned : verifySignature python verifier header payload signature with
      | error e =>
        rcases verifySignature_failure hsigned with hidentity | ⟨-, hforeign⟩
        · rw [verify_segments hsegments, verifyHeader_ok.mpr hheader]
          dsimp only [bind, Except.bind]
          rw [hsigned]
          exact .inl hidentity
        · exact .inr (.foreignText hsegments hheader hforeign)
      | ok =>
        have hsigned := verifySignature_ok.mp hsigned
        cases hobject : decodeJsonObject python payload "payload" with
        | error e =>
          rcases decode_failure hobject with hidentity | ⟨-, hdeep⟩
          · rw [verify_segments hsegments, verifyHeader_ok.mpr hheader]
            dsimp only [bind, Except.bind]
            rw [verifySignature_ok.mpr hsigned]
            dsimp only
            rw [hobject]
            exact .inl hidentity
          · exact .inr (.deepPayload hsegments hheader hsigned hdeep)
        | ok object =>
          have htrusted : Trusted python verifier token object :=
            ⟨header, payload, signature, hsegments, hheader, hsigned, hobject⟩
          rw [verify_trusted htrusted]
          cases haddress : validateAddress verifier object with
          | error e => exact .inl (validateAddress_failure haddress)
          | ok =>
            have haddressed := validateAddress_ok.mp haddress
            dsimp only [bind, Except.bind]
            rcases validateTimes_cases with ⟨htimes, hpasses⟩ | ⟨text, htimes⟩ | ⟨-, hlarge⟩
            · rw [htimes]
              dsimp only
              cases hsubject : subjectOf object with
              | error e => exact .inl (subjectOf_failure hsubject)
              | ok userId =>
                have hsubject := subjectOf_ok.mp hsubject
                by_cases hnumber : NotANumber object
                · exact .inr (.notANumber htrusted haddressed hpasses hsubject hnumber)
                · exact .inl ⟨object, htrusted, haddressed, hpasses.inTime.mpr hnumber, hsubject⟩
            · rw [htimes]
              exact .inl trivial
            · exact .inr (.tooLarge htrusted haddressed hlarge)
  · have hverify : verify python verifier now token =
        .error (.jwtIdentityError "JWT must contain three segments") := by
      unfold verify
      split
      · next hsegments => exact absurd ⟨_, _, _, hsegments⟩ hthree
      · rfl
    rw [hverify]
    exact .inl trivial

/-- What escapes a request is what escapes `verify`. -/
theorem escaped_iff {casefold : String → String} {scheme : String} :
    getAuthenticatedIdentity python casefold verifier now (some (scheme, token)) =
      .error (.escaped failure) ↔
      casefold scheme = "bearer" ∧ verify python verifier now token = .error failure ∧
        ¬ failure.isIdentity := by
  unfold getAuthenticatedIdentity
  dsimp only
  by_cases hscheme : casefold scheme = "bearer"
  · rw [if_neg (not_not.mpr hscheme), and_iff_right hscheme]
    cases hverify : verify python verifier now token with
    | ok userId => exact ⟨nofun, fun h => nomatch h.1⟩
    | error e =>
      cases e with
      | jwtIdentityError text =>
        refine ⟨nofun, fun h => absurd ?_ h.2⟩
        cases h.1
        trivial
      | unicodeEncodeError | recursionError | overflowError =>
        refine ⟨fun h => ?_, fun h => ?_⟩
        · cases h
          exact ⟨rfl, id⟩
        · cases h.1
          rfl
  · rw [if_pos hscheme]
    exact ⟨nofun, fun h => absurd h.1 hscheme⟩

/-- **When a token has one failure**: unless it is odd. Of what `verify` raises a request turns away
only that one. -/
theorem one_failure : (OneFailure python verifier now token ↔ ¬ Odd python verifier now token) ∧
    ∀ casefold scheme failure,
      getAuthenticatedIdentity python casefold verifier now (some (scheme, token)) =
        .error (.escaped failure) ↔
        casefold scheme = "bearer" ∧ verify python verifier now token = .error failure ∧
          ¬ failure.isIdentity :=
  ⟨⟨fun hone hodd => hodd.not_oneFailure hone, fun hodd => oneFailure_or_odd.resolve_right hodd⟩,
    fun _ _ _ => escaped_iff⟩

/-- The header of HS256, which is all that is decoded here. -/
def headerPython : Python where
  b64decode text := if text = "eyJhbGciOiJIUzI1NiJ9" then
    some "\x7b\x22alg\x22:\x22HS256\x22\x7d".toByteArray else none
  loads text :=
    if text = "\x7b\x22alg\x22:\x22HS256\x22\x7d" then .ok (.dict [("alg", .str "HS256")])
    else .error .valueError
  hmacSha256 _ _ := ByteArray.empty

/-- A verifier whose secret is zero. -/
def zeroVerifier : JwtIdentityVerifier :=
  ⟨⟨Array.replicate 32 0⟩, "project-agent", "project-agent-api", 0, by decide⟩

theorem fromUTF8_toByteArray (text : String) : String.fromUTF8? text.toByteArray = some text := by
  unfold String.fromUTF8?
  rw [dif_pos text.isValidUTF8]
  rfl

theorem headerPython_header :
    decodeJsonObject headerPython "eyJhbGciOiJIUzI1NiJ9" "header" =
      .ok [("alg", .str "HS256")] := by
  have hbytes : decodeBase64url headerPython "eyJhbGciOiJIUzI1NiJ9" =
      some "\x7b\x22alg\x22:\x22HS256\x22\x7d".toByteArray := by rfl
  have htext : textOf headerPython "eyJhbGciOiJIUzI1NiJ9" =
      some "\x7b\x22alg\x22:\x22HS256\x22\x7d" := by
    unfold textOf
    rw [hbytes, Option.bind_some, fromUTF8_toByteArray]
  unfold decodeJsonObject
  rw [htext]
  rfl

/-- **A payload that is not ASCII escapes**: what it raises is not `JwtIdentityError`. -/
theorem foreign_payload_escapes :
    ¬ ∀ python verifier now token, OneFailure python verifier now token := by
  intro hall
  have hsegments : segments "eyJhbGciOiJIUzI1NiJ9.é.x" = ["eyJhbGciOiJIUzI1NiJ9", "é", "x"] := by
    decide +kernel
  have hforeign : encodeAscii ("eyJhbGciOiJIUzI1NiJ9" ++ "." ++ "é") = none := by rfl
  have hodd : Odd headerPython zeroVerifier 0 "eyJhbGciOiJIUzI1NiJ9.é.x" :=
    .foreignText hsegments ⟨_, headerPython_header, by decide⟩ hforeign
  exact hodd.not_oneFailure (hall _ _ _ _)

end ProjectAgent.Auth
