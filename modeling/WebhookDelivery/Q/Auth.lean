/-
Request headers and the checks on them.

A header value is text if `to_str` accepts it, that is if it is visible ASCII,
and else bytes that no check reads.  `get` takes the first value of a name.
HMAC-SHA256 is a parameter, a function of the secret and the body.
-/
import WebhookDelivery.Q.Model
import WebhookDelivery.Text.Ascii

namespace WebhookDelivery
namespace Q

inductive StatusCode
  | badRequest
  | unauthorized
  | forbidden
  | notFound
  | tooManyRequests
  | internalServerError
  deriving DecidableEq

/-- `ApiError`: a status and a message a client may see. -/
structure ApiError where
  status : StatusCode
  message : String
  deriving DecidableEq

namespace ApiError

def badRequest (message : String) : ApiError := ⟨.badRequest, message⟩

def unauthorized : ApiError := ⟨.unauthorized, "unauthorized"⟩

def tooManyRequests : ApiError := ⟨.tooManyRequests, "rate limit exceeded"⟩

def forbidden (message : String) : ApiError := ⟨.forbidden, message⟩

def notFound (message : String) : ApiError := ⟨.notFound, message⟩

def internal (message : String) : ApiError := ⟨.internalServerError, message⟩

end ApiError

/-! ## Headers -/

/-- The headers that a check or a handler reads. -/
inductive HeaderName
  | authorization
  | xWebhookSignature
  | idempotencyKey
  deriving DecidableEq

inductive HeaderValue
  | text (s : String)
  | bytes (b : List UInt8)

/-- `to_str`. -/
def HeaderValue.toStr : HeaderValue → Option String
  | .text s => some s
  | .bytes _ => none

/-- The values of each header, in the order of the request. -/
abbrev HeaderMap := HeaderName → List HeaderValue

def HeaderMap.get (headers : HeaderMap) (name : HeaderName) : Option HeaderValue :=
  (headers name).head?

def HeaderMap.containsKey (headers : HeaderMap) (name : HeaderName) : Bool :=
  (headers.get name).isSome

def asBytes (s : String) : List UInt8 := s.toUTF8.data.toList

theorem asBytes_inj {s t : String} (h : asBytes s = asBytes t) : s = t := Text.utf8_inj h

/-- `strip_prefix`. -/
def stripPrefix (pre s : String) : Option String :=
  if pre.toList.isPrefixOf s.toList then some (String.ofList (s.toList.drop pre.toList.length))
  else none

/-! ## Bearer tokens -/

/-- `constant_time_eq`: which bytes differ does not show in the time, and the
answer is that of `==`. -/
def constantTimeEq (a b : List UInt8) : Bool := a = b

def bearerToken (headers : HeaderMap) : Option String :=
  match (headers.get .authorization).bind HeaderValue.toStr with
  | none => none
  | some value =>
    match stripPrefix "Bearer " value with
    | some token => some token
    | none => stripPrefix "bearer " value

def checkBearer (headers : HeaderMap) (keys : List String) : Bool :=
  match bearerToken headers with
  | some token => keys.any fun k => constantTimeEq (asBytes token) (asBytes k)
  | none => false

theorem checkBearer_iff {headers : HeaderMap} {keys : List String} :
    checkBearer headers keys = true ↔ ∃ k ∈ keys, bearerToken headers = some k := by
  unfold checkBearer
  cases hb : bearerToken headers with
  | none => simp
  | some token =>
    simp only [List.any_eq_true, constantTimeEq, decide_eq_true_eq, Option.some.injEq]
    constructor
    · rintro ⟨k, hk, hbytes⟩
      exact ⟨k, hk, asBytes_inj hbytes⟩
    · rintro ⟨k, hk, rfl⟩
      exact ⟨token, hk, rfl⟩

/-! ## Signatures -/

def hexNib (c : UInt8) : Option UInt8 :=
  if 48 ≤ c ∧ c ≤ 57 then some (c - 48)
  else if 97 ≤ c ∧ c ≤ 102 then some (c - 97 + 10)
  else if 65 ≤ c ∧ c ≤ 70 then some (c - 65 + 10)
  else none

/-- The loop of `hex_decode`; an odd length has been ruled out. -/
def hexPairs : List UInt8 → Option (List UInt8)
  | hi :: lo :: rest =>
    match hexNib hi, hexNib lo, hexPairs rest with
    | some h, some l, some out => some ((h <<< 4 ||| l) :: out)
    | _, _, _ => none
  | _ => some []

def hexDecode (s : String) : Option (List UInt8) :=
  if (asBytes s).length % 2 = 0 then hexPairs (asBytes s) else none

/-- `hmac` gives the code of a body under a secret. -/
def checkHmac (hmac : List UInt8 → List UInt8 → List UInt8) (headers : HeaderMap)
    (rawBody : List UInt8) (secret : String) : Bool :=
  match headers.get .xWebhookSignature with
  | none => false
  | some value =>
    match value.toStr with
    | none => false
    | some header =>
      match stripPrefix "sha256=" header with
      | none => false
      | some provided =>
        constantTimeEq ((hexDecode provided).getD []) (hmac (asBytes secret) rawBody)

/-- `authorized`: the signature decides if there is one and a secret is
configured, and else the bearer token. -/
def authorized (hmac : List UInt8 → List UInt8 → List UInt8) (headers : HeaderMap)
    (rawBody : List UInt8) (hmacSecret : Option String) (apiKeys : List String) : Bool :=
  match hmacSecret with
  | some secret =>
    if headers.containsKey .xWebhookSignature then checkHmac hmac headers rawBody secret
    else checkBearer headers apiKeys
  | none => checkBearer headers apiKeys

def adminAuthorized (headers : HeaderMap) (adminKey : String) : Bool :=
  match bearerToken headers with
  | some token => constantTimeEq (asBytes token) (asBytes adminKey)
  | none => false

def requireAdmin (headers : HeaderMap) (adminKey : String) : Except ApiError Unit :=
  if adminAuthorized headers adminKey then .ok () else .error .unauthorized

end Q
end WebhookDelivery
