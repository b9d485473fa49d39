import SafeSend.Enums
import SafeSend.Text
/-!
# Errors

The exceptions the program tells apart, and the one boundary that classifies them.  An exception the boundary has no
arm for is `other`.  Status is consulted only as a last resort, where the provider gave no code the tables know.
-/
namespace SafeSend

def GOOGLE_NEEDS_RECONNECT : List String := ["invalid_grant"]

def GOOGLE_CONFIG : List String :=
  ["invalid_client", "deleted_client", "unauthorized_client", "invalid_scope", "invalid_request"]

def GOOGLE_TRANSIENT : List String :=
  ["rateLimitExceeded", "userRateLimitExceeded", "backendError", "internalError", "authError"]

def GOOGLE_PERMANENT : List String :=
  ["insufficientPermissions", "domainPolicy", "dailyLimitExceeded", "invalidArgument", "failedPrecondition",
    "invalid_recipient"]

def SLACK_TRANSIENT : List String :=
  ["ratelimited", "request_timeout", "service_unavailable", "internal_error", "fatal_error"]

def SLACK_NEEDS_RECONNECT : List String :=
  ["token_revoked", "account_inactive", "token_expired", "invalid_auth", "not_authed", "org_login_required"]

def SLACK_PERMANENT : List String :=
  ["missing_scope", "not_allowed_token_type", "channel_not_found", "is_archived", "no_permission", "restricted_action",
    "no_text", "no_query", "invalid_arguments", "not_in_channel"]

/-- A float of seconds, as `float(header)` may give it. -/
inductive Seconds
  | fin (q : Rat)
  | posInf
  | negInf
  | nan
  deriving DecidableEq, Repr

structure ProviderError where
  provider : String
  code : String
  detail : String := ""
  status : Option Nat := none
  retryAfter : Option Seconds := none
  deriving DecidableEq, Repr

def ProviderError.str (e : ProviderError) : String := Text.strip (e.provider ++ ":" ++ e.code ++ " " ++ e.detail)

/-- An exception a handler may raise, with its text. -/
inductive Exn
  | needsReconnect (connectionId : Nat) (detail : String)
  | tokenUnavailable (detail : String)
  | provider (e : ProviderError)
  /-- `httpx.TimeoutException`, `NetworkError` or `RemoteProtocolError`. -/
  | transport (detail : String)
  /-- `TimeoutError`, `ConnectionError` or another `OSError`. -/
  | os (detail : String)
  | httpStatus (status : Nat) (detail : String)
  | other (detail : String)
  deriving DecidableEq, Repr

/-- `str(exc)`. -/
def Exn.str : Exn → String
  | needsReconnect _ d | tokenUnavailable d | transport d | os d | httpStatus _ d | other d => d
  | provider e => e.str

/-- Only reached when the provider gave no identifier the tables know. -/
def fallback (e : ProviderError) (default : ErrorClass) : ErrorClass :=
  match e.status with
  | none => default
  | some n => if n ≥ 500 then .transient else if n = 429 then .transient else default

def classifyProviderError (e : ProviderError) : ErrorClass :=
  if e.provider = "slack" then
    if e.code ∈ SLACK_TRANSIENT then .transient
    else if e.code ∈ SLACK_NEEDS_RECONNECT then .needsReconnect
    else if e.code ∈ SLACK_PERMANENT then .permanent
    else fallback e .permanent
  else if e.provider = "google" then
    if e.code ∈ GOOGLE_NEEDS_RECONNECT then .needsReconnect
    else if e.code ∈ GOOGLE_CONFIG then .config
    else if e.code ∈ GOOGLE_TRANSIENT then .transient
    else if e.code ∈ GOOGLE_PERMANENT then .permanent
    else fallback e .permanent
  else fallback e .permanent

def classifyStatus (status : Nat) : ErrorClass := if status = 429 ∨ status ≥ 500 then .transient else .permanent

/-- Any failure, mapped onto the four-member taxonomy. -/
def classify : Exn → ErrorClass
  | .needsReconnect _ _ => .needsReconnect
  | .tokenUnavailable _ => .needsReconnect
  | .provider e => classifyProviderError e
  | .transport _ => .transient
  | .os _ => .transient
  | .httpStatus n _ => classifyStatus n
  | .other _ => .permanent

end SafeSend
