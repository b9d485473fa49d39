import SafeSend.Errors
/-!
# OAuth

What a token endpoint's answer yields: one `Grant` per completed authorization or refresh.  A provider's values are
taken as they come; a token that is absent and a token that is null are the same to `dict.get`.
-/
namespace SafeSend
namespace Connections

/-- A JSON value, as far as the program tells values apart.  What is neither null, a string nor an object is `other`,
and so is a string UTF-8 cannot encode; a value that is not a string comes with its `str()`. -/
inductive Json
  | null
  | str (s : String)
  | obj (fields : List (String × Json)) (text : String)
  | other (truthy : Bool) (text : String)

namespace Json

abbrev Fields := List (String × Json)

/-- `d.get(key)`. -/
def get (d : Fields) (key : String) : Json := (d.lookup key).getD .null

/-- `d.get(key, default)`. -/
def getOr (d : Fields) (key : String) (default : Json) : Json := (d.lookup key).getD default

/-- `str(v)`. -/
def text : Json → String
  | null => "None"
  | str s => s
  | obj _ t => t
  | other _ t => t

/-- Python's truth of a value. -/
def truthy : Json → Bool
  | null => false
  | str s => s != ""
  | obj d _ => !d.isEmpty
  | other b _ => b

/-- `v or {}`, where it is going to be asked for a key: none where that raises `AttributeError`. -/
def orEmpty (v : Json) : Option Fields :=
  if v.truthy then
    match v with
    | obj d _ => some d
    | _ => none
  else some []

end Json

/-- A token endpoint's answer: the JSON object, the claims `_id_token_claims` reads from its `id_token`, and what
`int()` makes of its `expires_in`. -/
structure Payload where
  fields : Json.Fields := []
  claims : Json.Fields := []
  expiresIn : Option Int := none

/-- The token columns of a connection. -/
inductive TokenColumn | accessTokenCt | refreshTokenCt | botTokenCt
  deriving DecidableEq, Repr

/-- `TOKEN_FIELDS`: the `field` component of the associated data. -/
def TokenColumn.field : TokenColumn → String
  | accessTokenCt => "access"
  | refreshTokenCt => "refresh"
  | botTokenCt => "bot"

structure Grant where
  externalAccountId : String
  displayName : String
  accessToken : Json := .null
  refreshToken : Json := .null
  botToken : Json := .null
  accessExpiresAt : Option Int := none

def Grant.token (g : Grant) : TokenColumn → Json
  | .accessTokenCt => g.accessToken
  | .refreshTokenCt => g.refreshToken
  | .botTokenCt => g.botToken

/-! Instants are in microseconds; `datetime` ends with the year 9999. -/

def SECOND : Int := 1000000

def DATETIME_MIN : Int := -62135596800 * SECOND

def DATETIME_MAX : Int := 253402300800 * SECOND - 1

/-- `_expiry`: none where there is nothing to read, an exception past what a `datetime` can say. -/
def expiry (now : Int) (expiresIn : Option Int) : Except Exn (Option Int) :=
  match expiresIn with
  | none => .ok none
  | some seconds =>
    let at_ := now + seconds * SECOND
    if DATETIME_MIN ≤ at_ ∧ at_ ≤ DATETIME_MAX then .ok (some at_) else .error (.other "date value out of range")

def googleGrant (now : Int) (payload : Payload) (refreshing : Bool) : Except Exn Grant :=
  (expiry now payload.expiresIn).map fun expires =>
    { externalAccountId := if refreshing then "" else (Json.getOr payload.claims "sub" (.str "")).text
      displayName := if refreshing then "" else (Json.getOr payload.claims "email" (.str "")).text
      accessToken := Json.get payload.fields "access_token"
      refreshToken := Json.get payload.fields "refresh_token"
      accessExpiresAt := expires }

def slackGrant (payload : Payload) : Except Exn Grant :=
  match (Json.get payload.fields "team").orEmpty, (Json.get payload.fields "authed_user").orEmpty with
  | some team, some authedUser =>
    let teamId := (Json.getOr team "id" (.str "")).text
    let userId := (Json.getOr authedUser "id" (.str "")).text
    let name := Json.get team "name"
    .ok
      { externalAccountId := teamId ++ ":" ++ userId
        displayName := if name.truthy then name.text else teamId
        -- the user token: search needs this one and rejects the bot token
        accessToken := Json.get authedUser "access_token"
        botToken := Json.get payload.fields "access_token" }
  | _, _ => .error (.other "object has no attribute 'get'")

/-- `_grant_from`. -/
def grantFrom (provider : ProviderKind) (now : Int) (payload : Payload) (refreshing : Bool) : Except Exn Grant :=
  match provider with
  | .gmail => googleGrant now payload refreshing
  | .slack => slackGrant payload

/-- Where a provider puts the token of a column. -/
def carried (provider : ProviderKind) (payload : Payload) : TokenColumn → Json :=
  match provider with
  | .gmail => fun
    | .accessTokenCt => Json.get payload.fields "access_token"
    | .refreshTokenCt => Json.get payload.fields "refresh_token"
    | .botTokenCt => .null
  | .slack => fun
    | .accessTokenCt => Json.get ((Json.get payload.fields "authed_user").orEmpty.getD []) "access_token"
    | .refreshTokenCt => .null
    | .botTokenCt => Json.get payload.fields "access_token"

/-- **A grant's tokens are the payload's.** -/
theorem token_grantFrom {provider : ProviderKind} {now : Int} {payload : Payload} {refreshing : Bool} {g : Grant}
    (h : grantFrom provider now payload refreshing = .ok g) (column : TokenColumn) :
    g.token column = carried provider payload column := by
  cases provider with
  | gmail =>
    simp only [grantFrom, googleGrant] at h
    cases he : expiry now payload.expiresIn with
    | error e =>
      rw [he] at h
      cases h
    | ok expires =>
      rw [he] at h
      cases h
      cases column <;> rfl
  | slack =>
    simp only [grantFrom, slackGrant] at h
    split at h
    next team authedUser hteam huser =>
      cases h
      cases column with
      | accessTokenCt =>
        simp only [carried, huser, Option.getD_some]
        rfl
      | refreshTokenCt => rfl
      | botTokenCt => rfl
    next => cases h

end Connections
end SafeSend
