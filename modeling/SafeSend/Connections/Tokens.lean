import SafeSend.Connections.Store
/-!
# Tokens

`get_token`: the one path to a live credential.  Under the connection's advisory lock the row is read and the stored
token answered, or a refresh begun; the lock is held over the call to Google, and what came of it is written and
committed with the lock's release.
-/
namespace SafeSend
namespace Connections

open Lib Crypto

inductive TokenKind | user | bot | oauth
  deriving DecidableEq, Repr

def TokenKind.value : TokenKind → String
  | user => "user"
  | bot => "bot"
  | oauth => "oauth"

/-- `_COLUMN_FOR`. -/
def columnFor : ProviderKind → TokenKind → Option TokenColumn
  | .gmail, .oauth => some .accessTokenCt
  | .gmail, .user => some .accessTokenCt
  | .slack, .user => some .accessTokenCt
  | .slack, .bot => some .botTokenCt
  | .slack, .oauth => some .botTokenCt
  | .gmail, .bot => none

def REFRESH_MARGIN_SECONDS : Int := 120

def expiring (now : Int) : Option Int → Bool
  | none => true
  | some expiresAt => decide (expiresAt ≤ now + REFRESH_MARGIN_SECONDS * SECOND)

/-- How far a call gets before it needs Google: a token, or a refresh under way with the row it read. -/
inductive Progress
  | token (value : String)
  | refresh (connection : ConnectionRow) (refreshToken : String)

/-- A stored token that is not the empty string. -/
def stored : Option String → Option String
  | some s => if s = "" then none else some s
  | none => none

/-- `_refresh_google`, up to the call. -/
def beginRefresh (aes : AESGCM) (ring : Keyring) (id : Nat) (connection : ConnectionRow) : Except Exn Progress :=
  match connection.token aes ring id .refreshTokenCt with
  | .error e => .error e.toExn
  | .ok t =>
    match stored t with
    | some refreshToken => .ok (.refresh connection refreshToken)
    | none =>
      .error (.needsReconnect id
        ("no refresh token is stored for this connection, so the access token cannot be renewed without the account " ++
          "owner"))

/-- `get_token`, from the row it reads under the lock. -/
def getToken (aes : AESGCM) (ring : Keyring) (now : Int) (id : Nat) (connection : Option ConnectionRow)
    (kind : TokenKind) : Except Exn Progress :=
  match connection with
  | none => .error (.tokenUnavailable ("connection " ++ toString id ++ " no longer exists"))
  | some connection =>
    match columnFor connection.provider kind with
    | none =>
      .error (.tokenUnavailable (connection.provider.value ++ " has no " ++ kind.value ++
        " token; this is a routing bug rather than a missing grant"))
    | some column =>
      match connection.token aes ring id column with
      | .error e => .error e.toExn
      | .ok t =>
        if column ≠ .accessTokenCt ∨ connection.provider ≠ .gmail then
          match stored t with
          | some value => .ok (.token value)
          | none =>
            .error (.needsReconnect id ("no " ++ kind.value ++ " token stored for connection " ++ toString id))
        else
          match stored t with
          | some value =>
            if expiring now connection.accessExpiresAt then beginRefresh aes ring id connection else .ok (.token value)
          | none => beginRefresh aes ring id connection

/-- `refresh_access_token`, from Google's answer: the token endpoint's JSON object, or what was raised. -/
def refreshAccessToken (now : Int) (answer : Except Exn Payload) : Except Exn Grant :=
  match answer with
  | .error e => .error e
  | .ok payload => grantFrom .gmail now payload true

/-- What a refresh answers once its grant is stored. -/
def refreshed (id : Nat) (grant : Grant) : Except Exn String :=
  match grant.accessToken with
  | .str s =>
    if s = "" then .error (.needsReconnect id "the refresh response carried no access token") else .ok s
  | _ => .error (.needsReconnect id "the refresh response carried no access token")

/-- `_refresh_google` from Google's answer on: what the call comes to, and the table it commits. -/
def finishRefresh (aes : AESGCM) (ring : Keyring) (nonces : TokenColumn → Nonce) (now : Int) (id : Nat)
    (connection : ConnectionRow) (answer : Except Exn Payload) (t : Rows) : Except Exn String × Rows :=
  match refreshAccessToken now answer with
  | .error (.provider e) =>
    if classify (.provider e) = .needsReconnect then
      (.error (.needsReconnect id e.str), markNeedsReconnect id e.str t)
    else (.error (.provider e), t)
  | .error e => (.error e, t)
  | .ok grant =>
    match persistTokens aes ring nonces id connection.provider grant t with
    | .error e => (.error e.toExn, t)
    | .ok t' => (refreshed id grant, t')

/-- `expire_access_token`. -/
def expireAccessToken (now : Int) (id : Nat) (t : Rows) : Rows :=
  t.modify id fun c => { c with accessExpiresAt := some (now - SECOND) }

end Connections
end SafeSend
