import SafeSend.Connections.Authorization
import SafeSend.Connections.Moves
import SafeSend.Lib.Dict
import SafeSend.Urls
/-!
# Where an authorization begins

The two providers as data, the URL a browser is sent to and the form a code is exchanged with.  What the URL asks is read
as the provider reads it: the part before the mark, and the parameters behind it.
-/
namespace SafeSend
namespace Connections

open Lib Crypto
open Urls (urlencode parseQsl)

structure OAuthProvider where
  name : String
  authorizeUrl : String
  tokenUrl : String
  scopes : List String
  /-- `search:read` is asked for here, not among the others. -/
  userScopes : List String := []

def GOOGLE : OAuthProvider where
  name := "gmail"
  authorizeUrl := "https://accounts.google.com/o/oauth2/v2/auth"
  tokenUrl := "https://oauth2.googleapis.com/token"
  scopes := ["openid", "email", "https://www.googleapis.com/auth/gmail.readonly",
    "https://www.googleapis.com/auth/gmail.compose"]

def SLACK : OAuthProvider where
  name := "slack"
  authorizeUrl := "https://slack.com/oauth/v2/authorize"
  tokenUrl := "https://slack.com/api/oauth.v2.access"
  scopes := ["chat:write", "chat:write.public", "channels:read", "channels:history", "channels:join",
    "metadata.message:read"]
  userScopes := ["search:read"]

def PROVIDERS : ProviderKind → OAuthProvider
  | .gmail => GOOGLE
  | .slack => SLACK

/-- What OAuth reads of the settings. -/
structure OAuthSettings where
  appBaseUrl : String := "http://localhost:8080"
  oauthTunnelUrl : String := ""
  googleClientId : String := ""
  googleClientSecret : String := ""
  slackClientId : String := ""
  slackClientSecret : String := ""

/-- `s.rstrip("/")`. -/
def rstripSlash (s : String) : String := String.ofList (s.toList.reverse.dropWhile (· == '/')).reverse

/-- The tunnel wins where there is one. -/
def OAuthSettings.publicBaseUrl (cfg : OAuthSettings) : String :=
  rstripSlash (if cfg.oauthTunnelUrl = "" then cfg.appBaseUrl else cfg.oauthTunnelUrl)

def OAuthSettings.redirectUri (cfg : OAuthSettings) (provider : String) : String :=
  cfg.publicBaseUrl ++ "/v1/connections/callback/" ++ provider

def credentialsFor (cfg : OAuthSettings) (provider : ProviderKind) : Except CallbackError (String × String) :=
  let (clientId, secret) := match provider with
    | .gmail => (cfg.googleClientId, cfg.googleClientSecret)
    | .slack => (cfg.slackClientId, cfg.slackClientSecret)
  let name := (PROVIDERS provider).name
  if clientId = "" ∨ secret = "" then
    .error (.config (name ++ " OAuth is not configured: set " ++ name.toUpper ++ "_CLIENT_ID and _CLIENT_SECRET"))
  else .ok (clientId, secret)

/-! ## The URL and the form -/

/-- The parameters of an authorize URL. -/
def authorizeParams (provider : ProviderKind) (clientId redirectUri state : String) (forceConsent : Bool) :
    List (String × String) :=
  match provider with
  | .gmail =>
    [("client_id", clientId), ("redirect_uri", redirectUri), ("response_type", "code"),
      ("scope", " ".intercalate GOOGLE.scopes), ("access_type", "offline"), ("include_granted_scopes", "true"),
      ("state", state)] ++ if forceConsent then [("prompt", "consent")] else []
  | .slack =>
    [("client_id", clientId), ("redirect_uri", redirectUri), ("scope", ",".intercalate SLACK.scopes),
      ("user_scope", ",".intercalate SLACK.userScopes), ("state", state)]

def httpRefused (redirectUri : String) : String :=
  "Slack rejects http:// redirect URIs outright. Set OAUTH_TUNNEL_URL to an HTTPS tunnel (ngrok or equivalent) and " ++
    "register " ++ redirectUri ++ " as a redirect URL on the Slack app"

def authorizeUrl (cfg : OAuthSettings) (provider : ProviderKind) (state : String) (forceConsent : Bool) :
    Except CallbackError (List Char) :=
  match credentialsFor cfg provider with
  | .error e => .error e
  | .ok (clientId, _) =>
    let redirectUri := cfg.redirectUri (PROVIDERS provider).name
    if provider = .slack ∧ cfg.oauthTunnelUrl = "" ∧ Text.startsWith cfg.appBaseUrl "http://" then
      .error (.config (httpRefused redirectUri))
    else .ok ((PROVIDERS provider).authorizeUrl.toList ++
      '?' :: urlencode (authorizeParams provider clientId redirectUri state forceConsent))

/-- What `exchange_code` posts. -/
def exchangeForm (cfg : OAuthSettings) (provider : ProviderKind) (code : String) :
    Except CallbackError (List (String × String)) :=
  (credentialsFor cfg provider).map fun (clientId, secret) =>
    [("client_id", clientId), ("client_secret", secret), ("code", code),
      ("redirect_uri", cfg.redirectUri (PROVIDERS provider).name)] ++
      if provider = .gmail then [("grant_type", "authorization_code")] else []

/-! ## Beginning -/

/-- The first connection that is active. -/
def activeFor (t : Rows) (userId : Nat) (provider : ProviderKind) : Option (Nat × ConnectionRow) :=
  t.first fun _ c => c.userId == userId && c.provider == provider && c.status == .active

def shouldForceConsent (t : Rows) (userId : Nat) (provider : ProviderKind) (reconnecting : Option Nat) : Bool :=
  if provider ≠ .gmail then false
  else if reconnecting.isSome then true
  else
    match activeFor t userId provider with
    | none => true
    | some (_, current) => (current.ct .refreshTokenCt).isNone

def CONSENT_RATIONALE : ProviderKind → String
  | .gmail => "Draft access is the mechanism that guarantees we never send twice. Every message is created as a draft " ++
    "first, its id is recorded, and only then is it sent — so if this app crashes mid-send we can ask Gmail whether the " ++
    "draft still exists instead of guessing and sending again. Read access is what makes your mail searchable here. We " ++
    "never delete or modify mail you wrote."
  | .slack => "Search runs on your user token so it can see the channels you can see. Posting runs on a separate bot " ++
    "token, so a message from this app is always attributable to the app rather than to you."

structure Authorization where
  url : List Char
  provider : String
  rationale : String

/-- What `begin` is asked. -/
structure BeginRequest where
  userId : Nat
  providerName : String
  returnTo : String := "/connections"
  reconnectConnectionId : Option Nat := none

def BeginRequest.state (r : BeginRequest) (nonce : String) (now : Int) : OAuthState :=
  newState r.userId r.providerName nonce now r.returnTo r.reconnectConnectionId.isSome

/-- `begin`, the whole of it. -/
def beginConnection (ring : Keyring) (cfg : OAuthSettings) (t : Rows) (r : BeginRequest) (nonce : String) (now : Int) :
    Except CallbackError Authorization :=
  match providerFor r.providerName with
  | .error e => .error e
  | .ok provider =>
    let forceConsent := shouldForceConsent t r.userId provider r.reconnectConnectionId
    (authorizeUrl cfg provider (sign ring (r.state nonce now)) forceConsent).map fun url =>
      ⟨url, r.providerName, CONSENT_RATIONALE provider⟩

/-! ## Scopes -/

def GOOGLE_ALIASES : List (String × String) := [
  ("email", "https://www.googleapis.com/auth/userinfo.email"),
  ("profile", "https://www.googleapis.com/auth/userinfo.profile")]

/-- `_canonical`. -/
def canonical (scope : String) : String := (GOOGLE_ALIASES.lookup scope).getD scope

def requiredScopes (provider : OAuthProvider) : List String := (provider.scopes ++ provider.userScopes).eraseDups

def missingScopes (provider : OAuthProvider) (granted : List String) : List String :=
  let have_ := granted.map canonical
  (requiredScopes provider).filter fun scope => !have_.contains (canonical scope)

/-- The words of a scope list: between blanks for Google, between commas for Slack. -/
def scopeWords (provider : ProviderKind) (scope : String) : List String :=
  let sep : Char → Bool := match provider with
    | .gmail => Text.isSpace
    | .slack => (· == ',')
  ((scope.toList.splitOnP sep).filter fun l => !l.isEmpty).map String.ofList

theorem missingScopes_eq_nil {provider : OAuthProvider} {granted : List String} : missingScopes provider granted = [] ↔
    ∀ scope ∈ requiredScopes provider, canonical scope ∈ granted.map canonical := by
  unfold missingScopes
  rw [List.filter_eq_nil_iff]
  refine forall₂_congr fun scope _ => ?_
  rw [Bool.not_eq_true', Bool.not_eq_false, List.contains_iff_mem]

/-! ## What the URL asks -/

/-- The endpoint a URL goes to, and the parameters it is given there. -/
def asked (url : List Char) : List Char × List (String × String) :=
  let (endpoint, query) := Paging.partition '?' url
  (endpoint, parseQsl query)

/-- The scopes among the parameters. -/
def askedScopes (provider : ProviderKind) (params : List (String × String)) : List String :=
  scopeWords provider ((Dict.get "scope" params).getD "") ++ scopeWords provider ((Dict.get "user_scope" params).getD "")

/-- **What an authorization that has begun asks of the provider, held against what comes of it.** -/
structure Begun (ring : Keyring) (cfg : OAuthSettings) (t : Rows) (r : BeginRequest) (now : Int) (provider : ProviderKind)
    (params : List (String × String)) : Prop where
  /-- The callback that is told the state lands what the provider grants, for who began it and nobody else. -/
  callback : ∃ state, Dict.get "state" params = some state ∧
    ∀ (aes : AESGCM) (nonces : TokenColumn → Nonce) (later : Int) (exchange : ProviderKind → Except Exn Grant) (t' : Rows),
      completeAuthorization aes ring nonces state later exchange t' =
        if wholeSeconds later - wholeSeconds now > STATE_TTL_SECONDS then .error (.state (.stateInvalid expiredDetail))
        else
          match exchange provider with
          | .error e => .error (.exchange e)
          | .ok grant => landGrant aes ring nonces r.userId provider grant t'
  /-- The code is exchanged in the same client's name, under the same redirect URI. -/
  exchange (code : String) : ∃ form, exchangeForm cfg provider code = .ok form ∧
    Dict.get "client_id" form = Dict.get "client_id" params ∧ Dict.get "redirect_uri" form = Dict.get "redirect_uri" params
  consent : Dict.get "prompt" params = some "consent" ↔ provider = .gmail ∧ (r.reconnectConnectionId.isSome = true ∨
    ∀ id c, activeFor t r.userId .gmail = some (id, c) → c.ct .refreshTokenCt = none)
  /-- A grant misses nothing when it has what was asked for, whatever else it has. -/
  scopes (granted : List String) : missingScopes (PROVIDERS provider) granted = [] ↔
    ∀ scope ∈ askedScopes provider params, canonical scope ∈ granted.map canonical

section

variable {ring : Keyring} {cfg : OAuthSettings} {t : Rows} {r : BeginRequest} {nonce : String} {now : Int}
  {provider : ProviderKind} {clientId redirectUri state : String} {force : Bool}

theorem providerFor_eq_ok {name : String} (h : providerFor name = .ok provider) : name = provider.value := by
  unfold providerFor at h
  split at h
  next hname =>
    cases h
    exact hname
  next =>
    split at h
    next hname =>
      cases h
      exact hname
    next => cases h

theorem get_state : Dict.get "state" (authorizeParams provider clientId redirectUri state force) = some state := by
  cases provider <;> simp [authorizeParams, Dict.get]

theorem get_client : Dict.get "client_id" (authorizeParams provider clientId redirectUri state force) = some clientId := by
  cases provider <;> simp [authorizeParams, Dict.get]

theorem get_redirect :
    Dict.get "redirect_uri" (authorizeParams provider clientId redirectUri state force) = some redirectUri := by
  cases provider <;> simp [authorizeParams, Dict.get]

theorem get_prompt : Dict.get "prompt" (authorizeParams provider clientId redirectUri state force) = some "consent" ↔
    provider = .gmail ∧ force = true := by
  cases provider <;> cases force <;> simp [authorizeParams, Dict.get]

theorem askedScopes_params (provider : ProviderKind) (clientId redirectUri state : String) (force : Bool) :
    askedScopes provider (authorizeParams provider clientId redirectUri state force) = requiredScopes (PROVIDERS provider) := by
  cases provider with
  | gmail =>
    have hscope : Dict.get "scope" (authorizeParams .gmail clientId redirectUri state force) =
        some (" ".intercalate GOOGLE.scopes) := by simp [authorizeParams, Dict.get]
    have huser : Dict.get "user_scope" (authorizeParams .gmail clientId redirectUri state force) = none := by
      cases force <;> simp [authorizeParams, Dict.get]
    unfold askedScopes
    rw [hscope, huser]
    decide +kernel
  | slack =>
    have hscope : Dict.get "scope" (authorizeParams .slack clientId redirectUri state force) =
        some (",".intercalate SLACK.scopes) := by simp [authorizeParams, Dict.get]
    have huser : Dict.get "user_scope" (authorizeParams .slack clientId redirectUri state force) =
        some (",".intercalate SLACK.userScopes) := by simp [authorizeParams, Dict.get]
    unfold askedScopes
    rw [hscope, huser]
    decide +kernel

theorem shouldForceConsent_iff {userId : Nat} {reconnecting : Option Nat} :
    provider = .gmail ∧ shouldForceConsent t userId provider reconnecting = true ↔
      provider = .gmail ∧ (reconnecting.isSome = true ∨
        ∀ id c, activeFor t userId .gmail = some (id, c) → c.ct .refreshTokenCt = none) := by
  refine and_congr_right fun hp => ?_
  subst hp
  unfold shouldForceConsent
  rw [if_neg fun h => h rfl]
  by_cases hr : reconnecting.isSome = true
  · rw [if_pos hr]
    exact ⟨fun _ => .inl hr, fun _ => rfl⟩
  · rw [if_neg hr]
    constructor
    · intro h
      refine .inr fun id c hc => ?_
      rw [hc] at h
      exact Option.isNone_iff_eq_none.1 h
    · intro h
      have hnone := h.resolve_left hr
      split
      next => rfl
      next id c hc => exact Option.isNone_iff_eq_none.2 (hnone id c hc)

theorem authorizeUrl_eq_ok {url : List Char} (h : authorizeUrl cfg provider state force = .ok url) :
    ∃ clientId secret, credentialsFor cfg provider = .ok (clientId, secret) ∧
      asked url = ((PROVIDERS provider).authorizeUrl.toList,
        authorizeParams provider clientId (cfg.redirectUri (PROVIDERS provider).name) state force) := by
  have hmark : '?' ∉ (PROVIDERS provider).authorizeUrl.toList := by cases provider <;> decide
  unfold authorizeUrl at h
  cases hc : credentialsFor cfg provider with
  | error e =>
    rw [hc] at h
    cases h
  | ok credentials =>
    rw [hc] at h
    dsimp only at h
    split at h
    next => cases h
    next =>
      cases h
      refine ⟨credentials.1, credentials.2, rfl, ?_⟩
      unfold asked
      rw [Paging.partition_append hmark]
      dsimp only
      rw [Urls.parseQsl_urlencode]

/-- The callback of a state that was signed here. -/
theorem complete_signed (aes : AESGCM) (nonces : TokenColumn → Nonce) (later : Int)
    (exchange : ProviderKind → Except Exn Grant) (t' : Rows) (hp : providerFor r.providerName = .ok provider) :
    completeAuthorization aes ring nonces (sign ring (r.state nonce now)) later exchange t' =
      if wholeSeconds later - wholeSeconds now > STATE_TTL_SECONDS then .error (.state (.stateInvalid expiredDetail))
      else
        match exchange provider with
        | .error e => .error (.exchange e)
        | .ok grant => landGrant aes ring nonces r.userId provider grant t' := by
  have hissued : (r.state nonce now).issuedAt = wholeSeconds now := rfl
  have hverify := verify_sign ring (r.state nonce now) later
  rw [hissued] at hverify
  unfold completeAuthorization
  by_cases hlate : wholeSeconds later - wholeSeconds now > STATE_TTL_SECONDS
  · rw [hverify, if_pos hlate, if_pos hlate]
  · have hprovider : (r.state nonce now).provider = r.providerName := rfl
    have huser : (r.state nonce now).userId = .ofNat r.userId := rfl
    rw [hverify, if_neg hlate, if_neg hlate]
    dsimp only
    unfold completeVerified
    cases hexchange : exchange provider with
    | error e => simp only [hprovider, hp, hexchange]
    | ok grant => simp only [hprovider, hp, huser, hexchange]

/-- What the URL asks is the parameters of the provider that was named, for the state that was signed. -/
theorem begin_asked {a : Authorization} (h : beginConnection ring cfg t r nonce now = .ok a) :
    ∃ provider clientId secret, providerFor r.providerName = .ok provider ∧
      credentialsFor cfg provider = .ok (clientId, secret) ∧
      asked a.url = ((PROVIDERS provider).authorizeUrl.toList,
        authorizeParams provider clientId (cfg.redirectUri (PROVIDERS provider).name) (sign ring (r.state nonce now))
          (shouldForceConsent t r.userId provider r.reconnectConnectionId)) := by
  unfold beginConnection at h
  cases hp : providerFor r.providerName with
  | error e =>
    rw [hp] at h
    cases h
  | ok provider =>
    rw [hp] at h
    dsimp only at h
    cases hurl : authorizeUrl cfg provider (sign ring (r.state nonce now))
        (shouldForceConsent t r.userId provider r.reconnectConnectionId) with
    | error e =>
      rw [hurl] at h
      cases h
    | ok url =>
      rw [hurl] at h
      cases h
      obtain ⟨clientId, secret, hcred, hasked⟩ := authorizeUrl_eq_ok hurl
      exact ⟨provider, clientId, secret, rfl, hcred, hasked⟩

/-- **What is begun is what comes back.** -/
theorem begin_asks {a : Authorization} (h : beginConnection ring cfg t r nonce now = .ok a) :
    ∃ provider params, providerFor r.providerName = .ok provider ∧
      asked a.url = ((PROVIDERS provider).authorizeUrl.toList, params) ∧ Begun ring cfg t r now provider params := by
  obtain ⟨provider, clientId, secret, hp, hcred, hasked⟩ := begin_asked h
  refine ⟨provider, _, hp, hasked, ⟨_, get_state, fun aes nonces later exchange t' => ?_⟩, fun code => ?_, ?_,
    fun granted => ?_⟩
  · exact complete_signed aes nonces later exchange t' hp
  · refine ⟨_, by unfold exchangeForm; rw [hcred]; rfl, ?_, ?_⟩
    · rw [get_client]
      simp [Dict.get]
    · rw [get_redirect]
      simp [Dict.get]
  · rw [get_prompt]
    exact shouldForceConsent_iff
  · rw [askedScopes_params]
    exact missingScopes_eq_nil

end

/-- A deployment with Google's credentials alone. -/
def sampleSettings : OAuthSettings where
  appBaseUrl := "https://acme.example/"
  googleClientId := "id"
  googleClientSecret := "secret"

theorem begin_asks_gmail : ∃ a provider params,
    beginConnection sampleKeyring sampleSettings .empty { userId := 1, providerName := "gmail" } "n" 0 = .ok a ∧
      providerFor "gmail" = .ok provider ∧ asked a.url = ((PROVIDERS provider).authorizeUrl.toList, params) ∧
      Begun sampleKeyring sampleSettings .empty { userId := 1, providerName := "gmail" } 0 provider params := by
  have hbegun : beginConnection sampleKeyring sampleSettings .empty { userId := 1, providerName := "gmail" } "n" 0 =
      .ok ⟨_, "gmail", CONSENT_RATIONALE .gmail⟩ := rfl
  obtain ⟨provider, params, h⟩ := begin_asks hbegun
  exact ⟨_, provider, params, hbegun, h⟩

end Connections
end SafeSend
