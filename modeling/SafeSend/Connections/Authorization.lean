import SafeSend.Connections.State
import SafeSend.Connections.System
/-!
# Begin and complete

An authorization begins with a signed state and completes in a callback that is told the state and a code.  What the code
is exchanged for is the provider's; what the connection is bound to is decided from the state and the grant alone.
-/
namespace SafeSend
namespace Connections

open Lib Crypto

/-- What a callback raises. -/
inductive CallbackError
  /-- `OAuthConfigError`. -/
  | config (detail : String)
  | state (e : VerifyError)
  | exchange (e : Exn)
  | store (e : StoreError)

/-- `provider_for`. -/
def providerFor (name : String) : Except CallbackError ProviderKind :=
  if name = ProviderKind.gmail.value then .ok .gmail
  else if name = ProviderKind.slack.value then .ok .slack
  else .error (.config ("no OAuth provider named '" ++ name ++ "'; known: gmail, slack"))

/-- `begin`, as far as the state it signs; of the connection to be repaired the state says that there is one. -/
def beginAuthorization (ring : Keyring) (userId : Nat) (providerName returnTo : String) (reconnectConnectionId : Option Nat)
    (nonce : String) (now : Int) : Except CallbackError String :=
  match providerFor providerName with
  | .error e => .error e
  | .ok _ => .ok (sign ring (newState userId providerName nonce now returnTo reconnectConnectionId.isSome))

def noAccount (provider : ProviderKind) : String :=
  provider.value ++ " returned no account identifier, so this authorization cannot be bound to an account"

/-- The transaction of `complete`: matched on the natural key, whatever the authorization was begun for. -/
def landGrant (aes : AESGCM) (ring : Keyring) (nonces : TokenColumn → Nonce) (userId : Nat) (provider : ProviderKind)
    (grant : Grant) (t : Rows) : Except CallbackError (Nat × Rows) :=
  if grant.externalAccountId.toList.all (· == ':') then .error (.config (noAccount provider))
  else
    let existing := byNaturalKey t userId provider grant.externalAccountId
    match upsert aes ring nonces userId provider grant (existing.map Prod.fst) t with
    | .error e => .error (.store e)
    | .ok r => .ok r

/-- From a verified state on.  No user has a negative id, and a row of one is refused by its foreign key. -/
def completeVerified (aes : AESGCM) (ring : Keyring) (nonces : TokenColumn → Nonce) (s : OAuthState)
    (exchange : ProviderKind → Except Exn Grant) (t : Rows) : Except CallbackError (Nat × Rows) :=
  match providerFor s.provider with
  | .error e => .error e
  | .ok provider =>
    match exchange provider with
    | .error e => .error (.exchange e)
    | .ok grant =>
      match s.userId with
      | .ofNat userId => landGrant aes ring nonces userId provider grant t
      | .negSucc _ => .error (.store (.other "violates foreign key constraint \"connections_user_id_fkey\""))

/-- `complete`. -/
def completeAuthorization (aes : AESGCM) (ring : Keyring) (nonces : TokenColumn → Nonce) (raw : String) (now : Int)
    (exchange : ProviderKind → Except Exn Grant) (t : Rows) : Except CallbackError (Nat × Rows) :=
  match verify ring raw now with
  | .error e => .error (.state e)
  | .ok s => completeVerified aes ring nonces s exchange t

/-- What `connection_callback` answers to it; none where nothing catches it. -/
def CallbackError.answer : CallbackError → Option Paging.ApiError
  | config detail => some ⟨"provider_not_configured", detail⟩
  | state e => e.answer
  | exchange _ => none
  | store e =>
    match e with
    | .reconnectMismatch _ _ => some ⟨"reconnect_account_mismatch", e.str⟩
    | _ => none

/-- The table a transaction leaves: as it was, where the transaction raises. -/
def tableAfter (t : Rows) : Except CallbackError (Nat × Rows) → Rows
  | .error _ => t
  | .ok r => r.2

/-! ## Where a grant lands -/

section

variable {aes : AESGCM} {ring : Keyring} {nonces : TokenColumn → Nonce} {userId : Nat} {provider : ProviderKind}
  {grant : Grant} {t t' : Rows} {id : Nat}

/-- The account of the row to be reconnected is the grant's, so nothing is checked and nothing adopted. -/
theorem checkReconnect_byNaturalKey :
    checkReconnect grant ((byNaturalKey t userId provider grant.externalAccountId).map Prod.fst) t = .ok t := by
  cases hk : byNaturalKey t userId provider grant.externalAccountId with
  | none => rfl
  | some r =>
    obtain ⟨hget, hkey⟩ := Table.first_eq_some (n := r.1) (a := r.2) hk
    simp only [ConnectionRow.hasKey, Bool.and_eq_true, beq_iff_eq] at hkey
    simp only [Option.map_some, checkReconnect, hget, hkey.2, if_true]

/-- **A completed callback** has inserted or updated the row of the grant's natural key, and sealed its tokens there. -/
theorem landGrant_eq_ok (h : landGrant aes ring nonces userId provider grant t = .ok (id, t')) :
    ∃ t₁ sealed, insertOrUpdate userId provider grant t = (id, t₁) ∧
      sealTokens aes ring nonces id provider grant = .ok sealed ∧ t' = t₁.modify id (persistRow ring sealed grant) := by
  unfold landGrant at h
  split at h
  · cases h
  · simp only at h
    split at h
    · cases h
    · rename_i r hr
      cases h
      unfold upsert at hr
      rw [checkReconnect_byNaturalKey] at hr
      simp only [bind, Except.bind] at hr
      cases hp : persistTokens aes ring nonces (insertOrUpdate userId provider grant t).1 provider grant
          (insertOrUpdate userId provider grant t).2 with
      | error e =>
        simp only [hp] at hr
        cases hr
      | ok t₂ =>
        simp only [hp] at hr
        obtain ⟨sealed, hs, -, rfl⟩ := persistTokens_eq_ok hp
        obtain ⟨rfl, rfl⟩ := Prod.mk.inj (Except.ok.inj hr)
        exact ⟨_, sealed, rfl, hs, rfl⟩

/-- **A callback completes** where the grant names an account and its tokens can be sealed and stored. -/
theorem landGrant_of_sealed (haccount : grant.externalAccountId.toList.all (· == ':') = false)
    (hfits : fitsKeyVersion ring.current = true) {t₁ : Rows} (hins : insertOrUpdate userId provider grant t = (id, t₁))
    {sealed : TokenColumn → Option Text.Bytes} (hs : sealTokens aes ring nonces id provider grant = .ok sealed) :
    landGrant aes ring nonces userId provider grant t = .ok (id, t₁.modify id (persistRow ring sealed grant)) := by
  have hup : upsert aes ring nonces userId provider grant
      ((byNaturalKey t userId provider grant.externalAccountId).map Prod.fst) t =
        .ok (id, t₁.modify id (persistRow ring sealed grant)) := by
    unfold upsert persistTokens
    rw [checkReconnect_byNaturalKey]
    simp only [bind, Except.bind, hins, hs, hfits, if_true]
    rfl
  unfold landGrant
  simp only [haccount, hup]
  rfl

theorem sealToken_ne_mismatch {column : TokenColumn} {value : Json} (expected actual : String) :
    sealToken aes ring nonces id provider column value ≠ .error (.reconnectMismatch expected actual) := by
  intro h
  unfold sealToken at h
  split at h
  · cases h
  · split at h
    · cases h
    · cases h
  · cases h

theorem persistTokens_ne_mismatch (expected actual : String) :
    persistTokens aes ring nonces id provider grant t ≠ .error (.reconnectMismatch expected actual) := by
  intro h
  unfold persistTokens sealTokens at h
  cases ha : sealToken aes ring nonces id provider .accessTokenCt grant.accessToken with
  | error e =>
    rw [ha] at h
    obtain rfl := Except.error.inj h
    exact sealToken_ne_mismatch expected actual ha
  | ok access =>
    cases hr : sealToken aes ring nonces id provider .refreshTokenCt grant.refreshToken with
    | error e =>
      rw [ha, hr] at h
      obtain rfl := Except.error.inj h
      exact sealToken_ne_mismatch expected actual hr
    | ok refresh =>
      cases hb : sealToken aes ring nonces id provider .botTokenCt grant.botToken with
      | error e =>
        rw [ha, hr, hb] at h
        obtain rfl := Except.error.inj h
        exact sealToken_ne_mismatch expected actual hb
      | ok bot =>
        rw [ha, hr, hb] at h
        simp only [bind, Except.bind, pure, Except.pure] at h
        split at h
        · cases h
        · cases h

/-- **No callback is told that it authorized another account.** -/
theorem landGrant_ne_mismatch (expected actual : String) :
    landGrant aes ring nonces userId provider grant t ≠ .error (.store (.reconnectMismatch expected actual)) := by
  intro h
  unfold landGrant at h
  split at h
  · cases h
  · simp only at h
    split at h
    · rename_i e hu
      obtain rfl := CallbackError.store.inj (Except.error.inj h)
      unfold upsert at hu
      rw [checkReconnect_byNaturalKey] at hu
      simp only [bind, Except.bind] at hu
      cases hp : persistTokens aes ring nonces (insertOrUpdate userId provider grant t).1 provider grant
          (insertOrUpdate userId provider grant t).2 with
      | error e =>
        simp only [hp] at hu
        obtain rfl := Except.error.inj hu
        exact persistTokens_ne_mismatch expected actual hp
      | ok t₂ =>
        simp only [hp] at hu
        cases hu
    · cases h

end

end Connections
end SafeSend
