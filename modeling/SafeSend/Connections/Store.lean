import SafeSend.Lib.Table
import SafeSend.Connections.Crypto
import SafeSend.Connections.OAuth
/-!
# The connections table

Reading and writing `connections`, with the token columns encrypted under the row's own identity.  Each function is a
transaction, or the part of one that one caller's transaction holds together.
-/
namespace SafeSend
namespace Connections

open Lib Crypto
open Text (Bytes)

structure ConnectionRow where
  userId : Nat
  provider : ProviderKind
  externalAccountId : String
  displayName : String
  status : ConnStatus := .active
  /-- `access_token_ct`, `refresh_token_ct` and `bot_token_ct`. -/
  ct : TokenColumn → Option Bytes := fun _ => none
  keyVersion : Int := 1
  accessExpiresAt : Option Int := none
  lastErrorClass : Option ErrorClass := none
  lastErrorDetail : Option String := none

abbrev Rows := Table ConnectionRow

/-- What the store raises; `other` is anything nobody catches by name. -/
inductive StoreError
  | reconnectMismatch (expected actual : String)
  | crypto (e : CryptoError)
  | other (detail : String)
  deriving DecidableEq, Repr

def StoreError.str : StoreError → String
  | reconnectMismatch expected actual =>
    "this reconnect authorized a different account ('" ++ actual ++ "') than the connection being repaired ('" ++
      expected ++ "'); connect it as a new connection instead"
  | crypto e => e.str
  | other d => d

def StoreError.toExn (e : StoreError) : Exn := .other e.str

/-- The associated data of a column of a row. -/
def aad (id : Nat) (provider : ProviderKind) (column : TokenColumn) : Bytes :=
  aadFor id provider.value column.field

/-- Decrypts one column.  An access token that does not open is a cache miss; any other token that does not is an
error. -/
def ConnectionRow.token (aes : AESGCM) (ring : Keyring) (id : Nat) (c : ConnectionRow) (column : TokenColumn) :
    Except StoreError (Option String) :=
  match c.ct column with
  | none => .ok none
  | some blob =>
    match decrypt aes blob (aad id c.provider column) ring, column with
    | .ok s, _ => .ok (some s)
    | .error (.envelope _), .accessTokenCt => .ok none
    | .error (.keyNotFound _), .accessTokenCt => .ok none
    | .error e, _ => .error (.crypto e)

def PLACEHOLDER_PREFIX : String := "fake:"

def isPlaceholder (externalAccountId : String) : Bool := Text.startsWith externalAccountId PLACEHOLDER_PREFIX

/-- `connections_natural_key`. -/
def ConnectionRow.hasKey (userId : Nat) (provider : ProviderKind) (externalAccountId : String) (c : ConnectionRow) :
    Bool :=
  c.userId == userId && c.provider == provider && c.externalAccountId == externalAccountId

def byNaturalKey (t : Rows) (userId : Nat) (provider : ProviderKind) (externalAccountId : String) :
    Option (Nat × ConnectionRow) :=
  t.first fun _ c => c.hasKey userId provider externalAccountId

/-- What a column is set to: nothing where the grant has no value for it. -/
def sealToken (aes : AESGCM) (ring : Keyring) (nonces : TokenColumn → Nonce) (id : Nat) (provider : ProviderKind)
    (column : TokenColumn) (value : Json) : Except StoreError (Option Bytes) :=
  match value with
  | .null => .ok none
  | .str s =>
    match encrypt aes (nonces column) s (aad id provider column) ring with
    | .ok blob => .ok (some blob)
    | .error e => .error (.crypto e)
  | _ => .error (.other "object has no attribute 'encode'")

/-- The three columns, in the order they are looked at. -/
def sealTokens (aes : AESGCM) (ring : Keyring) (nonces : TokenColumn → Nonce) (id : Nat) (provider : ProviderKind)
    (grant : Grant) : Except StoreError (TokenColumn → Option Bytes) := do
  let access ← sealToken aes ring nonces id provider .accessTokenCt grant.accessToken
  let refresh ← sealToken aes ring nonces id provider .refreshTokenCt grant.refreshToken
  let bot ← sealToken aes ring nonces id provider .botTokenCt grant.botToken
  return fun
    | .accessTokenCt => access
    | .refreshTokenCt => refresh
    | .botTokenCt => bot

/-- `key_version` is a `smallint`. -/
def fitsKeyVersion (v : Int) : Bool := decide (-32768 ≤ v ∧ v ≤ 32767)

/-- The row `persist_tokens` leaves: a column that was not given keeps its value. -/
def persistRow (ring : Keyring) (sealed : TokenColumn → Option Bytes) (grant : Grant) (c : ConnectionRow) :
    ConnectionRow :=
  { c with
    ct := fun column => (sealed column).or (c.ct column)
    accessExpiresAt := grant.accessExpiresAt.or c.accessExpiresAt
    keyVersion := ring.current }

def persistTokens (aes : AESGCM) (ring : Keyring) (nonces : TokenColumn → Nonce) (id : Nat) (provider : ProviderKind)
    (grant : Grant) (t : Rows) : Except StoreError Rows := do
  let sealed ← sealTokens aes ring nonces id provider grant
  if fitsKeyVersion ring.current then return t.modify id (persistRow ring sealed grant)
  else throw (.other "value out of int16 range")

/-- A placeholder is bound to the account that authorized, unless the user has a connection for that account. -/
def adoptPlaceholder (id : Nat) (existing : ConnectionRow) (externalAccountId : String) (t : Rows) : Rows :=
  match byNaturalKey t existing.userId existing.provider externalAccountId with
  | some _ => t
  | none => t.modify id fun c => { c with externalAccountId := externalAccountId }

/-- The first part of `upsert`: what the reconnect is allowed to be. -/
def checkReconnect (grant : Grant) (reconnectingId : Option Nat) (t : Rows) : Except StoreError Rows :=
  match reconnectingId with
  | none => .ok t
  | some id =>
    match t.get id with
    | none => .ok t
    | some existing =>
      if existing.externalAccountId = grant.externalAccountId then .ok t
      else if isPlaceholder existing.externalAccountId then
        .ok (adoptPlaceholder id existing grant.externalAccountId t)
      else .error (.reconnectMismatch existing.externalAccountId grant.externalAccountId)

def Grant.shownName (g : Grant) : String := if g.displayName = "" then g.externalAccountId else g.displayName

/-- What the upsert writes to the row it conflicts with. -/
def reconnectedRow (grant : Grant) (c : ConnectionRow) : ConnectionRow :=
  { c with displayName := grant.shownName, status := .active, lastErrorClass := none, lastErrorDetail := none }

/-- `INSERT … ON CONFLICT ON CONSTRAINT connections_natural_key DO UPDATE … RETURNING id`. -/
def insertOrUpdate (userId : Nat) (provider : ProviderKind) (grant : Grant) (t : Rows) : Nat × Rows :=
  match byNaturalKey t userId provider grant.externalAccountId with
  | some (id, _) => (id, t.modify id (reconnectedRow grant))
  | none =>
    (t.next, t.insert
      { userId := userId, provider := provider, externalAccountId := grant.externalAccountId
        displayName := grant.shownName })

/-- The identity first, then the tokens under the id it came back with. -/
def upsert (aes : AESGCM) (ring : Keyring) (nonces : TokenColumn → Nonce) (userId : Nat) (provider : ProviderKind)
    (grant : Grant) (reconnectingId : Option Nat) (t : Rows) : Except StoreError (Nat × Rows) := do
  let t ← checkReconnect grant reconnectingId t
  let (id, t) := insertOrUpdate userId provider grant t
  let t ← persistTokens aes ring nonces id provider grant t
  return (id, t)

def successRow (c : ConnectionRow) : ConnectionRow :=
  { c with status := .active, lastErrorClass := none, lastErrorDetail := none }

def markSuccess (id : Nat) (t : Rows) : Rows := t.updateWhere id (fun c => c.status != .needsReconnect) successRow

def revokedRow (detail : String) (c : ConnectionRow) : ConnectionRow :=
  { c with
    status := .needsReconnect
    lastErrorClass := some .needsReconnect
    lastErrorDetail := some (String.ofList (detail.toList.take 16384)) }

def markNeedsReconnect (id : Nat) (detail : String) (t : Rows) : Rows := t.modify id (revokedRow detail)

def DISCONNECTED : String := "disconnected at the account owner's request"

def disconnectRow (c : ConnectionRow) : ConnectionRow :=
  { c with
    ct := fun _ => none
    accessExpiresAt := none
    status := .needsReconnect
    lastErrorClass := none
    lastErrorDetail := some DISCONNECTED }

def disconnect (id userId : Nat) (t : Rows) : Bool × Rows :=
  (t.affected id fun c => c.userId == userId, t.updateWhere id (fun c => c.userId == userId) disconnectRow)

/-! ## What the store's functions do -/

section Lemmas

variable {aes : AESGCM} {ring : Keyring} {nonces : TokenColumn → Nonce} {id : Nat} {provider : ProviderKind}
  {grant : Grant} {t t' : Rows}

/-- A column is left alone, or set to an envelope of the string it was given. -/
theorem sealToken_eq_ok {column : TokenColumn} {value : Json} {r : Option Bytes}
    (h : sealToken aes ring nonces id provider column value = .ok r) :
    (value = .null ∧ r = none) ∨
      ∃ s blob, value = .str s ∧ encrypt aes (nonces column) s (aad id provider column) ring = .ok blob ∧
        r = some blob := by
  cases value with
  | null =>
    cases h
    exact .inl ⟨rfl, rfl⟩
  | str s =>
    simp only [sealToken] at h
    split at h
    next blob hb =>
      cases h
      exact .inr ⟨s, blob, rfl, hb, rfl⟩
    next => cases h
  | obj _ _ => cases h
  | other _ _ => cases h

/-- **Each column is sealed on its own.** -/
theorem sealTokens_eq_ok {sealed : TokenColumn → Option Bytes}
    (h : sealTokens aes ring nonces id provider grant = .ok sealed) (column : TokenColumn) :
    sealToken aes ring nonces id provider column (grant.token column) = .ok (sealed column) := by
  unfold sealTokens at h
  cases ha : sealToken aes ring nonces id provider .accessTokenCt grant.accessToken with
  | error e =>
    rw [ha] at h
    cases h
  | ok access =>
    cases hr : sealToken aes ring nonces id provider .refreshTokenCt grant.refreshToken with
    | error e =>
      rw [ha, hr] at h
      cases h
    | ok refresh =>
      cases hb : sealToken aes ring nonces id provider .botTokenCt grant.botToken with
      | error e =>
        rw [ha, hr, hb] at h
        cases h
      | ok bot =>
        rw [ha, hr, hb] at h
        cases h
        cases column
        · exact ha
        · exact hr
        · exact hb

theorem persistTokens_eq_ok (h : persistTokens aes ring nonces id provider grant t = .ok t') :
    ∃ sealed, sealTokens aes ring nonces id provider grant = .ok sealed ∧ fitsKeyVersion ring.current = true ∧
      t' = t.modify id (persistRow ring sealed grant) := by
  unfold persistTokens at h
  cases hs : sealTokens aes ring nonces id provider grant with
  | error e =>
    rw [hs] at h
    cases h
  | ok sealed =>
    rw [hs] at h
    by_cases hf : fitsKeyVersion ring.current = true
    · simp only [bind, Except.bind, hf, if_true] at h
      cases h
      exact ⟨sealed, rfl, hf, rfl⟩
    · simp only [bind, Except.bind, hf] at h
      cases h

/-- What a reconnect is allowed to change of another row is the account a placeholder is bound to. -/
theorem checkReconnect_eq_ok {reconnectingId : Option Nat} (h : checkReconnect grant reconnectingId t = .ok t')
    (n : Nat) : t'.get n = t.get n ∨
      ∃ c, t.get n = some c ∧ t'.get n = some { c with externalAccountId := grant.externalAccountId } := by
  unfold checkReconnect at h
  cases reconnectingId with
  | none =>
    cases h
    exact .inl rfl
  | some id =>
    cases he : t.get id with
    | none =>
      simp only [he] at h
      cases h
      exact .inl rfl
    | some existing =>
      simp only [he] at h
      split at h
      · cases h
        exact .inl rfl
      · split at h
        · cases h
          unfold adoptPlaceholder
          cases byNaturalKey t existing.userId existing.provider grant.externalAccountId with
          | some r => exact .inl rfl
          | none =>
            by_cases hn : n = id
            · subst hn
              exact .inr ⟨existing, he, by rw [Table.get_modify_self, he]; rfl⟩
            · exact .inl (Table.get_modify_of_ne t _ hn)
        · cases h

/-- A row of the table, or one that is about to be inserted and holds no token. -/
def Before (t : Rows) (n : Nat) (c : ConnectionRow) : Prop :=
  t.get n = some c ∨ t.get n = none ∧ c.ct = fun _ => none

theorem byNaturalKey_eq_some {userId : Nat} {externalAccountId : String} {c : ConnectionRow}
    (h : byNaturalKey t userId provider externalAccountId = some (id, c)) : t.get id = some c ∧ c.provider = provider := by
  obtain ⟨hc, hk⟩ := Table.first_eq_some h
  simp only [ConnectionRow.hasKey, Bool.and_eq_true, beq_iff_eq] at hk
  exact ⟨hc, hk.1.2⟩

/-- **One row is inserted or updated**, and the others are as they were. -/
theorem insertOrUpdate_eq {userId : Nat} (h : insertOrUpdate userId provider grant t = (id, t')) :
    (∃ c, Before t id c ∧ c.provider = provider ∧ t'.get id = some (reconnectedRow grant c)) ∧
      ∀ n, n ≠ id → t'.get n = t.get n := by
  unfold insertOrUpdate at h
  cases hk : byNaturalKey t userId provider grant.externalAccountId with
  | some r =>
    obtain ⟨m, c⟩ := r
    rw [hk] at h
    obtain ⟨rfl, rfl⟩ := Prod.mk.inj h
    obtain ⟨hc, hp⟩ := byNaturalKey_eq_some hk
    refine ⟨⟨c, .inl hc, hp, ?_⟩, fun n hn => Table.get_modify_of_ne t _ hn⟩
    rw [Table.get_modify_self, hc]
    rfl
  | none =>
    rw [hk] at h
    obtain ⟨rfl, rfl⟩ := Prod.mk.inj h
    let row : ConnectionRow :=
      { userId := userId, provider := provider, externalAccountId := grant.externalAccountId
        displayName := grant.shownName }
    exact ⟨⟨row, .inr ⟨t.get_next, rfl⟩, rfl, Table.get_insert_self t row⟩, fun n hn => Table.get_insert_of_ne t row hn⟩

/-- **What an upsert does**: the tokens of the row it lands on are persisted; of another row at most the account changes. -/
theorem upsert_eq_ok {userId : Nat} {reconnectingId : Option Nat}
    (h : upsert aes ring nonces userId provider grant reconnectingId t = .ok (id, t')) :
    (∃ c sealed, Before t id c ∧ c.provider = provider ∧
      sealTokens aes ring nonces id provider grant = .ok sealed ∧ fitsKeyVersion ring.current = true ∧
      ∃ a, t'.get id = some (persistRow ring sealed grant (reconnectedRow grant { c with externalAccountId := a }))) ∧
      ∀ n, n ≠ id → t'.get n = t.get n ∨
        ∃ c, t.get n = some c ∧ t'.get n = some { c with externalAccountId := grant.externalAccountId } := by
  unfold upsert at h
  cases hc : checkReconnect grant reconnectingId t with
  | error e =>
    rw [hc] at h
    cases h
  | ok t₁ =>
    rw [hc] at h
    simp only [bind, Except.bind] at h
    generalize hi : insertOrUpdate userId provider grant t₁ = r at h
    obtain ⟨m, t₂⟩ := r
    cases hp : persistTokens aes ring nonces m provider grant t₂ with
    | error e =>
      simp only [hp] at h
      cases h
    | ok t₃ =>
      simp only [hp] at h
      cases h
      obtain ⟨sealed, hs, hf, rfl⟩ := persistTokens_eq_ok hp
      obtain ⟨⟨c, hb, hpr, hget⟩, hother⟩ := insertOrUpdate_eq hi
      have hid : ((t₂.modify id (persistRow ring sealed grant)).get id) =
          some (persistRow ring sealed grant (reconnectedRow grant c)) := by
        rw [Table.get_modify_self, hget]
        rfl
      constructor
      · rcases checkReconnect_eq_ok hc id with he | ⟨c₀, hc₀, he⟩
        · exact ⟨c, sealed, by unfold Before; rw [← he]; exact hb, hpr, hs, hf, c.externalAccountId, hid⟩
        · have hcc : c = { c₀ with externalAccountId := grant.externalAccountId } := by
            rcases hb with hb | ⟨hb, -⟩
            · exact Option.some.inj (hb.symm.trans he)
            · rw [he] at hb
              cases hb
          subst hcc
          exact ⟨c₀, sealed, .inl hc₀, hpr, hs, hf, _, hid⟩
      · intro n hn
        rw [Table.get_modify_of_ne _ _ hn, hother n hn]
        exact checkReconnect_eq_ok hc n

end Lemmas

end Connections
end SafeSend
