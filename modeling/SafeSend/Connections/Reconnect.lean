import SafeSend.Connections.Authorization
/-!
# Reconnecting

An authorization begun to repair one connection should land on that connection or be refused.  The state carries that
there is one to repair and not which, and the callback looks for the row of the grant's account: only a grant for the
account the connection already has comes back to it.
-/
namespace SafeSend
namespace Connections

open Lib Crypto

/-- The key of `connections_natural_key`. -/
def ConnectionRow.naturalKey (c : ConnectionRow) : Option (Nat × ProviderKind × String) :=
  some (c.userId, c.provider, c.externalAccountId)

/-- Another connection of the user is bound to the account. -/
def TakenByOther (t : Rows) (id userId : Nat) (provider : ProviderKind) (account : String) : Prop :=
  ∃ n c, n ≠ id ∧ t.get n = some c ∧ c.hasKey userId provider account = true

/-- The table with the one row renewed: shown and working again as the grant has it, under the key it had. -/
def renewedTable (ring : Keyring) (id : Nat) (grant : Grant) (sealed : TokenColumn → Option Text.Bytes) (t : Rows) : Rows :=
  (t.modify id (reconnectedRow grant)).modify id (persistRow ring sealed grant)

/-- What is asked of a callback of an authorization begun to reconnect `id`, whose row is `c`. -/
structure PreservesIdentity (aes : AESGCM) (ring : Keyring) (nonces : TokenColumn → Nonce) (t : Rows) (id : Nat)
    (c : ConnectionRow) (provider : ProviderKind) (grant : Grant) (outcome : Except CallbackError (Nat × Rows)) : Prop where
  mismatch : c.hasKey c.userId provider grant.externalAccountId = false → isPlaceholder c.externalAccountId = false →
    outcome = .error (.store (.reconnectMismatch c.externalAccountId grant.externalAccountId)) ∧ tableAfter t outcome = t
  adopted : c.hasKey c.userId provider grant.externalAccountId = false → isPlaceholder c.externalAccountId = true →
    ¬ TakenByOther t id c.userId provider grant.externalAccountId → ∃ t' c', outcome = .ok (id, t') ∧ t'.get id = some c' ∧
      c'.externalAccountId = grant.externalAccountId
  inPlace : c.hasKey c.userId provider grant.externalAccountId = true → ∀ n t', outcome = .ok (n, t') →
    n = id ∧ ∃ sealed, sealTokens aes ring nonces id provider grant = .ok sealed ∧ t' = renewedTable ring id grant sealed t
  completes : c.hasKey c.userId provider grant.externalAccountId = true →
    grant.externalAccountId.toList.all (· == ':') = false → fitsKeyVersion ring.current = true →
    ∀ sealed, sealTokens aes ring nonces id provider grant = .ok sealed → outcome = .ok (id, renewedTable ring id grant sealed t)
  noneCreated : (tableAfter t outcome).next = t.next

/-- The grant is for the connection's own account, or the connection is a placeholder and another has the account. -/
def LandsOnAccount (t : Rows) (id : Nat) (c : ConnectionRow) (provider : ProviderKind) (account : String) : Prop :=
  c.hasKey c.userId provider account = true ∨
    isPlaceholder c.externalAccountId = true ∧ TakenByOther t id c.userId provider account

variable {aes : AESGCM} {ring : Keyring} {nonces : TokenColumn → Nonce} {provider : ProviderKind} {grant : Grant}
  {t : Rows} {id userId : Nat} {c : ConnectionRow}

theorem hasKey_iff {account : String} :
    c.hasKey userId provider account = true ↔
      c.userId = userId ∧ c.provider = provider ∧ c.externalAccountId = account := by
  simp only [ConnectionRow.hasKey, Bool.and_eq_true, beq_iff_eq, and_assoc]

/-- The row of a natural key is the one there is. -/
theorem byNaturalKey_of_hasKey (hkeys : t.UniqueOn ConnectionRow.naturalKey) {account : String} (hc : t.get id = some c)
    (hkey : c.hasKey userId provider account = true) : byNaturalKey t userId provider account = some (id, c) := by
  cases hfirst : byNaturalKey t userId provider account with
  | none =>
    have hnone := Table.first_eq_none hfirst id c hc
    rw [hkey] at hnone
    cases hnone
  | some r =>
    obtain ⟨hget, hkey'⟩ := Table.first_eq_some (n := r.1) (a := r.2) hfirst
    rw [hasKey_iff] at hkey hkey'
    have hid : r.1 = id := by
      refine Table.uniqueOn_iff.1 hkeys r.1 id r.2 c (userId, provider, account) hget hc ?_ ?_
      · rw [ConnectionRow.naturalKey, hkey'.1, hkey'.2.1, hkey'.2.2]
      · rw [ConnectionRow.naturalKey, hkey.1, hkey.2.1, hkey.2.2]
    have hrow : r.2 = c := by
      rw [hid, hc] at hget
      exact (Option.some.inj hget).symm
    rw [← hid, ← hrow]

/-- **A grant for an account that has a row** renews that row. -/
theorem insertOrUpdate_known {n : Nat} {d : ConnectionRow}
    (hk : byNaturalKey t userId provider grant.externalAccountId = some (n, d)) :
    insertOrUpdate userId provider grant t = (n, t.modify n (reconnectedRow grant)) := by
  unfold insertOrUpdate
  rw [hk]

theorem landGrant_known {n : Nat} {d : ConnectionRow}
    (hk : byNaturalKey t userId provider grant.externalAccountId = some (n, d)) {m : Nat} {t' : Rows}
    (h : landGrant aes ring nonces userId provider grant t = .ok (m, t')) :
    m = n ∧ ∃ sealed, sealTokens aes ring nonces n provider grant = .ok sealed ∧ t' = renewedTable ring n grant sealed t := by
  obtain ⟨t₁, sealed, hins, hs, rfl⟩ := landGrant_eq_ok h
  rw [insertOrUpdate_known hk] at hins
  obtain ⟨rfl, rfl⟩ := Prod.mk.inj hins
  exact ⟨rfl, sealed, hs, rfl⟩

/-- **A grant for an account that has none** inserts a row. -/
theorem landGrant_unknown (hk : byNaturalKey t userId provider grant.externalAccountId = none) {m : Nat} {t' : Rows}
    (h : landGrant aes ring nonces userId provider grant t = .ok (m, t')) : m = t.next ∧ t'.next = t.next + 1 := by
  obtain ⟨t₁, sealed, hins, -, rfl⟩ := landGrant_eq_ok h
  unfold insertOrUpdate at hins
  rw [hk] at hins
  obtain ⟨rfl, rfl⟩ := Prod.mk.inj hins
  exact ⟨rfl, rfl⟩

/-- **The transaction preserves the identity exactly where the grant's account leads back to it.** -/
theorem landGrant_preserves_iff (hkeys : t.UniqueOn ConnectionRow.naturalKey) (hc : t.get id = some c) :
    PreservesIdentity aes ring nonces t id c provider grant (landGrant aes ring nonces c.userId provider grant t) ↔
      LandsOnAccount t id c provider grant.externalAccountId := by
  constructor
  · intro h
    by_cases hmatch : c.hasKey c.userId provider grant.externalAccountId = true
    · exact .inl hmatch
    rw [Bool.not_eq_true] at hmatch
    refine .inr ?_
    by_cases hplace : isPlaceholder c.externalAccountId = true
    · refine ⟨hplace, ?_⟩
      by_contra htaken
      obtain ⟨t', c', hout, -, -⟩ := h.adopted hmatch hplace htaken
      cases hk : byNaturalKey t c.userId provider grant.externalAccountId with
      | none =>
        have hid := (landGrant_unknown hk hout).1
        have hlt := Table.lt_next_of_get hc
        omega
      | some r =>
        obtain ⟨hget, hkey⟩ := Table.first_eq_some (n := r.1) (a := r.2) hk
        have hne : r.1 ≠ id := by
          intro he
          rw [he, hc, Option.some.injEq] at hget
          rw [← hget, hmatch] at hkey
          cases hkey
        exact htaken ⟨r.1, r.2, hne, hget, hkey⟩
    · exact absurd (h.mismatch hmatch (Bool.eq_false_iff.2 hplace)).1 (landGrant_ne_mismatch _ _)
  · intro h
    have hnone (n : Nat) (d : ConnectionRow)
        (hk : byNaturalKey t c.userId provider grant.externalAccountId = some (n, d)) :
        (tableAfter t (landGrant aes ring nonces c.userId provider grant t)).next = t.next := by
      cases hout : landGrant aes ring nonces c.userId provider grant t with
      | error e => rfl
      | ok r =>
        obtain ⟨m, t'⟩ := r
        obtain ⟨-, sealed, -, hr⟩ := landGrant_known hk hout
        rw [tableAfter, hr]
        rfl
    rcases h with hmatch | ⟨hplace, n, d, hne, hd, hkey⟩
    · have hk := byNaturalKey_of_hasKey hkeys hc hmatch
      refine ⟨fun hother => ?_, fun hother => ?_, fun _ n t' hout => landGrant_known hk hout,
        fun _ haccount hfits sealed hs => ?_, hnone id c hk⟩
      · rw [hmatch] at hother
        cases hother
      · rw [hmatch] at hother
        cases hother
      · exact landGrant_of_sealed haccount hfits (insertOrUpdate_known hk) hs
    · have hk := byNaturalKey_of_hasKey hkeys hd hkey
      have hmatch : c.hasKey c.userId provider grant.externalAccountId = false := by
        by_contra htrue
        rw [Bool.not_eq_false] at htrue
        have hown := byNaturalKey_of_hasKey hkeys hc htrue
        rw [hk] at hown
        exact hne (congrArg Prod.fst (Option.some.inj hown))
      refine ⟨fun _ hreal => ?_, fun _ _ hfree => ?_, fun htrue => ?_, fun htrue => ?_, hnone n d hk⟩
      · rw [hplace] at hreal
        cases hreal
      · exact absurd ⟨n, d, hne, hd, hkey⟩ hfree
      · rw [hmatch] at htrue
        cases htrue
      · rw [hmatch] at htrue
        cases htrue

/-- **An authorization begun to reconnect a connection preserves its identity exactly where** the grant is for the account
the connection has, or the connection is a placeholder and another has the account; whenever in its window it completes. -/
theorem reconnect_preserves_iff (hkeys : t.UniqueOn ConnectionRow.naturalKey) (hc : t.get id = some c)
    {providerName returnTo nonce raw : String} {begun now : Int}
    (hbegin : beginAuthorization ring c.userId providerName returnTo (some id) nonce begun = .ok raw)
    (hprovider : providerFor providerName = .ok provider)
    (hnow : wholeSeconds now - wholeSeconds begun ≤ STATE_TTL_SECONDS) :
    PreservesIdentity aes ring nonces t id c provider grant
        (completeAuthorization aes ring nonces raw now (fun _ => .ok grant) t) ↔
      LandsOnAccount t id c provider grant.externalAccountId := by
  have hraw : sign ring (newState c.userId providerName nonce begun returnTo true) = raw := by
    unfold beginAuthorization at hbegin
    rw [hprovider] at hbegin
    exact Except.ok.inj hbegin
  have hverify : verify ring raw now = .ok (newState c.userId providerName nonce begun returnTo true) := by
    rw [← hraw, verify_sign, if_neg]
    exact Int.not_lt.2 hnow
  have hcomplete : completeAuthorization aes ring nonces raw now (fun _ => .ok grant) t =
      landGrant aes ring nonces c.userId provider grant t := by
    unfold completeAuthorization completeVerified
    rw [hverify]
    simp only [newState, hprovider]
  rw [hcomplete]
  exact landGrant_preserves_iff hkeys hc

/-- One connection of user 1, to the account `a`. -/
def mailbox : ConnectionRow := ⟨1, .gmail, "a", "a@acme.example", .needsReconnect, fun _ => none, 1, none, none, none⟩

def sampleNonce : Nonce := ⟨List.replicate NONCE_BYTES (.ofNat 0), List.length_replicate⟩

def grantFor (account : String) : Grant := { externalAccountId := account, displayName := account }

/-- The state of a reconnect of user 1's connection. -/
def reconnectState : String := sign sampleKeyring (newState 1 "gmail" "n" 0 "/connections" true)

theorem reconnectState_begun :
    beginAuthorization sampleKeyring 1 "gmail" "/connections" (some 0) "n" 0 = .ok reconnectState := rfl

theorem reconnect_preserves_same :
    (PreservesIdentity AESGCM.plain sampleKeyring (fun _ => sampleNonce) (Table.empty.insert mailbox) 0 mailbox .gmail
        (grantFor "a") (completeAuthorization AESGCM.plain sampleKeyring (fun _ => sampleNonce) reconnectState 0
          (fun _ => .ok (grantFor "a")) (Table.empty.insert mailbox)) ↔
      LandsOnAccount (Table.empty.insert mailbox) 0 mailbox .gmail "a") ∧
      LandsOnAccount (Table.empty.insert mailbox) 0 mailbox .gmail "a" := by
  have hprovider : providerFor "gmail" = .ok .gmail := rfl
  have hkeys : (Table.empty.insert mailbox).UniqueOn ConnectionRow.naturalKey := by decide +kernel
  exact ⟨reconnect_preserves_iff hkeys rfl reconnectState_begun hprovider (by decide), .inl (by decide)⟩

/-- Another account is authorized in a reconnect: nothing is refused, and a second connection is created. -/
theorem reconnect_creates_second :
    ¬ ∀ (t : Rows) (id : Nat) (c : ConnectionRow) (grant : Grant), t.UniqueOn ConnectionRow.naturalKey →
      t.get id = some c → c.userId = 1 →
      PreservesIdentity AESGCM.plain sampleKeyring (fun _ => sampleNonce) t id c .gmail grant
        (completeAuthorization AESGCM.plain sampleKeyring (fun _ => sampleNonce) reconnectState 0 (fun _ => .ok grant) t) := by
  intro hclaim
  have hprovider : providerFor "gmail" = .ok .gmail := rfl
  have hkeys : (Table.empty.insert mailbox).UniqueOn ConnectionRow.naturalKey := by decide +kernel
  have hlands := (reconnect_preserves_iff hkeys rfl reconnectState_begun hprovider (by decide)).1
    (hclaim (Table.empty.insert mailbox) 0 mailbox (grantFor "b") hkeys rfl rfl)
  rcases hlands with hmatch | ⟨hplace, -⟩
  · exact absurd hmatch (by decide)
  · exact absurd hplace (by decide)

end Connections
end SafeSend
