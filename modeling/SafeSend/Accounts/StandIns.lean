import SafeSend.Connections.Moves
/-!
# Stand-in connections

A sign-in gives a user a stand-in connection for each provider that is not configured, and retires the ones of a provider
that is: deleted where nothing refers to them, marked `needs_reconnect` where something does.
-/
namespace SafeSend
namespace Accounts

open Lib Connections

def FAKE_CONNECTIONS : List (ProviderKind × String × String) :=
  [(.gmail, "fake:gmail:dev", "dev@example.test (fake Gmail)"), (.slack, "fake:slack:dev", "Acme HQ (fake Slack)")]

/-- What a sign-in finds: what is configured, and the connections a draft, a send or an adapter run refers to. -/
structure Found where
  configured : ProviderKind → Bool
  referred : Nat → Bool

def Found.toCreate (f : Found) : List (ProviderKind × String × String) := FAKE_CONNECTIONS.filter fun r => !f.configured r.1

/-- The providers whose stand-ins are retired. -/
def Found.retire (f : Found) : List ProviderKind := (FAKE_CONNECTIONS.map Prod.fst).filter f.configured

/-- `user_id = … AND provider::text = ANY(…) AND external_account_id LIKE 'fake:%'`. -/
def isStandIn (userId : Nat) (providers : List ProviderKind) (c : ConnectionRow) : Bool :=
  c.userId == userId && providers.contains c.provider && isPlaceholder c.externalAccountId

def STOOD_IN : String :=
  "this account was a stand-in from before a real OAuth client was configured, so it holds no credentials — " ++
    "connecting for real replaces it in place and keeps its history"

def retiredRow (c : ConnectionRow) : ConnectionRow :=
  { c with status := .needsReconnect, lastErrorClass := some .needsReconnect, lastErrorDetail := some STOOD_IN }

/-- `DELETE … WHERE` of the rows that match. -/
def deleteWhere (p : Nat → ConnectionRow → Bool) (t : Rows) : Rows where
  next := t.next
  get n := (t.get n).filter fun c => !p n c
  beyond n h := by rw [t.beyond n h]; rfl

def retireStandIns (f : Found) (userId : Nat) (t : Rows) : Rows :=
  if f.retire.isEmpty then t
  else
    let t := deleteWhere (fun n c => isStandIn userId f.retire c && !f.referred n) t
    t.updateAll (fun n => (t.get n).any fun c => isStandIn userId f.retire c && c.status != .needsReconnect) retiredRow

/-- `INSERT … ON CONFLICT ON CONSTRAINT connections_natural_key DO UPDATE SET display_name`. -/
def createStandIn (userId : Nat) (t : Rows) (r : ProviderKind × String × String) : Rows :=
  match byNaturalKey t userId r.1 r.2.1 with
  | some (id, _) => t.modify id fun c => { c with displayName := r.2.2 }
  | none => t.insert { userId := userId, provider := r.1, externalAccountId := r.2.1, displayName := r.2.2 }

/-- What `dev_login` does to the connections of the user. -/
def signInConnections (f : Found) (userId : Nat) (t : Rows) : Rows :=
  f.toCreate.foldl (createStandIn userId) (retireStandIns f userId t)

/-! ## The service with sign-ins -/

inductive Event
  | signIn (f : Found) (userId : Nat)
  | act (a : Connections.Action)

def signedIn (f : Found) (userId : Nat) (w : World) : World :=
  { w with connections := signInConnections f userId w.connections }

def service (aes : Crypto.AESGCM) (first : Crypto.Keyring) : Machine World Event where
  init := { keyring := first }
  step w
    | .signIn f userId => some (signedIn f userId w)
    | .act a => Connections.step aes w a

/-- Whoever signs in, the provider stays configured; and no account a provider names is a stand-in's. -/
def Real (provider : ProviderKind) : World → Event → Prop
  | _, .signIn f _ => f.configured provider = true
  | _, .act (.authorize e _ p payload _) =>
    ∀ grant, grantFrom p e.now payload false = .ok grant → isPlaceholder grant.externalAccountId = false
  | _, .act _ => True

/-- **No stand-in of the user's claims to be connected to the provider.** -/
def Retired (userId : Nat) (provider : ProviderKind) (t : Rows) : Prop :=
  ∀ n c, t.get n = some c → c.userId = userId → c.provider = provider → isPlaceholder c.externalAccountId = true →
    c.status = .needsReconnect

/-! ## What a sign-in does -/

section SignIn

variable {f : Found} {userId : Nat} {t : Rows} {n : Nat} {c : ConnectionRow}

theorem mem_retire {provider : ProviderKind} : provider ∈ f.retire ↔ f.configured provider = true := by
  unfold Found.retire FAKE_CONNECTIONS
  rw [List.mem_filter]
  constructor
  · exact And.right
  · intro h
    cases provider <;> simp [h]

theorem toCreate_not_configured {r : ProviderKind × String × String} (h : r ∈ f.toCreate) : f.configured r.1 = false := by
  simpa using (List.mem_filter.1 h).2

theorem toCreate_placeholder {r : ProviderKind × String × String} (h : r ∈ f.toCreate) : isPlaceholder r.2.1 = true := by
  have hall : ∀ r ∈ FAKE_CONNECTIONS, isPlaceholder r.2.1 = true := by decide
  exact hall r (List.mem_filter.1 h).1

theorem isStandIn_iff {providers : List ProviderKind} :
    isStandIn userId providers c = true ↔
      c.userId = userId ∧ c.provider ∈ providers ∧ isPlaceholder c.externalAccountId = true := by
  unfold isStandIn
  rw [Bool.and_eq_true, Bool.and_eq_true, beq_iff_eq, List.contains_iff_mem, and_assoc]

/-- A stand-in that is kept. -/
def keptRow (c : ConnectionRow) : ConnectionRow := if c.status = .needsReconnect then c else retiredRow c

theorem keptRow_status : (keptRow c).status = .needsReconnect := by
  unfold keptRow
  by_cases h : c.status = .needsReconnect
  · rw [if_pos h, h]
  · rw [if_neg h]
    rfl

theorem get_retireStandIns : (retireStandIns f userId t).get n = (t.get n).bind fun c =>
    if isStandIn userId f.retire c then if f.referred n then some (keptRow c) else none else some c := by
  unfold retireStandIns
  by_cases hempty : f.retire.isEmpty = true
  · rw [if_pos hempty]
    cases hc : t.get n with
    | none => rfl
    | some c =>
      have hno : isStandIn userId f.retire c = false := by
        rw [List.isEmpty_iff] at hempty
        simp [isStandIn, hempty]
      simp [hno]
  · rw [if_neg hempty]
    simp only [Table.get_updateAll, deleteWhere]
    cases hc : t.get n with
    | none => simp
    | some c =>
      by_cases hs : isStandIn userId f.retire c = true
      · by_cases hr : f.referred n = true
        · by_cases hstatus : c.status = .needsReconnect <;> simp [hs, hr, hstatus, keptRow]
        · simp [hs, hr]
      · simp [hs]

/-- A stand-in of the user's for a provider that is not configured, shown by its name. -/
def Renamed (f : Found) (userId : Nat) (c c' : ConnectionRow) : Prop :=
  c' = c ∨ c.userId = userId ∧ f.configured c.provider = false ∧ isPlaceholder c.externalAccountId = true ∧
    ∃ name, c' = { c with displayName := name }

theorem Renamed.trans {c' c'' : ConnectionRow} (h : Renamed f userId c c') (h' : Renamed f userId c' c'') :
    Renamed f userId c c'' := by
  rcases h with rfl | ⟨hu, hf, hp, name, rfl⟩
  · exact h'
  · rcases h' with rfl | ⟨-, -, -, name', rfl⟩
    · exact .inr ⟨hu, hf, hp, name, rfl⟩
    · exact .inr ⟨hu, hf, hp, name', rfl⟩

/-- **A stand-in is made or shown anew**; every other row is as it was. -/
theorem createStandIn_get {r : ProviderKind × String × String} (hr : r ∈ f.toCreate) :
    (∀ c, t.get n = some c → ∃ c', (createStandIn userId t r).get n = some c' ∧ Renamed f userId c c') ∧
    (t.get n = none → ∀ c', (createStandIn userId t r).get n = some c' → n = t.next ∧ f.configured c'.provider = false) ∧
    t.next ≤ (createStandIn userId t r).next ∧
    ∃ m c', (createStandIn userId t r).get m = some c' ∧ c'.hasKey userId r.1 r.2.1 = true := by
  unfold createStandIn
  cases hk : byNaturalKey t userId r.1 r.2.1 with
  | some found =>
    obtain ⟨id, d⟩ := found
    obtain ⟨hd, hkey⟩ := Table.first_eq_some hk
    refine ⟨fun c hc => ?_, fun hn c' hc' => ?_, Nat.le_refl _, id, { d with displayName := r.2.2 }, ?_, hkey⟩
    · by_cases hid : n = id
      · subst hid
        rw [hc] at hd
        obtain rfl := Option.some.inj hd
        simp only [ConnectionRow.hasKey, Bool.and_eq_true, beq_iff_eq] at hkey
        refine ⟨{ c with displayName := r.2.2 }, by rw [Table.get_modify_self, hc]; rfl,
          .inr ⟨hkey.1.1, ?_, ?_, r.2.2, rfl⟩⟩
        · rw [hkey.1.2]
          exact toCreate_not_configured hr
        · rw [hkey.2]
          exact toCreate_placeholder hr
      · exact ⟨c, by rw [Table.get_modify_of_ne _ _ hid, hc], .inl rfl⟩
    · rw [Table.get_modify, hn] at hc'
      by_cases hid : n = id <;> simp [hid] at hc'
    · rw [Table.get_modify_self, hd]
      rfl
  | none =>
    refine ⟨fun c hc => ⟨c, Table.get_insert_of_get _ hc, .inl rfl⟩, fun hn c' hc' => ?_, Nat.le_succ _, t.next, _,
      Table.get_insert_self _ _, by simp [ConnectionRow.hasKey]⟩
    rcases Table.get_insert_cases hc' with ⟨rfl, rfl⟩ | ⟨-, hold⟩
    · exact ⟨rfl, toCreate_not_configured hr⟩
    · rw [hn] at hold
      cases hold

/-- The same of several, one after another. -/
theorem createStandIns_get : ∀ {l : List (ProviderKind × String × String)} {t : Rows}, (∀ r ∈ l, r ∈ f.toCreate) →
    (∀ n c, t.get n = some c → ∃ c', (l.foldl (createStandIn userId) t).get n = some c' ∧ Renamed f userId c c') ∧
    (∀ n c', t.get n = none → (l.foldl (createStandIn userId) t).get n = some c' →
      t.next ≤ n ∧ f.configured c'.provider = false)
  | [], t, _ => ⟨fun n c hc => ⟨c, hc, .inl rfl⟩, fun n c' hn hc' => by rw [List.foldl_nil, hn] at hc'; cases hc'⟩
  | r :: l, t, hl => by
    have hr := hl r List.mem_cons_self
    obtain ⟨hkeep, hnew⟩ := createStandIns_get (t := createStandIn userId t r) fun r' hr' =>
      hl r' (List.mem_cons_of_mem _ hr')
    rw [List.foldl_cons]
    refine ⟨fun n c hc => ?_, fun n c' hn hc' => ?_⟩
    · obtain ⟨c₁, hc₁, h₁⟩ := (createStandIn_get hr).1 c hc
      obtain ⟨c₂, hc₂, h₂⟩ := hkeep n c₁ hc₁
      exact ⟨c₂, hc₂, h₁.trans h₂⟩
    · cases hn₁ : (createStandIn userId t r).get n with
      | none =>
        obtain ⟨hle, hconf⟩ := hnew n c' hn₁ hc'
        have hnext : t.next ≤ (createStandIn userId t r).next := (createStandIn_get (n := n) hr).2.2.1
        exact ⟨by omega, hconf⟩
      | some c₁ =>
        obtain ⟨rfl, hconf⟩ := (createStandIn_get hr).2.1 hn c₁ hn₁
        obtain ⟨c₂, hc₂, hrenamed⟩ := hkeep t.next c₁ hn₁
        rw [hc'] at hc₂
        obtain rfl := Option.some.inj hc₂
        refine ⟨Nat.le_refl _, ?_⟩
        rcases hrenamed with rfl | ⟨-, -, -, name, rfl⟩ <;> exact hconf

/-- **What a sign-in leaves of a connection**: a stand-in of the user's for a configured provider is gone where nothing
refers to it and marked where something does, and any other connection is as it was but for a stand-in's name. -/
theorem sign_in_leaves {c : ConnectionRow} (hc : t.get n = some c) :
    (isStandIn userId f.retire c = true → f.referred n = false → (signInConnections f userId t).get n = none) ∧
    (isStandIn userId f.retire c = true → f.referred n = true →
      (signInConnections f userId t).get n = some (keptRow c)) ∧
    (isStandIn userId f.retire c = false → ∃ c', (signInConnections f userId t).get n = some c' ∧ Renamed f userId c c') := by
  have hget : (retireStandIns f userId t).get n = _ := get_retireStandIns
  rw [hc, Option.bind_some] at hget
  have hlt : n < (retireStandIns f userId t).next := by
    have hnext : (retireStandIns f userId t).next = t.next := by
      unfold retireStandIns
      split_ifs <;> rfl
    rw [hnext]
    exact Table.lt_next_of_get hc
  have hcreate (r : ProviderKind × String × String) (hr : r ∈ f.toCreate) : r ∈ f.toCreate := hr
  obtain ⟨hkeep, hnew⟩ := @createStandIns_get f userId _ (retireStandIns f userId t) hcreate
  refine ⟨fun hs hr => ?_, fun hs hr => ?_, fun hs => ?_⟩
  · rw [if_pos hs, hr, if_neg Bool.false_ne_true] at hget
    cases hc' : (signInConnections f userId t).get n with
    | none => rfl
    | some c' =>
      have hle := (hnew n c' hget hc').1
      omega
  · rw [if_pos hs, if_pos hr] at hget
    obtain ⟨c', hc', hrenamed⟩ := hkeep n _ hget
    rw [signInConnections, hc']
    rcases hrenamed with rfl | ⟨-, hconf, -⟩
    · rfl
    · have hprovider : (keptRow c).provider = c.provider := by
        unfold keptRow
        split_ifs <;> rfl
      rw [hprovider, mem_retire.1 (isStandIn_iff.1 hs).2.1] at hconf
      cases hconf
  · rw [if_neg (by simp [hs])] at hget
    exact hkeep n c hget

/-- A connection after a sign-in was there before it, or is for a provider that is not configured. -/
theorem sign_in_origin {c' : ConnectionRow} (hc' : (signInConnections f userId t).get n = some c') :
    (∃ c, t.get n = some c ∧ (isStandIn userId f.retire c = true ∧ c' = keptRow c ∨
      isStandIn userId f.retire c = false ∧ Renamed f userId c c')) ∨ f.configured c'.provider = false := by
  cases hc : t.get n with
  | some c =>
    obtain ⟨hgone, hkept, hother⟩ := sign_in_leaves (f := f) hc
    cases hs : isStandIn userId f.retire c with
    | true =>
      cases hr : f.referred n with
      | true =>
        rw [hkept hs hr] at hc'
        exact .inl ⟨c, rfl, .inl ⟨hs, (Option.some.inj hc').symm⟩⟩
      | false =>
        rw [hgone hs hr] at hc'
        cases hc'
    | false =>
      obtain ⟨d, hd, hrenamed⟩ := hother hs
      rw [hc'] at hd
      obtain rfl := Option.some.inj hd
      exact .inl ⟨c, rfl, .inr ⟨hs, hrenamed⟩⟩
  | none =>
    have hget : (retireStandIns f userId t).get n = _ := get_retireStandIns
    rw [hc, Option.bind_none] at hget
    have hcreate (r : ProviderKind × String × String) (hr : r ∈ f.toCreate) : r ∈ f.toCreate := hr
    exact .inr ((@createStandIns_get f userId _ (retireStandIns f userId t) hcreate).2 n c' hget hc').2

end SignIn

/-- Everything is configured, and a draft refers to connection 0. -/
def bothConfigured : Found := ⟨fun _ => true, fun n => n == 0⟩

/-- Two stand-ins from before. -/
def standInRows : Rows :=
  (Table.empty.insert { userId := 0, provider := .gmail, externalAccountId := "fake:gmail:dev", displayName := "G" }).insert
    { userId := 0, provider := .slack, externalAccountId := "fake:slack:dev", displayName := "S" }

/-! ## Retired for good -/

variable {aes : Crypto.AESGCM} {first : Crypto.Keyring} {userId : Nat} {provider : ProviderKind} {w w' : World}

/-- **A sign-in retires the user's stand-ins for a configured provider.** -/
theorem sign_in_retires {f : Found} (hf : f.configured provider = true) (t : Rows) :
    Retired userId provider (signInConnections f userId t) := by
  intro n c' hc' huser hprovider hplace
  rcases sign_in_origin hc' with ⟨c, -, ⟨-, rfl⟩ | ⟨hs, rfl | ⟨-, hconf, -, name, rfl⟩⟩⟩ | hconf
  · exact keptRow_status
  · rw [isStandIn_iff.2 ⟨huser, mem_retire.2 (hprovider ▸ hf), hplace⟩] at hs
    cases hs
  · simp only at hprovider
    rw [hprovider, hf] at hconf
    cases hconf
  · rw [hprovider, hf] at hconf
    cases hconf

/-- Whoever signs in later. -/
theorem Retired.sign_in {t : Rows} (h : Retired userId provider t) {f : Found} (hf : f.configured provider = true)
    (other : Nat) : Retired userId provider (signInConnections f other t) := by
  intro n c' hc' huser hprovider hplace
  rcases sign_in_origin hc' with ⟨c, hc, ⟨-, rfl⟩ | ⟨-, rfl | ⟨-, hconf, -, name, rfl⟩⟩⟩ | hconf
  · exact keptRow_status
  · exact h n c' hc huser hprovider hplace
  · simp only at hprovider
    rw [hprovider, hf] at hconf
    cases hconf
  · rw [hprovider, hf] at hconf
    cases hconf

/-- The row an identity lands on has its account. -/
theorem insertOrUpdate_account {p : ProviderKind} {grant : Grant} {u id : Nat} {t t' : Rows} {c' : ConnectionRow}
    (h : insertOrUpdate u p grant t = (id, t')) (hc' : t'.get id = some c') :
    c'.externalAccountId = grant.externalAccountId := by
  unfold insertOrUpdate at h
  cases hk : byNaturalKey t u p grant.externalAccountId with
  | some found =>
    obtain ⟨m, d⟩ := found
    rw [hk] at h
    obtain ⟨rfl, rfl⟩ := Prod.mk.inj h
    obtain ⟨hd, hkey⟩ := Table.first_eq_some hk
    rw [Table.get_modify_self, hd] at hc'
    simp only [ConnectionRow.hasKey, Bool.and_eq_true, beq_iff_eq] at hkey
    rw [← Option.some.inj hc']
    exact hkey.2
  | none =>
    rw [hk] at h
    obtain ⟨rfl, rfl⟩ := Prod.mk.inj h
    rw [Table.get_insert_self] at hc'
    rw [← Option.some.inj hc']

/-- **A row an authorization leaves has the account of the grant, or is as it was.** -/
theorem upsert_account {ring : Crypto.Keyring} {nonces : TokenColumn → Crypto.Nonce} {p : ProviderKind} {grant : Grant}
    {u id : Nat} {r : Option Nat} {t t' : Rows} (h : upsert aes ring nonces u p grant r t = .ok (id, t')) {n : Nat}
    {c' : ConnectionRow} (hc' : t'.get n = some c') :
    t.get n = some c' ∨ c'.externalAccountId = grant.externalAccountId := by
  unfold upsert at h
  cases hc : checkReconnect grant r t with
  | error e =>
    rw [hc] at h
    cases h
  | ok t₁ =>
    rw [hc] at h
    simp only [bind, Except.bind] at h
    generalize hi : insertOrUpdate u p grant t₁ = landed at h
    obtain ⟨m, t₂⟩ := landed
    cases hp : persistTokens aes ring nonces m p grant t₂ with
    | error e =>
      simp only [hp] at h
      cases h
    | ok t₃ =>
      simp only [hp] at h
      cases h
      obtain ⟨sealed, -, -, rfl⟩ := persistTokens_eq_ok hp
      rcases Table.get_modify_cases hc' with ⟨rfl, d, hd, rfl⟩ | ⟨hn, hd⟩
      · have haccount := insertOrUpdate_account hi hd
        exact .inr haccount
      · rw [(insertOrUpdate_eq hi).2 n hn] at hd
        rcases checkReconnect_eq_ok hc n with hsame | ⟨d, -, hadopt⟩
        · rw [hsame] at hd
          exact .inl hd
        · rw [hadopt] at hd
          rw [← Option.some.inj hd]
          exact .inr rfl

/-- What a step that is no authorization does to a row: its identity stays, and a connection that needs a reconnect
needs one. -/
def Steady (c c' : ConnectionRow) : Prop :=
  c'.userId = c.userId ∧ c'.provider = c.provider ∧ c'.externalAccountId = c.externalAccountId ∧
    (c.status = .needsReconnect → c'.status = .needsReconnect)

theorem Steady.refl (c : ConnectionRow) : Steady c c := ⟨rfl, rfl, rfl, id⟩

theorem steady_of_move {a : Connections.Action} (ha : ∀ e u p x r, a ≠ .authorize e u p x r) {n : Nat} {c c' : ConnectionRow}
    (hm : RowMove aes w a n c c') : Steady c c' := by
  cases hm with
  | same => exact Steady.refl c
  | adopted | landed => exact absurd rfl (ha _ _ _ _ _)
  | persisted | expired => exact ⟨rfl, rfl, rfl, id⟩
  | revoked | disconnected => exact ⟨rfl, rfl, rfl, fun _ => rfl⟩
  | succeeded hs => exact ⟨rfl, rfl, rfl, fun h => absurd h hs⟩
  | rotated hlt hr =>
    obtain ⟨⟨ct, rfl⟩, -⟩ := rotateRow_eq_ok hr
    exact ⟨rfl, rfl, rfl, id⟩

theorem steady_step {a : Connections.Action} (ha : ∀ e u p x r, a ≠ .authorize e u p x r)
    (hstep : Connections.step aes w a = some w') {n : Nat} {c' : ConnectionRow} (hc' : w'.connections.get n = some c') :
    ∃ c, w.connections.get n = some c ∧ Steady c c' := by
  cases step_row hstep n with
  | absent _ ht => cases hc'.symm.trans ht
  | created => exact absurd rfl (ha _ _ _ _ _)
  | moved hw ht hm =>
    obtain rfl := Option.some.inj (hc'.symm.trans ht)
    exact ⟨_, hw, steady_of_move ha hm⟩

theorem Retired.act {a : Connections.Action} (h : Retired userId provider w.connections)
    (hreal : Real provider w (.act a)) (hstep : Connections.step aes w a = some w') :
    Retired userId provider w'.connections := by
  intro n c' hc' huser hprovider hplace
  by_cases ha : ∀ e u p x r, a ≠ .authorize e u p x r
  · obtain ⟨c, hc, hu, hp, hx, hstatus⟩ := steady_step ha hstep hc'
    exact hstatus (h n c hc (hu ▸ huser) (hp ▸ hprovider) (hx ▸ hplace))
  · push Not at ha
    obtain ⟨e, u, p, payload, r, rfl⟩ := ha
    simp only [Connections.step] at hstep
    cases hauth : authorize aes (w.ring e.age) e u p payload r w.connections with
    | error x =>
      rw [hauth] at hstep
      cases hstep
      exact h n c' hc' huser hprovider hplace
    | ok landed =>
      obtain ⟨id, t⟩ := landed
      rw [hauth] at hstep
      cases hstep
      obtain ⟨grant, hgrant, hupsert⟩ := authorize_eq_ok hauth
      rcases upsert_account hupsert hc' with hold | haccount
      · exact h n c' hold huser hprovider hplace
      · rw [haccount, hreal grant hgrant] at hplace
        cases hplace

/-- **Once the user has signed in with the provider configured, no stand-in claims to be connected to it again**, whatever
the service does with the connections afterwards and whoever signs in. -/
theorem stand_ins_stay_retired {f : Found} (hf : f.configured provider = true)
    (h : (service aes first).Steps (Real provider) (signedIn f userId w) w') : Retired userId provider w'.connections := by
  refine h.keep (I := fun v => Retired userId provider v.connections) ?_ (sign_in_retires hf w.connections)
  intro v b v' hv hreal hstep
  cases b with
  | signIn g other =>
    obtain rfl := Option.some.inj hstep
    exact hv.sign_in hreal other
  | act a => exact hv.act hreal hstep

def standInWorld : World where
  connections := standInRows
  keyring := .single 1 ⟨List.replicate 32 0, List.length_replicate⟩

theorem stand_ins_stay_retired_success :
    Retired 0 .gmail (markSuccess 0 (signedIn bothConfigured 0 standInWorld).connections) := by
  let m := service .plain standInWorld.keyring
  let w' : World :=
    { signedIn bothConfigured 0 standInWorld with
      connections := markSuccess 0 (signedIn bothConfigured 0 standInWorld).connections }
  have hstep : m.step (signedIn bothConfigured 0 standInWorld) (.act (.recordSuccess 0)) = some w' := rfl
  have hreal : Real .gmail (signedIn bothConfigured 0 standInWorld) (.act (.recordSuccess 0)) := trivial
  have hrun : m.Steps (Real .gmail) (signedIn bothConfigured 0 standInWorld) w' := (Machine.Steps.refl _).snoc hreal hstep
  exact @stand_ins_stay_retired .plain standInWorld.keyring 0 .gmail standInWorld w' bothConfigured rfl hrun

end Accounts
end SafeSend
