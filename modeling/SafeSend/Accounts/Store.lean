import SafeSend.ApiKeys
import SafeSend.Connections.Store
import SafeSend.Paging.Cursor
import SafeSend.Send.Store
/-!
# Sign-in and API keys

The rows of `users` and `api_keys`, and what the routes and `require_api_key` do to them.  A route is one transaction;
`require_api_key` is two parts, what it reads first (`lookUp`) and what it writes before it commits (`touch`), since other
transactions may commit in between.
-/
namespace SafeSend
namespace Accounts

open Lib ApiKeys
open Paging (ApiError)

structure ApiKeyRow where
  userId : Nat
  keyId : String
  keyHash : String
  prefixDisplay : String
  name : String := ""
  createdAt : Nat
  lastUsedAt : Option Nat := none
  expiresAt : Option Nat := none
  revokedAt : Option Nat := none
  deriving DecidableEq, Repr

abbrev KeyRows := Table ApiKeyRow

/-- The emails of `users`: a `citext`, compared without regard to case. -/
abbrev UserRows := Table String

/-- What `os.urandom` gives for one key. -/
structure Entropy where
  idBytes : List UInt8
  secretBytes : List UInt8
  idLength : idBytes.length = KEY_ID_BYTES
  secretLength : secretBytes.length = SECRET_BYTES

/-- The zero bytes. -/
def zeroEntropy : Entropy := ⟨zeroId, zeroSecret, by decide, by decide⟩

def Entropy.mint (e : Entropy) : MintedKey := ApiKeys.mint e.idBytes e.secretBytes

structure Caller where
  userId : Nat
  keyId : String
  deriving DecidableEq, Repr

/-- What a route answers in place of its result: a refusal, a request that does not validate, or a statement the
database refused. -/
inductive Failure
  | refused (e : ApiError)
  | invalid
  | database
  deriving DecidableEq, Repr

def unauthorized : ApiError := ⟨"unauthorized", "a valid X-API-Key header is required"⟩

def noSuchKey : ApiError := ⟨"not_found", "no such API key"⟩

/-- In microseconds. -/
def LAST_USED_THROTTLE : Nat := 3600 * 1000000

/-- `UPDATE api_keys SET … WHERE p`. -/
def update (p : ApiKeyRow → Bool) (f : ApiKeyRow → ApiKeyRow) (t : KeyRows) : KeyRows :=
  t.updateAll (fun n => (t.get n).any p) f

def byKeyId (t : KeyRows) (keyId : String) : Option (Nat × ApiKeyRow) := t.first fun _ k => k.keyId == keyId

/-! ## `require_api_key` -/

/-- The row `require_api_key` read, as far as it is used later. -/
structure Checked where
  userId : Nat
  keyId : String
  expiresAt : Option Nat
  deriving DecidableEq, Repr

/-- `require_api_key` up to its `UPDATE`. -/
def lookUp (t : KeyRows) (xApiKey : Option String) : Except ApiError Checked :=
  match xApiKey with
  | none => .error unauthorized
  | some raw =>
    if raw = "" then .error unauthorized
    else
      match parse raw with
      | none => .error unauthorized
      | some keyId =>
        match byKeyId t keyId with
        | none => .error unauthorized
        | some (_, row) =>
          if !verify raw row.keyHash then .error unauthorized
          else if row.revokedAt.isSome then .error unauthorized
          else .ok { userId := row.userId, keyId := keyId, expiresAt := row.expiresAt }

/-- `last_used_at IS NULL OR last_used_at < now() - …`. -/
def unused (now : Nat) (k : ApiKeyRow) : Bool := k.lastUsedAt.all fun used => decide (used + LAST_USED_THROTTLE < now)

def usedRow (now : Nat) (k : ApiKeyRow) : ApiKeyRow := { k with lastUsedAt := some now }

def touch (now : Nat) (c : Checked) (t : KeyRows) : KeyRows :=
  update (fun k => k.keyId == c.keyId && unused now k) (usedRow now) t

/-- The rest of `require_api_key`; `now` is its transaction's. -/
def conclude (now : Nat) (c : Checked) : Except ApiError Caller :=
  if c.expiresAt.any fun e => decide (e < now) then .error unauthorized else .ok ⟨c.userId, c.keyId⟩

/-! ## The routes -/

/-- What is returned once and never again. -/
structure Issued where
  key : String
  keyId : String
  prefixDisplay : String
  deriving DecidableEq, Repr

def issuedOf (m : MintedKey) : Issued := ⟨m.plaintext, m.keyId, m.prefixDisplay⟩

def newRow (now userId : Nat) (name : String) (m : MintedKey) : ApiKeyRow where
  userId := userId
  keyId := m.keyId
  keyHash := m.keyHash
  prefixDisplay := m.prefixDisplay
  name := name
  createdAt := now

/-- `INSERT INTO api_keys`. -/
def insertKey (users : UserRows) (now userId : Nat) (name : String) (m : MintedKey) (t : KeyRows) :
    Except Failure KeyRows :=
  if !Send.Store.storable name then .error .database
  else if (byKeyId t m.keyId).isSome then .error .database
  else if (users.get userId).isNone then .error .database
  else .ok (t.insert (newRow now userId name m))

structure DevLoginRequest where
  email : String := "dev@example.test"
  name : String := "console"

/-- `INSERT INTO users … ON CONFLICT (email) DO UPDATE … RETURNING id`; `lower` is what a `citext` is compared by. -/
def upsertUser (lower : String → String) (email : String) (users : UserRows) : Except Failure (Nat × UserRows) :=
  if !Send.Store.storable email then .error .database
  else
    match users.first fun _ e => lower e == lower email with
    | some (id, _) => .ok (id, users.modify id fun _ => email)
    | none => .ok (users.next, users.insert email)

/-- The key `dev_login` issues; what it does to the connections is apart. -/
def devLogin (lower : String → String) (now : Nat) (body : DevLoginRequest) (e : Entropy) (users : UserRows)
    (t : KeyRows) : Except Failure ((Nat × Issued) × UserRows × KeyRows) := do
  let (userId, users) ← upsertUser lower body.email users
  let t ← insertKey users now userId body.name e.mint t
  return ((userId, issuedOf e.mint), users, t)

/-- A row of the listing. -/
structure KeyItem where
  keyId : String
  prefixDisplay : String
  name : String
  createdAt : Nat
  lastUsedAt : Option Nat
  expiresAt : Option Nat
  revokedAt : Option Nat
  current : Bool
  deriving DecidableEq, Repr

def itemOf (caller : Caller) (k : ApiKeyRow) : KeyItem where
  keyId := k.keyId
  prefixDisplay := k.prefixDisplay
  name := k.name
  createdAt := k.createdAt
  lastUsedAt := k.lastUsedAt
  expiresAt := k.expiresAt
  revokedAt := k.revokedAt
  current := k.keyId == caller.keyId

def listApiKeys (caller : Caller) (t : KeyRows) : List KeyItem :=
  (((t.rows.map Prod.snd).filter fun k => k.userId == caller.userId).map (itemOf caller)).reverse

/-- `CreateKeyRequest.name` has at most so many characters. -/
def NAME_MAX : Nat := 100

def createApiKey (now : Nat) (caller : Caller) (name : String) (e : Entropy) (users : UserRows) (t : KeyRows) :
    Except Failure (Issued × KeyRows) :=
  if NAME_MAX < name.length then .error .invalid
  else (insertKey users now caller.userId name e.mint t).map fun t => (issuedOf e.mint, t)

/-- `COALESCE(revoked_at, now())`. -/
def revokedRow (now : Nat) (k : ApiKeyRow) : ApiKeyRow := { k with revokedAt := some (k.revokedAt.getD now) }

/-- A key of the caller's with that id. -/
def ownKey (caller : Caller) (keyId : String) (k : ApiKeyRow) : Bool := k.keyId == keyId && k.userId == caller.userId

def revokeApiKey (now : Nat) (caller : Caller) (keyId : String) (t : KeyRows) : Except Failure (String × KeyRows) :=
  if !Send.Store.storable keyId then .error .database
  else if t.any fun _ k => ownKey caller keyId k then
    .ok (keyId, update (ownKey caller keyId) (revokedRow now) t)
  else .error (.refused noSuchKey)

/-! ## What the statements do to a row -/

theorem get_update (p : ApiKeyRow → Bool) (f : ApiKeyRow → ApiKeyRow) (t : KeyRows) (n : Nat) :
    (update p f t).get n = (t.get n).map fun k => if p k then f k else k := by
  unfold update
  rw [Table.get_updateAll]
  cases t.get n with
  | none => simp
  | some k => by_cases hp : p k <;> simp [hp]

@[simp] theorem next_update (p : ApiKeyRow → Bool) (f : ApiKeyRow → ApiKeyRow) (t : KeyRows) :
    (update p f t).next = t.next := rfl

/-- `key_id … UNIQUE`. -/
def Unique (t : KeyRows) : Prop :=
  ∀ n m k l, t.get n = some k → t.get m = some l → k.keyId = l.keyId → n = m

theorem unique_single (k : ApiKeyRow) : Unique (Table.empty.insert k) := by
  intro n m l l' hl hl' hid
  rcases Table.get_insert_cases hl with ⟨rfl, -⟩ | ⟨-, h⟩
  · rcases Table.get_insert_cases hl' with ⟨rfl, -⟩ | ⟨-, h⟩
    · rfl
    · cases h
  · cases h

theorem byKeyId_eq_some {t : KeyRows} (hu : Unique t) {keyId : String} {n : Nat} {k : ApiKeyRow} :
    byKeyId t keyId = some (n, k) ↔ t.get n = some k ∧ k.keyId = keyId := by
  unfold byKeyId
  constructor
  · intro h
    obtain ⟨hk, hid⟩ := Table.first_eq_some h
    exact ⟨hk, beq_iff_eq.1 hid⟩
  · rintro ⟨hk, rfl⟩
    cases hf : t.first fun _ l => l.keyId == k.keyId with
    | none => exact absurd (Table.first_eq_none hf n k hk) (by simp)
    | some r =>
      obtain ⟨m, l⟩ := r
      obtain ⟨hl, hid⟩ := Table.first_eq_some hf
      have hn := hu m n l k hl hk (beq_iff_eq.1 hid)
      subst hn
      rw [hk] at hl
      rw [Option.some.inj hl]

theorem byKeyId_eq_none {t : KeyRows} {keyId : String} :
    byKeyId t keyId = none ↔ ∀ n k, t.get n = some k → k.keyId ≠ keyId := by
  unfold byKeyId
  constructor
  · intro h n k hk
    exact beq_eq_false_iff_ne.1 (Table.first_eq_none h n k hk)
  · intro h
    cases hf : t.first fun _ k => k.keyId == keyId with
    | none => rfl
    | some r =>
      obtain ⟨n, k⟩ := r
      obtain ⟨hk, hid⟩ := Table.first_eq_some hf
      exact absurd (beq_iff_eq.1 hid) (h n k hk)

theorem insertKey_eq_ok {users : UserRows} {now userId : Nat} {name : String} {m : MintedKey} {t t' : KeyRows} :
    insertKey users now userId name m t = .ok t' ↔ Send.Store.storable name = true ∧
      (∀ n k, t.get n = some k → k.keyId ≠ m.keyId) ∧ (users.get userId).isSome = true ∧
      t' = t.insert (newRow now userId name m) := by
  unfold insertKey
  by_cases hname : Send.Store.storable name = true
  · rw [if_neg (by simp [hname])]
    by_cases hfree : byKeyId t m.keyId = none
    · rw [if_neg (by simp [hfree])]
      by_cases huser : (users.get userId).isSome = true
      · rw [if_neg (by rw [← Option.not_isSome, huser]; decide)]
        constructor
        · intro h
          exact ⟨hname, byKeyId_eq_none.1 hfree, huser, (Except.ok.inj h).symm⟩
        · rintro ⟨-, -, -, rfl⟩
          rfl
      · rw [if_pos (by simpa using huser)]
        constructor
        · intro h
          cases h
        · rintro ⟨-, -, h, -⟩
          exact absurd h huser
    · rw [if_pos (Option.isSome_iff_ne_none.2 hfree)]
      constructor
      · intro h
        cases h
      · rintro ⟨-, h, -⟩
        exact absurd (byKeyId_eq_none.2 h) hfree
  · rw [if_pos (by simp [hname])]
    constructor
    · intro h
      cases h
    · rintro ⟨h, -⟩
      exact absurd h hname

theorem parse_empty : parse "" = none := by decide

/-- **`lookUp` lets through what parses, hashes to a row's hash and finds it not revoked.** -/
theorem lookUp_eq_ok {t : KeyRows} (hu : Unique t) {xApiKey : Option String} {c : Checked} :
    lookUp t xApiKey = .ok c ↔ ∃ raw n k, xApiKey = some raw ∧ parse raw = some k.keyId ∧ t.get n = some k ∧
      hashSecret raw = k.keyHash ∧ k.revokedAt = none ∧ c = ⟨k.userId, k.keyId, k.expiresAt⟩ := by
  unfold lookUp
  constructor
  · intro h
    cases xApiKey with
    | none => cases h
    | some raw =>
      dsimp only at h
      by_cases hempty : raw = ""
      · rw [if_pos hempty] at h
        cases h
      rw [if_neg hempty] at h
      cases hp : parse raw with
      | none =>
        rw [hp] at h
        cases h
      | some keyId =>
        cases hk : byKeyId t keyId with
        | none =>
          simp only [hp, hk] at h
          cases h
        | some r =>
          obtain ⟨n, k⟩ := r
          simp only [hp, hk] at h
          obtain ⟨hn, hid⟩ := (byKeyId_eq_some hu).1 hk
          by_cases hv : verify raw k.keyHash = true
          · rw [if_neg (by simp [hv])] at h
            by_cases hr : k.revokedAt = none
            · rw [if_neg (by simp [hr])] at h
              refine ⟨raw, n, k, rfl, ?_, hn, beq_iff_eq.1 hv, hr, ?_⟩
              · rw [hid, hp]
              · rw [hid, Except.ok.inj h]
            · rw [if_pos (Option.isSome_iff_ne_none.2 hr)] at h
              cases h
          · rw [if_pos (by simp [hv])] at h
            cases h
  · rintro ⟨raw, n, k, rfl, hp, hn, hv, hr, rfl⟩
    have hempty : raw ≠ "" := by
      rintro rfl
      rw [parse_empty] at hp
      cases hp
    have hk : byKeyId t k.keyId = some (n, k) := (byKeyId_eq_some hu).2 ⟨hn, rfl⟩
    have hverify : verify raw k.keyHash = true := beq_iff_eq.2 hv
    dsimp only
    rw [if_neg hempty]
    simp only [hp, hk, hverify, hr, Bool.not_true, Option.isSome_none, Bool.false_eq_true, if_false]

theorem devLogin_eq_ok {lower : String → String} {now : Nat} {body : DevLoginRequest} {e : Entropy}
    {users users' : UserRows} {t t' : KeyRows} {userId : Nat} {issued : Issued}
    (h : devLogin lower now body e users t = .ok ((userId, issued), users', t')) :
    upsertUser lower body.email users = .ok (userId, users') ∧
      insertKey users' now userId body.name e.mint t = .ok t' ∧ issued = issuedOf e.mint := by
  unfold devLogin at h
  cases hu : upsertUser lower body.email users with
  | error f =>
    rw [hu] at h
    cases h
  | ok r =>
    obtain ⟨id, rows⟩ := r
    simp only [hu, bind, Except.bind] at h
    cases hi : insertKey rows now id body.name e.mint t with
    | error f =>
      simp only [hi] at h
      cases h
    | ok keys =>
      simp only [hi] at h
      cases h
      exact ⟨rfl, hi, rfl⟩

theorem createApiKey_eq_ok {now : Nat} {caller : Caller} {name : String} {e : Entropy} {users : UserRows}
    {t t' : KeyRows} {issued : Issued} (h : createApiKey now caller name e users t = .ok (issued, t')) :
    insertKey users now caller.userId name e.mint t = .ok t' ∧ issued = issuedOf e.mint := by
  unfold createApiKey at h
  by_cases hlong : NAME_MAX < name.length
  · rw [if_pos hlong] at h
    cases h
  · rw [if_neg hlong] at h
    cases hi : insertKey users now caller.userId name e.mint t with
    | error f =>
      rw [hi] at h
      cases h
    | ok keys =>
      rw [hi] at h
      cases h
      exact ⟨rfl, rfl⟩

/-- **A revocation is of a key of the caller's, or nothing is revoked.** -/
theorem revokeApiKey_eq_ok {now : Nat} {caller : Caller} {keyId answer : String} {t t' : KeyRows}
    (h : revokeApiKey now caller keyId t = .ok (answer, t')) :
    t' = update (ownKey caller keyId) (revokedRow now) t ∧ answer = keyId ∧
      ∃ n k, t.get n = some k ∧ k.keyId = keyId ∧ k.userId = caller.userId := by
  unfold revokeApiKey at h
  by_cases hid : Send.Store.storable keyId = true
  · rw [if_neg (by simp [hid])] at h
    by_cases hany : t.any (fun _ k => ownKey caller keyId k) = true
    · rw [if_pos hany] at h
      obtain ⟨rfl, rfl⟩ := Prod.mk.inj (Except.ok.inj h)
      obtain ⟨n, k, hn, hk⟩ := Table.any_eq_true.1 hany
      simp only [ownKey, Bool.and_eq_true, beq_iff_eq] at hk
      exact ⟨rfl, rfl, n, k, hn, hk⟩
    · rw [if_neg hany] at h
      cases h
  · rw [if_pos (by simp [hid])] at h
    cases h

end Accounts
end SafeSend
