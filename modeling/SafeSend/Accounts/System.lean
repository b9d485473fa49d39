import SafeSend.Lib.Run
import SafeSend.Accounts.Store
/-!
# Requests, over time

The two tables and the requests under way.  A request has arrived (its key was looked up), has committed what
`require_api_key` writes, and then runs one route; between any two of these other requests may do anything.  A route that
is refused leaves the tables as they were.
-/
namespace SafeSend
namespace Accounts

open Lib ApiKeys

inductive Stage
  | refused
  | checked (c : Checked)
  | accepted (c : Caller)
  | answered (c : Caller)
  deriving DecidableEq, Repr

/-- `now` is the one of the transaction `require_api_key` has open. -/
structure Request where
  now : Nat
  stage : Stage
  deriving DecidableEq, Repr

structure World where
  users : UserRows := .empty
  apiKeys : KeyRows := .empty
  requests : Table Request := .empty

inductive Action
  | devLogin (now : Nat) (body : DevLoginRequest) (e : Entropy)
  | arrive (now : Nat) (xApiKey : Option String)
  /-- `require_api_key` commits. -/
  | commit (request : Nat)
  | createApiKey (request now : Nat) (name : String) (e : Entropy)
  | revokeApiKey (request now : Nat) (keyId : String)

def stageOfLookUp : Except Paging.ApiError Checked → Stage
  | .ok c => .checked c
  | .error _ => .refused

def stageOfConclude : Except Paging.ApiError Caller → Stage
  | .ok c => .accepted c
  | .error _ => .refused

def Request.at (stage : Stage) (r : Request) : Request := { r with stage := stage }

/-- What `require_api_key` makes of the request. -/
def Request.checked? (r : Request) : Option Checked :=
  match r.stage with
  | .checked c => some c
  | _ => none

/-- The caller whose route is to be run. -/
def Request.ready? (r : Request) : Option Caller :=
  match r.stage with
  | .accepted c => some c
  | _ => none

namespace World

def keep (w : World) (tables : UserRows × KeyRows) : World := { w with users := tables.1, apiKeys := tables.2 }

def setStage (w : World) (r : Nat) (stage : Stage) : World :=
  { w with requests := w.requests.modify r (Request.at stage) }

/-- The tables a route leaves. -/
def outcome {α : Type} (w : World) : Except Failure (α × UserRows × KeyRows) → World
  | .ok (_, tables) => w.keep tables
  | .error _ => w

def outcomeKeys {α : Type} (w : World) : Except Failure (α × KeyRows) → World
  | .ok (_, keys) => { w with apiKeys := keys }
  | .error _ => w

variable (lower : String → String) (w : World)

def arrive (now : Nat) (xApiKey : Option String) : World :=
  { w with requests := w.requests.insert ⟨now, stageOfLookUp (lookUp w.apiKeys xApiKey)⟩ }

def commit (r now : Nat) (c : Checked) : World :=
  { w with apiKeys := touch now c w.apiKeys }.setStage r (stageOfConclude (conclude now c))

def step : Action → Option World
  | .devLogin now body e => some (w.outcome (Accounts.devLogin lower now body e w.users w.apiKeys))
  | .arrive now xApiKey => some (w.arrive now xApiKey)
  | .commit r => (w.requests.get r).bind fun req => req.checked?.map fun c => w.commit r req.now c
  | .createApiKey r now name e => (w.requests.get r).bind fun req => req.ready?.map fun c =>
      (w.outcomeKeys (Accounts.createApiKey now c name e w.users w.apiKeys)).setStage r (.answered c)
  | .revokeApiKey r now keyId => (w.requests.get r).bind fun req => req.ready?.map fun c =>
      (w.outcomeKeys (Accounts.revokeApiKey now c keyId w.apiKeys)).setStage r (.answered c)

end World

/-- The service over a database it finds. -/
def system (lower : String → String) (w₀ : World) : Machine World Action where
  init := w₀
  step := World.step lower

def Any : World → Action → Prop := fun _ _ => True

theorem checked?_eq_some {r : Request} {c : Checked} : r.checked? = some c ↔ r.stage = .checked c := by
  unfold Request.checked?
  cases r.stage <;> simp

theorem ready?_eq_some {r : Request} {c : Caller} : r.ready? = some c ↔ r.stage = .accepted c := by
  unfold Request.ready?
  cases r.stage <;> simp

/-! ## What a step does -/

/-- What a step does to the keys. -/
inductive KeyMove (w : World) (a : Action) : KeyRows → Prop
  | same : KeyMove w a w.apiKeys
  | issued (now userId : Nat) (name : String) (e : Entropy)
    (hfree : ∀ n k, w.apiKeys.get n = some k → k.keyId ≠ e.mint.keyId) :
    KeyMove w a (w.apiKeys.insert (newRow now userId name e.mint))
  | used (r : Nat) (req : Request) (c : Checked) (ha : a = .commit r) (hreq : w.requests.get r = some req)
    (hstage : req.stage = .checked c) : KeyMove w a (touch req.now c w.apiKeys)
  | revoked (r now : Nat) (keyId : String) (req : Request) (c : Caller) (ha : a = .revokeApiKey r now keyId)
    (hreq : w.requests.get r = some req) (hstage : req.stage = .accepted c) :
    KeyMove w a (update (ownKey c keyId) (revokedRow now) w.apiKeys)

/-- What a step does to the requests. -/
inductive RequestMove (w : World) (a : Action) : Table Request → Prop
  | same : RequestMove w a w.requests
  | arrived (now : Nat) (xApiKey : Option String) :
    RequestMove w a (w.requests.insert ⟨now, stageOfLookUp (lookUp w.apiKeys xApiKey)⟩)
  | committed (r : Nat) (req : Request) (c : Checked) (ha : a = .commit r) (hreq : w.requests.get r = some req)
    (hstage : req.stage = .checked c) :
    RequestMove w a (w.requests.modify r (Request.at (stageOfConclude (conclude req.now c))))
  | answered (r : Nat) (req : Request) (c : Caller) (hreq : w.requests.get r = some req)
    (hstage : req.stage = .accepted c) :
    RequestMove w a (w.requests.modify r (Request.at (.answered c)))

variable {lower : String → String} {w₀ w w' : World} {a : Action}

theorem createApiKey_move {c : Caller} {now : Nat} {name : String} {e : Entropy} :
    KeyMove w a (w.outcomeKeys (Accounts.createApiKey now c name e w.users w.apiKeys)).apiKeys := by
  cases h : Accounts.createApiKey now c name e w.users w.apiKeys with
  | error f => exact .same
  | ok r =>
    obtain ⟨issued, keys⟩ := r
    obtain ⟨-, hfree, -, rfl⟩ := insertKey_eq_ok.1 (createApiKey_eq_ok h).1
    exact .issued now c.userId name e hfree

theorem revokeApiKey_move {r : Nat} {req : Request} {c : Caller} (hreq : w.requests.get r = some req)
    (hstage : req.stage = .accepted c) {now : Nat} {keyId : String} :
    KeyMove w (.revokeApiKey r now keyId) (w.outcomeKeys (Accounts.revokeApiKey now c keyId w.apiKeys)).apiKeys := by
  cases h : Accounts.revokeApiKey now c keyId w.apiKeys with
  | error f => exact .same
  | ok answer =>
    obtain ⟨answer, keys⟩ := answer
    obtain ⟨rfl, -⟩ := revokeApiKey_eq_ok h
    exact .revoked r now keyId req c rfl hreq hstage

theorem devLogin_move {now : Nat} {body : DevLoginRequest} {e : Entropy} :
    KeyMove w a (w.outcome (Accounts.devLogin lower now body e w.users w.apiKeys)).apiKeys := by
  cases h : Accounts.devLogin lower now body e w.users w.apiKeys with
  | error f => exact .same
  | ok r =>
    obtain ⟨⟨userId, issued⟩, users, keys⟩ := r
    obtain ⟨-, hfree, -, rfl⟩ := insertKey_eq_ok.1 (devLogin_eq_ok h).2.1
    exact .issued now userId body.name e hfree

theorem requests_outcomeKeys {α : Type} (o : Except Failure (α × KeyRows)) : (w.outcomeKeys o).requests = w.requests := by
  cases o <;> rfl

theorem requests_outcome {α : Type} (o : Except Failure (α × UserRows × KeyRows)) :
    (w.outcome o).requests = w.requests := by
  cases o <;> rfl

/-- **What a step can do.** -/
theorem step_moves (h : (system lower w₀).step w a = some w') : KeyMove w a w'.apiKeys ∧ RequestMove w a w'.requests := by
  cases a with
  | devLogin now body e =>
    obtain rfl := Option.some.inj h
    exact ⟨devLogin_move, (requests_outcome _).symm ▸ .same⟩
  | arrive now xApiKey =>
    obtain rfl := Option.some.inj h
    exact ⟨.same, .arrived now xApiKey⟩
  | commit r =>
    obtain ⟨req, hreq, h⟩ := Option.bind_eq_some_iff.1 h
    obtain ⟨c, hc, rfl⟩ := Option.map_eq_some_iff.1 h
    have hstage := checked?_eq_some.1 hc
    exact ⟨.used r req c rfl hreq hstage, .committed r req c rfl hreq hstage⟩
  | createApiKey r now name e =>
    obtain ⟨req, hreq, h⟩ := Option.bind_eq_some_iff.1 h
    obtain ⟨c, hc, rfl⟩ := Option.map_eq_some_iff.1 h
    have hstage := ready?_eq_some.1 hc
    refine ⟨createApiKey_move, ?_⟩
    simp only [World.setStage, requests_outcomeKeys]
    exact .answered r req c hreq hstage
  | revokeApiKey r now keyId =>
    obtain ⟨req, hreq, h⟩ := Option.bind_eq_some_iff.1 h
    obtain ⟨c, hc, rfl⟩ := Option.map_eq_some_iff.1 h
    have hstage := ready?_eq_some.1 hc
    refine ⟨revokeApiKey_move hreq hstage, ?_⟩
    simp only [World.setStage, requests_outcomeKeys]
    exact .answered r req c hreq hstage

/-- **A request of the table a step leaves** is as it was, has arrived, or has been taken one stage further. -/
theorem RequestMove.get {t : Table Request} (h : RequestMove w a t) {r : Nat} {req : Request} (hreq : t.get r = some req) :
    w.requests.get r = some req ∨
      (r = w.requests.next ∧ ∃ now xApiKey, req = ⟨now, stageOfLookUp (lookUp w.apiKeys xApiKey)⟩) ∨
      ∃ old, w.requests.get r = some old ∧
        ((∃ c, old.stage = .checked c ∧ req = old.at (stageOfConclude (conclude old.now c))) ∨
          ∃ c, old.stage = .accepted c ∧ req = old.at (.answered c)) := by
  cases h with
  | same => exact .inl hreq
  | arrived now xApiKey =>
    rcases Table.get_insert_cases hreq with ⟨rfl, rfl⟩ | ⟨-, hold⟩
    · exact .inr (.inl ⟨rfl, now, xApiKey, rfl⟩)
    · exact .inl hold
  | committed r' req' c ha hreq' hstage =>
    rcases Table.get_modify_cases hreq with ⟨rfl, old, hold, rfl⟩ | ⟨-, hold⟩
    · rw [hreq'] at hold
      obtain rfl := Option.some.inj hold
      exact .inr (.inr ⟨req', hreq', .inl ⟨c, hstage, rfl⟩⟩)
    · exact .inl hold
  | answered r' req' c hreq' hstage =>
    rcases Table.get_modify_cases hreq with ⟨rfl, old, hold, rfl⟩ | ⟨-, hold⟩
    · rw [hreq'] at hold
      obtain rfl := Option.some.inj hold
      exact .inr (.inr ⟨req', hreq', .inr ⟨c, hstage, rfl⟩⟩)
    · exact .inl hold

/-! ## Rows -/

/-- **A row is kept**: only when it was used and when it was revoked change. -/
structure Kept (k k' : ApiKeyRow) : Prop where
  userId : k'.userId = k.userId
  keyId : k'.keyId = k.keyId
  keyHash : k'.keyHash = k.keyHash
  expiresAt : k'.expiresAt = k.expiresAt
  revokedAt : ∀ at', k.revokedAt = some at' → k'.revokedAt = some at'

theorem Kept.refl (k : ApiKeyRow) : Kept k k := ⟨rfl, rfl, rfl, rfl, fun _ h => h⟩

theorem Kept.trans {k l m : ApiKeyRow} (h : Kept k l) (h' : Kept l m) : Kept k m where
  userId := h'.userId.trans h.userId
  keyId := h'.keyId.trans h.keyId
  keyHash := h'.keyHash.trans h.keyHash
  expiresAt := h'.expiresAt.trans h.expiresAt
  revokedAt _ hr := h'.revokedAt _ (h.revokedAt _ hr)

theorem kept_usedRow (now : Nat) (k : ApiKeyRow) : Kept k (usedRow now k) := ⟨rfl, rfl, rfl, rfl, fun _ h => h⟩

theorem kept_revokedRow (now : Nat) (k : ApiKeyRow) : Kept k (revokedRow now k) := by
  refine ⟨rfl, rfl, rfl, rfl, fun at' h => ?_⟩
  rw [revokedRow, h, Option.getD_some]

/-- **What a step does to a row**: who it is and whose it is stay, and its last use is written by a commit or not at
all. -/
theorem KeyMove.row {t : KeyRows} (h : KeyMove w a t) {n : Nat} {k : ApiKeyRow} (hk : w.apiKeys.get n = some k) :
    ∃ k', t.get n = some k' ∧ Kept k k' ∧ (k'.lastUsedAt = k.lastUsedAt ∨
      ∃ r req c, a = .commit r ∧ w.requests.get r = some req ∧ req.stage = .checked c ∧ k.keyId = c.keyId ∧
        unused req.now k = true ∧ k'.lastUsedAt = some req.now) := by
  cases h with
  | same => exact ⟨k, hk, Kept.refl k, .inl rfl⟩
  | issued now userId name e hfree => exact ⟨k, Table.get_insert_of_get _ hk, Kept.refl k, .inl rfl⟩
  | used r req c ha hreq hstage =>
    rw [touch, get_update, hk, Option.map_some]
    by_cases hp : (k.keyId == c.keyId && unused req.now k) = true
    · rw [if_pos hp]
      obtain ⟨hid, hu⟩ := Bool.and_eq_true_iff.1 hp
      exact ⟨_, rfl, kept_usedRow req.now k, .inr ⟨r, req, c, ha, hreq, hstage, beq_iff_eq.1 hid, hu, rfl⟩⟩
    · rw [if_neg hp]
      exact ⟨k, rfl, Kept.refl k, .inl rfl⟩
  | revoked r now keyId req c ha hreq hstage =>
    rw [get_update, hk, Option.map_some]
    by_cases hown : ownKey c keyId k = true
    · rw [if_pos hown]
      exact ⟨_, rfl, kept_revokedRow now k, .inl rfl⟩
    · rw [if_neg hown]
      exact ⟨k, rfl, Kept.refl k, .inl rfl⟩

theorem KeyMove.keeps {t : KeyRows} (h : KeyMove w a t) {n : Nat} {k : ApiKeyRow} (hk : w.apiKeys.get n = some k) :
    ∃ k', t.get n = some k' ∧ Kept k k' := by
  obtain ⟨k', hk', hkept, -⟩ := h.row hk
  exact ⟨k', hk', hkept⟩

/-- A row of the table a step leaves was there, or was issued by the step. -/
theorem KeyMove.origin {t : KeyRows} (h : KeyMove w a t) {n : Nat} {k' : ApiKeyRow} (hk : t.get n = some k') :
    (∃ k, w.apiKeys.get n = some k ∧ Kept k k') ∨
      n = w.apiKeys.next ∧ ∀ m k, w.apiKeys.get m = some k → k.keyId ≠ k'.keyId := by
  cases hold : w.apiKeys.get n with
  | some k =>
    obtain ⟨l, hl, hkept⟩ := h.keeps hold
    rw [hk] at hl
    obtain rfl := Option.some.inj hl
    exact .inl ⟨k, rfl, hkept⟩
  | none =>
    cases h with
    | same =>
      rw [hold] at hk
      cases hk
    | issued now userId name e hfree =>
      rcases Table.get_insert_cases hk with ⟨rfl, rfl⟩ | ⟨-, hk⟩
      · exact .inr ⟨rfl, hfree⟩
      · rw [hold] at hk
        cases hk
    | used r req c ha hreq hstage =>
      rw [touch, get_update, hold] at hk
      cases hk
    | revoked r now keyId req c ha hreq hstage =>
      rw [get_update, hold] at hk
      cases hk

/-- **`key_id` stays unique.** -/
theorem KeyMove.unique {t : KeyRows} (h : KeyMove w a t) (hu : Unique w.apiKeys) : Unique t := by
  intro n m k l hk hl hid
  rcases h.origin hk with ⟨k₀, hk₀, hkept⟩ | ⟨rfl, hnew⟩ <;> rcases h.origin hl with ⟨l₀, hl₀, hkept'⟩ | ⟨rfl, hnew'⟩
  · exact hu n m k₀ l₀ hk₀ hl₀ (by rw [← hkept.keyId, hid, hkept'.keyId])
  · exact absurd (by rw [← hkept.keyId, hid]) (hnew' n k₀ hk₀)
  · exact absurd (by rw [← hkept'.keyId, hid]) (hnew m l₀ hl₀)
  · rfl

end Accounts
end SafeSend
