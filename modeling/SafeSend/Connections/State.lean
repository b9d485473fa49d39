import SafeSend.Connections.OAuth
import SafeSend.Connections.Crypto
import SafeSend.Lib.JsonText
import SafeSend.Paging.Cursor
import SafeSend.Sha256
/-!
# The signed state

`sign` and `verify`.  The callback is told nothing it can trust but the state, and the text it is given is anyone's: the
split, the encoding, the comparison, base64 and JSON each fail in a way of their own.
-/
namespace SafeSend
namespace Connections

open Lib Crypto
open Text (Bytes)

def STATE_TTL_SECONDS : Int := 900

def DOMAIN : Bytes := Text.encode "unified-search/oauth-state/v1"

structure OAuthState where
  userId : Int
  provider : String
  nonce : String
  issuedAt : Int
  returnTo : String := "/connections"
  reconnect : Bool := false
  deriving DecidableEq, Repr

/-- What `verify` raises. -/
inductive VerifyError
  | stateInvalid (detail : String)
  | unicodeEncodeError
  | typeError
  | keyError (key : String)
  | valueError
  deriving DecidableEq, Repr

/-- The keyring's current key. -/
def currentKey (ring : Keyring) : Key := (ring.keys.lookup ring.current).get ring.held

/-- `_mac`: the token key never signs anything directly. -/
def mac (ring : Keyring) (body : Bytes) : Bytes := Sha256.hmac (Sha256.hmac (currentKey ring).1 DOMAIN) body

/-- `_b64`. -/
def b64 (raw : Bytes) : List Char := Base64.strip (Base64.encode raw)

abbrev StateFields := List (String × JsonText.Scalar)

/-- The payload, its keys sorted. -/
def OAuthState.fields (s : OAuthState) : StateFields := [
  ("issued_at", .int s.issuedAt),
  ("nonce", .str s.nonce.toList),
  ("provider", .str s.provider.toList),
  ("reconnect", .bool s.reconnect),
  ("return_to", .str s.returnTo.toList),
  ("user_id", .int s.userId)]

/-- `json.dumps(…).encode("utf-8")`. -/
def dumps (fields : StateFields) : Bytes :=
  Text.encode (String.ofList (JsonText.dumps (fields.map fun f => (f.1.toList, f.2))))

/-- `json.loads` of the bytes. -/
def loads (raw : Bytes) : Option StateFields :=
  (Text.decode raw).bind fun text => (JsonText.loads text.toList).map fun fields => fields.map fun f => (String.ofList f.1, f.2)

def signature (ring : Keyring) (body : List Char) : List Char := b64 (mac ring (Text.encode (String.ofList body)))

def signBody (ring : Keyring) (body : List Char) : String := String.ofList (body ++ '.' :: signature ring body)

def sign (ring : Keyring) (s : OAuthState) : String := signBody ring (b64 (dumps s.fields))

def ascii (l : List Char) : Bool := l.all fun c => c.toNat < 128

/-- Digits, and single underscores between them. -/
def intDigits : Bool → Nat → List Char → Option Nat
  | digit, n, [] => if digit then some n else none
  | digit, n, c :: l =>
    if c.isDigit then intDigits true (10 * n + (c.toNat - 48)) l
    else if digit && c == '_' then intDigits false n l
    else none

/-- `int(v)`, a text's digits being ASCII. -/
def intOf : JsonText.Scalar → Except VerifyError Int
  | .int n => .ok n
  | .bool b => .ok (if b then 1 else 0)
  | .str s =>
    let read (sign : Int) (l : List Char) : Except VerifyError Int :=
      match intDigits false 0 l with
      | some n => .ok (sign * n)
      | none => .error .valueError
    match (Text.strip (String.ofList s)).toList with
    | '-' :: l => read (-1) l
    | '+' :: l => read 1 l
    | l => read 1 l

/-- `str(v)`. -/
def strOf : JsonText.Scalar → String
  | .int n => toString n
  | .bool b => if b then "True" else "False"
  | .str s => String.ofList s

/-- `bool(v)`. -/
def boolOf : JsonText.Scalar → Bool
  | .int n => n != 0
  | .bool b => b
  | .str s => !s.isEmpty

/-- `payload[key]`. -/
def item (payload : StateFields) (key : String) : Except VerifyError JsonText.Scalar :=
  match payload.lookup key with
  | some v => .ok v
  | none => .error (.keyError key)

/-- `int(now.timestamp())`: instants are in microseconds. -/
def wholeSeconds (now : Int) : Int := now.tdiv SECOND

def expiredDetail : String := "this authorization took too long; start again"

def readState (payload : StateFields) (issuedAt : Int) : Except VerifyError OAuthState := do
  let userId ← item payload "user_id"
  let userId ← intOf userId
  let provider ← item payload "provider"
  let nonce ← item payload "nonce"
  return {
    userId := userId
    provider := strOf provider
    nonce := strOf nonce
    issuedAt := issuedAt
    returnTo := strOf ((payload.lookup "return_to").getD (.str "/connections".toList))
    reconnect := boolOf ((payload.lookup "reconnect").getD (.bool false)) }

/-- The payload of a signature that verifies. -/
def verifyPayload (payload : StateFields) (now : Int) : Except VerifyError OAuthState :=
  match intOf ((payload.lookup "issued_at").getD (.int 0)) with
  | .error e => .error e
  | .ok issuedAt =>
    if wholeSeconds now - issuedAt > STATE_TTL_SECONDS then .error (.stateInvalid expiredDetail)
    else readState payload issuedAt

def verify (ring : Keyring) (raw : String) (now : Int) : Except VerifyError OAuthState :=
  let (body, sig) := Paging.partition '.' raw.toList
  if body.isEmpty || sig.isEmpty then .error (.stateInvalid "state is not in the expected form")
  -- `body.encode("ascii")` comes before the comparison, and the comparison takes ASCII texts alone.
  else if !ascii body then .error .unicodeEncodeError
  else if !ascii sig then .error .typeError
  else if sig ≠ signature ring body then .error (.stateInvalid "state signature does not verify")
  else
    match (Paging.unpad body).bind loads with
    | none => .error (.stateInvalid "state payload is not readable")
    | some payload => verifyPayload payload now

/-- What `connection_callback` answers to it; none where nothing catches it. -/
def VerifyError.answer : VerifyError → Option Paging.ApiError
  | .stateInvalid detail => some ⟨"state_invalid", detail⟩
  | _ => none

def newState (userId : Nat) (provider : String) (nonce : String) (now : Int) (returnTo : String) (reconnect : Bool) :
    OAuthState where
  userId := userId
  provider := provider
  nonce := nonce
  issuedAt := wholeSeconds now
  returnTo := returnTo
  reconnect := reconnect

/-! ## What is signed verifies -/

theorem loads_dumps (fields : StateFields) : loads (dumps fields) = some fields := by
  unfold loads dumps
  rw [Text.decode_encode, Option.bind_some, String.toList_ofList, JsonText.loads_dumps, Option.map_some, List.map_map]
  have hid : ((fun f : List Char × JsonText.Scalar => (String.ofList f.1, f.2)) ∘ fun f : String × JsonText.Scalar =>
      (f.1.toList, f.2)) = id := by
    funext f
    simp only [Function.comp_apply, String.ofList_toList, id_eq]
  rw [hid, List.map_id]

theorem b64_plain (raw : Bytes) : ∀ c ∈ b64 raw, c.toNat < 128 ∧ c ≠ '.' := by
  intro c hc
  rw [b64, (Base64.strip_encode raw).1] at hc
  obtain ⟨v, hv, rfl⟩ := Base64.mem_body hc
  have hall : ∀ v : Fin 64, (Base64.encodeChar v).toNat < 128 ∧ Base64.encodeChar v ≠ '.' := by decide +kernel
  exact hall ⟨v, hv⟩

theorem ascii_b64 (raw : Bytes) : ascii (b64 raw) = true :=
  List.all_eq_true.2 fun c hc => decide_eq_true (b64_plain raw c hc).1

theorem b64_ne_nil {raw : Bytes} (h : raw ≠ []) : b64 raw ≠ [] := by
  rw [b64, (Base64.strip_encode raw).1]
  cases raw with
  | nil => exact absurd rfl h
  | cons a l =>
    cases l with
    | nil => exact List.cons_ne_nil _ _
    | cons b l =>
      cases l with
      | nil => exact List.cons_ne_nil _ _
      | cons c l => exact List.cons_ne_nil _ _

theorem dumps_ne_nil (fields : StateFields) : dumps fields ≠ [] := by
  intro hnil
  have hread := loads_dumps fields
  rw [hnil] at hread
  cases hread

theorem readState_fields (s : OAuthState) : readState s.fields s.issuedAt = .ok s := by
  have huser : item s.fields "user_id" = .ok (.int s.userId) := rfl
  have hprovider : item s.fields "provider" = .ok (.str s.provider.toList) := rfl
  have hnonce : item s.fields "nonce" = .ok (.str s.nonce.toList) := rfl
  have hreturn : s.fields.lookup "return_to" = some (.str s.returnTo.toList) := rfl
  have hreconnect : s.fields.lookup "reconnect" = some (.bool s.reconnect) := rfl
  unfold readState
  rw [huser, hprovider, hnonce, hreturn, hreconnect]
  show Except.ok (OAuthState.mk s.userId (String.ofList s.provider.toList) (String.ofList s.nonce.toList) s.issuedAt
    (String.ofList s.returnTo.toList) s.reconnect) = .ok s
  rw [String.ofList_toList, String.ofList_toList, String.ofList_toList]

theorem verifyPayload_fields (s : OAuthState) (now : Int) :
    verifyPayload s.fields now =
      if wholeSeconds now - s.issuedAt > STATE_TTL_SECONDS then .error (.stateInvalid expiredDetail) else .ok s := by
  have hissued : intOf ((s.fields.lookup "issued_at").getD (.int 0)) = .ok s.issuedAt := rfl
  unfold verifyPayload
  rw [hissued]
  simp only [readState_fields]

theorem partition_sign (ring : Keyring) (s : OAuthState) :
    Paging.partition '.' (sign ring s).toList = (b64 (dumps s.fields), signature ring (b64 (dumps s.fields))) := by
  unfold sign signBody
  rw [String.toList_ofList]
  exact Paging.partition_append (fun hmem => (b64_plain _ _ hmem).2 rfl) _

/-- **A signed state verifies until it has expired.** -/
theorem verify_sign (ring : Keyring) (s : OAuthState) (now : Int) :
    verify ring (sign ring s) now =
      if wholeSeconds now - s.issuedAt > STATE_TTL_SECONDS then .error (.stateInvalid expiredDetail) else .ok s := by
  have hbody : (b64 (dumps s.fields)).isEmpty = false := List.isEmpty_eq_false_iff.2 (b64_ne_nil (dumps_ne_nil _))
  have hsig : (signature ring (b64 (dumps s.fields))).isEmpty = false :=
    List.isEmpty_eq_false_iff.2 (b64_ne_nil (Sha256.digestBytes_ne_nil _))
  have hread : (Paging.unpad (b64 (dumps s.fields))).bind loads = some s.fields := by
    rw [b64, Paging.unpad_strip, Option.bind_some, loads_dumps]
  have hascii : ascii (signature ring (b64 (dumps s.fields))) = true := ascii_b64 _
  unfold verify
  rw [partition_sign]
  simp only [hbody, hsig, hascii, ascii_b64, hread, Bool.or_self, Bool.not_true, Bool.false_eq_true, ne_eq,
    not_true_eq_false, if_false]
  exact verifyPayload_fields s now

/-- A keyring of one key. -/
def sampleKeyring : Keyring where
  keys := [(1, ⟨List.replicate KEY_BYTES 7, by decide⟩)]
  current := 1
  held := by decide
  highest := by decide

end Connections
end SafeSend
