import SafeSend.Connections.Store
/-!
# Key rotation

`rotate_keys.py`: one batch re-encrypts, under the keyring's current version, the rows recorded under an older one.  A
row one of whose envelopes does not open is left alone; a row another transaction has locked is skipped.  The script
takes batches until it selects no row.
-/
namespace SafeSend
namespace Connections

open Lib Crypto
open Text (Bytes)

/-- What became of one column of a row. -/
inductive Reseal
  | absent
  | broken (detail : String)
  | resealed (blob : Bytes)

def Reseal.ct : Reseal → Option Bytes
  | resealed blob => some blob
  | _ => none

def Reseal.isBroken : Reseal → Bool
  | broken _ => true
  | _ => false

def resealToken (aes : AESGCM) (ring : Keyring) (nonces : TokenColumn → Nonce) (id : Nat) (c : ConnectionRow)
    (column : TokenColumn) : Except CryptoError Reseal :=
  match c.ct column with
  | none => .ok .absent
  | some blob =>
    match decrypt aes blob (aad id c.provider column) ring with
    | .error (.envelope d) => .ok (.broken d)
    | .error (.keyNotFound d) => .ok (.broken d)
    | .error e => .error e
    | .ok plaintext =>
      match encrypt aes (nonces column) plaintext (aad id c.provider column) ring with
      | .ok blob' => .ok (.resealed blob')
      | .error e => .error e

/-- The row re-encrypted, none where it is broken. -/
def rotateRow (aes : AESGCM) (ring : Keyring) (nonces : TokenColumn → Nonce) (id : Nat) (c : ConnectionRow) :
    Except CryptoError (Option ConnectionRow) := do
  let access ← resealToken aes ring nonces id c .accessTokenCt
  let refresh ← resealToken aes ring nonces id c .refreshTokenCt
  let bot ← resealToken aes ring nonces id c .botTokenCt
  if access.isBroken || refresh.isBroken || bot.isBroken then return none
  else
    return some { c with
      ct := fun
        | .accessTokenCt => access.ct
        | .refreshTokenCt => refresh.ct
        | .botTokenCt => bot.ct
      keyVersion := ring.current }

/-- `WHERE key_version < :target ORDER BY id LIMIT :batch FOR UPDATE SKIP LOCKED`. -/
def selectStale (ring : Keyring) (locked : Nat → Bool) (batch : Nat) (t : Rows) : List (Nat × ConnectionRow) :=
  (t.rows.filter fun r => decide (r.2.keyVersion < ring.current) && !locked r.1).take batch

def rotateOne (aes : AESGCM) (ring : Keyring) (nonces : Nat → TokenColumn → Nonce) (t : Rows)
    (r : Nat × ConnectionRow) : Except CryptoError Rows :=
  match rotateRow aes ring (nonces r.1) r.1 r.2 with
  | .ok (some c) => .ok (t.modify r.1 fun _ => c)
  | .ok none => .ok t
  | .error e => .error e

/-- One turn of the loop, with `apply=True`. -/
def rotateBatch (aes : AESGCM) (ring : Keyring) (nonces : Nat → TokenColumn → Nonce) (locked : Nat → Bool)
    (batch : Nat) (t : Rows) : Except StoreError Rows :=
  if fitsKeyVersion ring.current then
    match (selectStale ring locked batch t).foldlM (rotateOne aes ring nonces) t with
    | .ok t' => .ok t'
    | .error e => .error (.crypto e)
  else .error (.other "value out of int16 range")

/-! ## The script -/

/-- `LIMIT :batch` takes a `bigint` that is not negative. -/
def takesLimit (batch : Int) : Bool := decide (0 ≤ batch ∧ batch ≤ 9223372036854775807)

/-- The rows of a batch that are reported and left alone. -/
def countBroken (aes : AESGCM) (ring : Keyring) (nonces : Nat → TokenColumn → Nonce)
    (rows : List (Nat × ConnectionRow)) : Nat :=
  rows.countP fun r =>
    match rotateRow aes ring (nonces r.1) r.1 r.2 with
    | .ok none => true
    | _ => false

/-- What `rotate` returned or raised, and the table it leaves. -/
structure Rotation where
  result : Except StoreError Nat
  connections : Rows

def exitCode (failed : Nat) : Nat := if failed = 0 then 0 else 1

/-- `rotate`, for so many turns of its loop and with nobody else at work: `none` where it is still in it.  A turn has
nonces of its own. -/
def rotate (aes : AESGCM) (ring : Keyring) (apply : Bool) (batch : Int) :
    Nat → (Nat → Nat → TokenColumn → Nonce) → Nat → Rows → Option Rotation
  | 0, _, _, _ => none
  | fuel + 1, nonces, failed, t =>
    if takesLimit batch then
      match rotateBatch aes ring (nonces 0) (fun _ => false) batch.toNat t with
      | .error e => some ⟨.error e, t⟩
      | .ok t' =>
        let rows := selectStale ring (fun _ => false) batch.toNat t
        let failed := failed + countBroken aes ring (nonces 0) rows
        if rows.isEmpty then some ⟨.ok (exitCode failed), t⟩
        else if apply then rotate aes ring apply batch fuel (fun turn => nonces (turn + 1)) failed t'
        else some ⟨.ok (exitCode failed), t⟩
    else some ⟨.error (.other "LIMIT must not be negative"), t⟩

end Connections
end SafeSend
