import SafeSend.Lib.Run
import SafeSend.Connections.Rotation
import SafeSend.Connections.Tokens
/-!
# The connections, over time

The table, the keyrings that have been deployed and the calls of `get_token` under way.  A process keeps the keyring it
first loaded, so a step may work with any of them.  A call reads its row under the connection's advisory lock and
holds the lock until Google has answered and what came of it is committed; nothing else takes the lock.
-/
namespace SafeSend
namespace Connections

open Lib Crypto

inductive Stage
  | waiting
  | refreshing (connection : ConnectionRow) (refreshToken : String)
  | returned (token : String)
  | raised (e : Exn)

structure Call where
  connectionId : Nat
  kind : TokenKind
  stage : Stage := .waiting

def Call.refreshing (c : Call) : Bool :=
  match c.stage with
  | .refreshing _ _ => true
  | _ => false

structure World where
  connections : Rows := .empty
  keyring : Keyring
  /-- The keyrings deployed before this one, the latest first. -/
  retired : List Keyring := []
  calls : Table Call := .empty

/-- A keyring some process may have loaded: the one deployed `age` keyrings ago. -/
def World.ring (w : World) (age : Nat) : Keyring := (w.keyring :: w.retired).getD age w.keyring

/-- What a transaction takes from its surroundings: the age of its process's keyring, the clock and fresh nonces. -/
structure Env where
  age : Nat := 0
  now : Int
  nonces : TokenColumn → Nonce

inductive Action
  /-- A completed authorization lands. -/
  | authorize (e : Env) (userId : Nat) (provider : ProviderKind) (payload : Payload) (reconnectingId : Option Nat)
  /-- `get_token` is called. -/
  | call (connectionId : Nat) (kind : TokenKind)
  /-- A call has the lock, and reads. -/
  | read (call : Nat) (e : Env)
  /-- Google has answered a call, and it commits. -/
  | answer (call : Nat) (e : Env) (answer : Except Exn Payload)
  /-- A call dies with its process. -/
  | crash (call : Nat)
  | expireAccessToken (now : Int) (connectionId : Nat)
  | recordSuccess (connectionId : Nat)
  | disconnect (connectionId userId : Nat)
  /-- A keyring with one more key is deployed. -/
  | grow (version : Int) (key : Key)
  | rotate (age : Nat) (nonces : Nat → TokenColumn → Nonce) (locked : Nat → Bool) (batch : Nat)

/-- The connection a payload lands on, and the table it leaves. -/
def authorize (aes : AESGCM) (ring : Keyring) (e : Env) (userId : Nat) (provider : ProviderKind) (payload : Payload)
    (reconnectingId : Option Nat) (t : Rows) : Except Exn (Nat × Rows) :=
  match grantFrom provider e.now payload false with
  | .error x => .error x
  | .ok grant =>
    match upsert aes ring e.nonces userId provider grant reconnectingId t with
    | .error x => .error x.toExn
    | .ok r => .ok r

/-- Where a call's reading leaves it. -/
def Stage.ofProgress : Except Exn Progress → Stage
  | .error e => .raised e
  | .ok (.token value) => .returned value
  | .ok (.refresh connection refreshToken) => .refreshing connection refreshToken

def Stage.ofResult : Except Exn String → Stage
  | .error e => .raised e
  | .ok value => .returned value

/-- The advisory lock of a connection is held. -/
def World.locked (w : World) (connectionId : Nat) : Bool :=
  w.calls.any fun _ c => c.connectionId == connectionId && c.refreshing

variable (aes : AESGCM)

def World.read (w : World) (p : Nat) (e : Env) (c : Call) : World :=
  let progress := getToken aes (w.ring e.age) e.now c.connectionId (w.connections.get c.connectionId) c.kind
  { w with calls := w.calls.modify p fun c => { c with stage := Stage.ofProgress progress } }

def World.answer (w : World) (p : Nat) (e : Env) (c : Call) (connection : ConnectionRow)
    (answer : Except Exn Payload) : World :=
  let r := finishRefresh aes (w.ring e.age) e.nonces e.now c.connectionId connection answer w.connections
  { w with
    connections := r.2
    calls := w.calls.modify p fun c => { c with stage := Stage.ofResult r.1 } }

/-- One step, none where it cannot be taken.  A transaction that raises leaves the table as it was. -/
def step (w : World) : Action → Option World
  | .authorize e userId provider payload reconnectingId =>
    match authorize aes (w.ring e.age) e userId provider payload reconnectingId w.connections with
    | .ok (_, t) => some { w with connections := t }
    | .error _ => some w
  | .call connectionId kind => some { w with calls := w.calls.insert { connectionId := connectionId, kind := kind } }
  | .read p e =>
    match w.calls.get p with
    | some ⟨id, kind, .waiting⟩ => if w.locked id then none else some (w.read aes p e ⟨id, kind, .waiting⟩)
    | _ => none
  | .answer p e answer =>
    match w.calls.get p with
    | some ⟨id, kind, .refreshing connection refreshToken⟩ =>
      some (w.answer aes p e ⟨id, kind, .refreshing connection refreshToken⟩ connection answer)
    | _ => none
  | .crash p =>
    match w.calls.get p with
    | some c => match c.stage with
      | .waiting => some { w with calls := w.calls.erase p }
      | .refreshing _ _ => some { w with calls := w.calls.erase p }
      | _ => none
    | none => none
  | .expireAccessToken now id => some { w with connections := expireAccessToken now id w.connections }
  | .recordSuccess id => some { w with connections := markSuccess id w.connections }
  | .disconnect id userId => some { w with connections := (disconnect id userId w.connections).2 }
  | .grow version key =>
    match w.keyring.keys.lookup version with
    | some _ => none
    | none => some { w with keyring := w.keyring.add version key, retired := w.keyring :: w.retired }
  | .rotate age nonces locked batch =>
    match rotateBatch aes (w.ring age) nonces locked batch w.connections with
    | .ok t => some { w with connections := t }
    | .error _ => some w

/-- The system, from an empty table under a first keyring. -/
def system (first : Keyring) : Machine World Action := ⟨{ keyring := first }, step aes⟩

end Connections
end SafeSend
