import SafeSend.Providers.Client
import SafeSend.Search.Handler
import SafeSend.Send.Handler
/-!
# Executions, call by call

The handlers of both kinds of job with what the providers and the adapters do put in the place of the operation that
asked for it: a token read, a refresh, a request.  The connections are the token helper's; of the failures of the calls,
and of what Google answered the refreshes, a history is kept.
-/
namespace SafeSend
namespace Client

open Lib
open Connections (Rows TokenColumn Payload)
open Crypto (AESGCM Keyring Nonce)
open Queue (ClaimedJob)

/-- A send provider, by the calls its methods make. -/
structure Calls where
  prepare : Send.SendRequest → ClientProg (Except Exn Send.PreparedSend)
  send : Send.SendRequest → ClientProg (Except Exn Send.SendReceipt)
  probe : Send.SendRequest → ClientProg (Except Exn Send.ProbeResult)
  discard : Send.SendRequest → ClientProg (Except Exn Unit)

namespace Gmail

/-- The id in what `drafts.create` answered. -/
def createdId (x : Send.Gmail.Exchange) : Except Exn (Option String) :=
  (Send.Gmail.call x).map fun created =>
    let id := Providers.Json.get created "id"
    if id.truthy then some id.text else none

/-- `GmailSendProvider`. -/
def calls : Calls where
  prepare request :=
    match request.connectionId, truthyId request with
    | some id, false => do
      let x ← exchange id "POST" "/drafts"
      return Send.Gmail.prepare request (createdId x)
    | _, _ => return Send.Gmail.prepare request (.ok none)
  send request :=
    match request.connectionId, truthyId request with
    | some id, true => do
      let x ← exchange id "POST" "/drafts/send"
      return Send.Gmail.sendMessage request x
    | _, _ => return Send.Gmail.send request (.ok none)
  probe request :=
    match request.connectionId, truthyId request with
    | some id, true => do
      let x ← exchange id "GET" ("/drafts/" ++ request.providerDraftId.getD "")
      return Send.Gmail.probeByFingerprint request x
    | _, _ => return Send.Gmail.probeByFingerprint request ⟨.error (.other ""), .ok (), .error (.other "")⟩
  discard request :=
    match request.connectionId, truthyId request with
    | some id, true => do
      let x ← exchange id "DELETE" ("/drafts/" ++ request.providerDraftId.getD "")
      return Send.Gmail.deleteDraft x
    | none, true => return .error Send.Gmail.missingConnection
    | _, false => return .ok ()
where
  truthyId (request : Send.SendRequest) : Bool := Send.truthy request.providerDraftId

end Gmail

namespace Slack

/-- The timestamp and the channel in what `chat.postMessage` answered. -/
def posted (channel : String) (x : Send.Slack.Exchange) : Except Exn (String × String) :=
  (x.payload true).map fun payload =>
    ((Providers.Json.getOr payload "ts" (.str "")).text, (Providers.Json.getOr payload "channel" (.str channel)).text)

/-- `SlackSendProvider`. -/
def calls : Calls where
  prepare request := return Send.Slack.prepare request
  send request :=
    match request.connectionId with
    | none => return .error Send.Slack.missingConnection
    | some id => do
      let x ← exchange id "chat.postMessage"
      return Send.Slack.send request (posted request.recipient x)
  probe request :=
    match request.connectionId with
    | none => return .error Send.Slack.missingConnection
    | some id => do
      let now : Nat ← perform .clock
      let x ← exchange id "conversations.history"
      return Send.Slack.probeByFingerprint request now x
  discard _ := return .ok ()

end Slack

/-! ## The state -/

structure Site (σ : Type) where
  store : σ
  connections : Rows
  /-- The calls on a connection that failed, the latest first. -/
  failures : List (Nat × Exn) := []
  /-- The errors Google answered the refreshes of a connection with, the latest first. -/
  refusals : List (Nat × ProviderError) := []

/-- What a call takes from its surroundings. -/
inductive Env
  | none
  | read (ring : Keyring) (now : Int)
  | answered (ring : Keyring) (now : Int) (nonces : TokenColumn → Nonce) (answer : Except Exn Payload)
  | response (r : Except Exn Providers.Response)
  | time (now : Nat)

variable {σ : Type}

def noteFailure {α : Type} (id : Nat) (r : Except Exn α) (l : List (Nat × Exn)) : List (Nat × Exn) :=
  match r with
  | .error exc => (id, exc) :: l
  | .ok _ => l

def noteRefusal (id : Nat) (answer : Except Exn Payload) (l : List (Nat × ProviderError)) : List (Nat × ProviderError) :=
  match answer with
  | .error (.provider e) => (id, e) :: l
  | _ => l

/-- An operation of a client.  No connection's row is ever deleted: one that was read is there to be written. -/
def clientSem (aes : AESGCM) : (o : Op) → Env → Site σ → Option (o.Ans × Site σ)
  | .readToken id kind, .read ring now, s =>
    let progress := Connections.getToken aes ring now id (s.connections.get id) kind
    some (progress, { s with failures := noteFailure id progress s.failures })
  | .finishRefresh id connection, .answered ring now nonces answer, s =>
    (s.connections.get id).map fun _ =>
      let r := Connections.finishRefresh aes ring nonces now id connection answer s.connections
      (r.1, { s with
        connections := r.2
        failures := noteFailure id r.1 s.failures
        refusals := noteRefusal id answer s.refusals })
  | .expireAccessToken id, .read _ now, s =>
    some ((), { s with connections := Connections.expireAccessToken now id s.connections })
  | .request _ _, .response r, s => some (r, s)
  | .clock, .time now, s => some (now, s)
  | .failed id exc, .none, s => some ((), { s with failures := (id, exc) :: s.failures })
  | _, _, _ => none

/-- The operations of a handler on its store; `credits` is the connection one of them credits. -/
structure Backing (Op : Type) (Ans : Op → Type) (ε σ : Type) where
  sem : (o : Op) → ε → σ → Option (Ans o × σ)
  credits : Op → Option Nat

inductive Step (Op : Type)
  | store (o : Op)
  | client (o : Client.Op)

def Step.Ans {Op : Type} (Ans : Op → Type) : Step Op → Type
  | store o => Ans o
  | client o => o.Ans

inductive StepEnv (ε : Type)
  | store (e : ε)
  | client (e : Env)

section Backings

variable {Op : Type} {Ans : Op → Type} {ε : Type}

def Backing.credit (B : Backing Op Ans ε σ) (o : Op) (t : Rows) : Rows :=
  match B.credits o with
  | some id => Connections.markSuccess id t
  | none => t

def Backing.siteSem (B : Backing Op Ans ε σ) (aes : AESGCM) :
    (o : Step Op) → StepEnv ε → Site σ → Option (o.Ans Ans × Site σ)
  | .store o, .store e, s =>
    (B.sem o e s.store).map fun (x, store) => (x, { s with store := store, connections := B.credit o s.connections })
  | .client o, .client e, s => clientSem aes o e s
  | _, _, _ => none

abbrev StepProg (Op : Type) (Ans : Op → Type) := Prog (Step Op) (Step.Ans Ans)

def onStore (o : Op) : StepProg Op Ans (Ans o) := Prog.perform (Step.store o)

/-- A client's program, as part of a handler's. -/
def lift {α : Type} (p : ClientProg α) : StepProg Op Ans α := p.interpret fun o => Prog.perform (.client o)

/-- That what was asked of a provider or an adapter failed is noted beside it. -/
def noted {α : Type} (connectionId : Option Nat) (p : ClientProg (Except Exn α)) : ClientProg (Except Exn α) := do
  let r ← p
  match connectionId with
  | some id => noting id r r
  | none => return r

end Backings

/-! ## Sends -/

/-- An operation of the gate, or what a call that is under way was handed. -/
inductive GateOp
  | op (o : Send.Op)
  | handed (call : Nat)

def GateOp.Ans : GateOp → Type
  | op o => o.Ans
  | handed _ => Send.Call

def gate (settings : Settings) : Backing GateOp GateOp.Ans Send.Env Send.Store where
  sem
    | .op o, e, w => Send.sem settings o e w
    | .handed call, _, w => (w.calls.get call).map fun c => (c, w)
  credits
    | .op (.recordSuccess id) => some id
    | _ => none

abbrev GateProg := StepProg GateOp GateOp.Ans

/-- What the worker asks of a provider is the provider's calls. -/
def sendStep (providers : ProviderKind → Calls) : (o : Send.Op) → GateProg o.Ans
  | .prepare provider request => lift (noted request.connectionId ((providers provider).prepare request))
  | .probe provider request => lift (noted request.connectionId ((providers provider).probe request))
  | .discard provider request => lift (noted request.connectionId ((providers provider).discard request))
  | .sendAnswer call => do
    let c : Send.Call ← onStore (GateOp.handed call)
    lift (noted c.request.connectionId ((providers c.provider).send c.request))
  | o => onStore (GateOp.op o)

def sendJob (providers : ProviderKind → Calls) (job : ClaimedJob) : GateProg (Except Exn Unit) :=
  (Send.runSend job).interpret (sendStep providers)

/-- The sweep asks after a send. -/
def sweptJob (providers : ProviderKind → Calls) (job : ClaimedJob) : GateProg Queue.ReconcileOutcome :=
  (Send.reconcileSendJob job).interpret (sendStep providers)

/-! ## Adapter runs -/

def searches : Backing Search.Op Search.Op.Ans Search.Env Search.Store where
  sem := Search.sem
  credits
    | .recordSuccess id => some id
    | _ => none

/-- What a run asks of an adapter is the adapter's own calls, on the connection it is handed. -/
def searchStep (adapters : String → Option Nat → String → ClientProg (Except Exn Search.Found)) :
    (o : Search.Op) → StepProg Search.Op Search.Op.Ans o.Ans
  | .search source connectionId query => lift (noted connectionId (adapters source connectionId query))
  | o => onStore o

def adapterJob (D : Search.Deployment) (adapters : String → Option Nat → String → ClientProg (Except Exn Search.Found))
    (job : ClaimedJob) : StepProg Search.Op Search.Op.Ans (Except Exn Unit) :=
  (Search.runAdapter D job).interpret (searchStep adapters)

end Client
end SafeSend
