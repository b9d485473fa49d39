import SafeSend.Sha256
import SafeSend.Jobs.Recovery
/-!
# Rows of the send gate

Drafts, sends, connections, resolutions, what goes over the wire to a provider and back, and the confirmation digest.
-/
namespace SafeSend
namespace Send

open Lib

structure ConnectionRow where
  userId : Nat
  provider : ProviderKind
  status : ConnStatus := .active
  displayName : String
  deriving DecidableEq, Repr

structure DraftRow where
  userId : Nat
  connectionId : Nat
  channel : ProviderKind
  recipient : String
  recipientDisplay : String
  subject : Option String
  body : String
  idempotencyKey : String
  deriving DecidableEq, Repr

structure SendRow where
  userId : Nat
  draftId : Nat
  connectionId : Nat
  provider : ProviderKind
  idempotencyKey : String
  confirmedSha256 : String
  state : SendState := .inFlight
  providerDraftId : Option String := none
  providerMessageId : Option String := none
  attempts : Nat := 0
  reconcileAttempts : Nat := 0
  dispatchedAt : Option Nat := none
  deliveredAt : Option Nat := none
  lastErrorClass : Option ErrorClass := none
  lastErrorDetail : Option String := none
  createdAt : Nat
  deriving DecidableEq, Repr

inductive Resolution | markedDelivered | forcedResend
  deriving DecidableEq, Repr

structure ResolutionRow where
  sendId : Nat
  userId : Nat
  resolution : Resolution
  note : Option String
  deriving DecidableEq, Repr

structure SendRequest where
  fingerprint : String
  channel : ProviderKind
  recipient : String
  recipientDisplay : String
  subject : Option String
  body : String
  providerDraftId : Option String := none
  connectionId : Option Nat := none
  dispatchedAt : Option Nat := none
  deriving DecidableEq, Repr

structure SendReceipt where
  providerMessageId : String
  providerDraftId : Option String := none
  deriving DecidableEq, Repr

structure PreparedSend where
  providerDraftId : Option String := none
  deriving DecidableEq, Repr

inductive ProbeVerdict | found | absent | inconclusive
  deriving DecidableEq, Repr

structure ProbeResult where
  verdict : ProbeVerdict
  providerMessageId : Option String := none
  evidence : String := ""
  deriving DecidableEq, Repr

/-- `sha256` over channel ‖ recipient ‖ resolved recipient ‖ subject ‖ body, each part prefixed by its length. -/
def confirmationDigest (channel : ProviderKind) (recipient recipientDisplay : String) (subject : Option String)
    (body : String) : String :=
  let parts := [channel.value, recipient, recipientDisplay, subject.getD "", body]
  Sha256.hexdigest (parts.flatMap fun part =>
    let raw := Text.encode part
    Text.encode (toString raw.length ++ ":") ++ raw)

def DraftRow.digest (d : DraftRow) : String :=
  confirmationDigest d.channel d.recipient d.recipientDisplay d.subject d.body

def SendRequest.digest (r : SendRequest) : String :=
  confirmationDigest r.channel r.recipient r.recipientDisplay r.subject r.body

/-- What is stamped on the outbound message: the key itself. -/
def fingerprintFor (idempotencyKey : String) : String := idempotencyKey

/-- Python's truth of an optional string. -/
def truthy (s : Option String) : Bool := s.any fun x => !x.isEmpty

/-- `_request_for`.  Row ids count from zero here, so that an id is never falsy. -/
def requestFor (send : SendRow) (draft : DraftRow) : SendRequest where
  fingerprint := fingerprintFor send.idempotencyKey
  channel := draft.channel
  recipient := draft.recipient
  recipientDisplay := draft.recipientDisplay
  subject := draft.subject
  body := draft.body
  providerDraftId := send.providerDraftId
  connectionId := some send.connectionId
  dispatchedAt := send.dispatchedAt

/-- `f"{provider}:{connection_id}"`: one send in flight per connection. -/
def partitionOf (provider : ProviderKind) (connectionId : Nat) : String :=
  provider.value ++ ":" ++ toString connectionId

def SendRow.partition (s : SendRow) : String := partitionOf s.provider s.connectionId

@[simp] theorem digest_requestFor (send : SendRow) (draft : DraftRow) : (requestFor send draft).digest = draft.digest := rfl

@[simp] theorem fingerprint_requestFor (send : SendRow) (draft : DraftRow) :
    (requestFor send draft).fingerprint = send.idempotencyKey := rfl

/-! ## What the worker writes to a send

Each is one guarded statement in a transaction of its own; the guards are `inFlight`, and for `uncertain` also that a
dispatch was recorded. -/

def inFlight (s : SendRow) : Bool := s.state == .inFlight

def inDoubt (s : SendRow) : Bool := s.state == .uncertain

def dispatchRow (now : Nat) (draftId : Option String) (s : SendRow) : SendRow :=
  { s with
    dispatchedAt := some (s.dispatchedAt.getD now)
    providerDraftId := s.providerDraftId.or draftId
    attempts := s.attempts + 1 }

def deliveredRow (now : Nat) (receipt : SendReceipt) (evidence : String) (s : SendRow) : SendRow :=
  { s with
    state := .delivered
    providerMessageId := some receipt.providerMessageId
    providerDraftId := receipt.providerDraftId.or s.providerDraftId
    deliveredAt := some now
    lastErrorClass := none
    lastErrorDetail := if evidence = "" then none else some evidence }

def uncertainRow (reason : String) (s : SendRow) : SendRow :=
  { s with state := .uncertain, lastErrorClass := some .transient, lastErrorDetail := some reason }

def errorRow (errorClass : ErrorClass) (detail : String) (s : SendRow) : SendRow :=
  { s with lastErrorClass := some errorClass, lastErrorDetail := some detail }

def terminalRow (state : SendState) (errorClass : ErrorClass) (detail : String) (s : SendRow) : SendRow :=
  { s with state := state, lastErrorClass := some errorClass, lastErrorDetail := some detail }

def bumpRow (s : SendRow) : SendRow := { s with reconcileAttempts := s.reconcileAttempts + 1 }

/-! ## What an operator writes to a send -/

def OPERATOR_ATTESTED : String := "operator-attested"

def operatorRetryRow (s : SendRow) : SendRow := { s with state := .inFlight, reconcileAttempts := 0 }

def attestedRow (now : Nat) (s : SendRow) : SendRow :=
  { s with
    state := .delivered
    providerMessageId := some (s.providerMessageId.getD OPERATOR_ATTESTED)
    deliveredAt := some (s.deliveredAt.getD now) }

def resendRow (s : SendRow) : SendRow := { s with state := .inFlight, reconcileAttempts := 0, dispatchedAt := none }

end Send
end SafeSend
