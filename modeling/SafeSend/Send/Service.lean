import SafeSend.Send.Recipients
/-!
# The gate

Drafts, the send decision table, replay, and the two operator actions.  A draft is inert: nothing here contacts a
provider but the lookup of a channel's name.
-/
namespace SafeSend
namespace Send

open Lib

/-- A refusal the caller can act on. -/
structure SendGateError where
  code : String
  message : String
  status : Nat := 422
  classification : String := "permanent"
  actionUrl : Option String := none
  deriving DecidableEq, Repr

inductive GateExn
  | gate (e : SendGateError)
  | db (e : DbError)
  deriving DecidableEq, Repr

def notFound (what : String) : GateExn := .gate { code := "not_found", message := "no such " ++ what, status := 404 }

def recipientInvalid (message : String) : GateExn := .gate { code := "recipient_invalid", message := message }

/-! ## Drafts -/

/-- The `draft` object; `recipient` is its `to`. -/
structure DraftBody where
  id : Nat
  channel : ProviderKind
  recipient : String
  subject : Option String
  body : String
  idempotencyKey : String
  deriving DecidableEq, Repr

structure Confirmation where
  channel : ProviderKind
  recipientDisplay : String
  connectionDisplay : String
  connectionId : Nat
  subject : Option String
  body : String
  confirmSha256 : String
  warning : String
  deriving DecidableEq, Repr

structure DraftView where
  draft : DraftBody
  confirmation : Confirmation
  deriving DecidableEq, Repr

def draftView (id : Nat) (row : DraftRow) (connectionId : Nat) (connection : ConnectionRow) : DraftView where
  draft := ⟨id, row.channel, row.recipient, row.subject, row.body, row.idempotencyKey⟩
  confirmation :=
    ⟨row.channel, row.recipientDisplay, connection.displayName, connectionId, row.subject, row.body, row.digest,
      warningFor row.channel row.recipientDisplay connection.displayName⟩

def connectionById (id : Nat) : SendProg (Except GateExn ConnectionRow) := do
  match ← perform (.connectionById id) with
  | none => return .error (notFound "connection")
  | some connection => return .ok connection

def reconnectUrl (connectionId : Nat) (provider : ProviderKind) : String :=
  "/v1/connections/" ++ provider.value ++ "/authorize?reconnect=" ++ toString connectionId

/-- `_resolve_connection`: the one asked for, if it is the user's, else the user's first active one. -/
def resolveConnection (userId : Nat) (channel : ProviderKind) :
    Option Nat → SendProg (Except GateExn (Nat × ConnectionRow))
  | some id => do
    match ← connectionById id with
    | .error e => return .error e
    | .ok connection =>
      return if connection.userId ≠ userId then .error (notFound "connection") else .ok (id, connection)
  | none => do
    match ← perform (.firstConnection userId channel true) with
    | some found => return .ok found
    | none =>
      let broken ← perform (.firstConnection userId channel false)
      return .error (.gate {
        code := "connection_needs_reconnect"
        message := "no active " ++ channel.value ++ " connection to send from"
        status := 409
        classification := "needs_reconnect"
        actionUrl := some (match broken with
          | some (id, _) => reconnectUrl id channel
          | none => "/v1/connections/" ++ channel.value ++ "/authorize") })

structure NewDraft where
  userId : Nat
  channel : ProviderKind
  recipient : String
  body : String
  subject : Option String := none
  connectionId : Option Nat := none

def createDraft (a : NewDraft) : SendProg (Except GateExn DraftView) :=
  if Text.blank a.body then return .error (recipientInvalid "a draft needs a body")
  else if Text.blank a.recipient then return .error (recipientInvalid "a draft needs a recipient")
  else if a.subject.isSome ∧ a.channel ≠ .gmail then
    return .error (recipientInvalid (a.channel.value ++ " messages do not carry a subject"))
  else do
    match ← resolveConnection a.userId a.channel a.connectionId with
    | .error e => return .error e
    | .ok (connectionId, connection) =>
      let recipientDisplay ← resolveRecipient a.channel a.recipient connectionId
      let (id, row) ← perform
        (.insertDraft ⟨a.userId, connectionId, a.channel, a.recipient, recipientDisplay, a.subject, a.body⟩)
      return .ok (draftView id row connectionId connection)

def getDraft (id userId : Nat) : SendProg (Except GateExn DraftView) := do
  match ← perform (.draftOf id userId) with
  | none => return .error (notFound "draft")
  | some row =>
    match ← connectionById row.connectionId with
    | .error e => return .error e
    | .ok connection => return .ok (draftView id row row.connectionId connection)

structure DraftChange where
  recipient : Option String := none
  subject : Option String := none
  body : Option String := none

/-- The display the edited row will carry: the persisted one while the recipient does not move. -/
def nextDisplay (current : DraftView) (nextRecipient : String) : SendProg String :=
  if nextRecipient = current.draft.recipient then return current.confirmation.recipientDisplay
  else resolveRecipient current.draft.channel nextRecipient current.confirmation.connectionId

/-- Edit a draft.  Nothing here asks whether a send exists. -/
def updateDraft (id userId : Nat) (c : DraftChange) : SendProg (Except GateExn DraftView) := do
  match ← getDraft id userId with
  | .error e => return .error e
  | .ok current =>
    let nextRecipient := c.recipient.getD current.draft.recipient
    let display ← nextDisplay current nextRecipient
    match ← perform (.updateDraft id userId ⟨nextRecipient, display, c.subject, c.body⟩) with
    | .error e => return .error (.db e)
    | .ok row =>
      match ← connectionById row.connectionId with
      | .error e => return .error e
      | .ok connection => return .ok (draftView id row row.connectionId connection)

/-! ## The send decision table -/

inductive ReplaySource | cached | reconstructed
  deriving DecidableEq, Repr

/-- 24 hours. -/
def REPLAY_CACHE_TTL : Nat := 24 * 3600 * 1000000

def replaySource (createdAt now : Nat) : ReplaySource :=
  if now - createdAt ≤ REPLAY_CACHE_TTL then .cached else .reconstructed

structure SendPayload where
  sendId : Nat
  state : SendState
  idempotentReplay : Bool
  attempts : Nat
  providerMessageId : Option String
  deliveredAt : Option Nat
  dispatchedAt : Option Nat
  reconcileAttempts : Nat
  replaySource : Option ReplaySource
  error : Option (ErrorClass × Option String)
  deriving DecidableEq, Repr

/-- Reconstructed from the row every time. -/
def sendPayload (id : Nat) (row : SendRow) (source : Option ReplaySource) : SendPayload where
  sendId := id
  state := row.state
  idempotentReplay := source.isSome
  attempts := row.attempts
  providerMessageId := row.providerMessageId
  deliveredAt := row.deliveredAt
  dispatchedAt := row.dispatchedAt
  reconcileAttempts := row.reconcileAttempts
  replaySource := source
  error := row.lastErrorClass.map fun c => (c, row.lastErrorDetail)

structure SendOutcome where
  payload : SendPayload
  status : Nat
  idempotentReplay : Bool
  deriving DecidableEq, Repr

def replayPayload (id : Nat) (row : SendRow) : SendProg SendPayload := do
  let now ← perform .clock
  return sendPayload id row (some (replaySource row.createdAt now))

def confirmationRequired : GateExn := .gate {
  code := "confirmation_required"
  message := "this send needs a confirmation digest over the exact content being sent" }

def bodyMismatch : GateExn := .gate {
  code := "idempotency_key_body_mismatch"
  message := "this idempotency key was already used for different content" }

def bodyChanged : GateExn := .gate {
  code := "body_changed_since_confirmation"
  message := "the draft changed after it was confirmed; re-read it and confirm again" }

/-- `_replay`. -/
def replay (id : Nat) (row : SendRow) (confirmed : String) : SendProg (Except GateExn SendOutcome) :=
  if row.confirmedSha256 ≠ confirmed then return .error bodyMismatch
  else do
    let payload ← replayPayload id row
    return .ok ⟨payload, 200, true⟩

/-- The decision table, in order. -/
def sendDraft (draftId userId : Nat) (confirmedSha256 : Option String) : SendProg (Except GateExn SendOutcome) := do
  match ← getDraft draftId userId with
  | .error e => return .error e
  | .ok view =>
    if !truthy confirmedSha256 then return .error confirmationRequired
    else
      let confirmed := confirmedSha256.getD ""
      match ← perform (.loadSendByKey userId view.draft.idempotencyKey) with
      | some (id, row) => replay id row confirmed
      | none =>
        if confirmed ≠ view.confirmation.confirmSha256 then return .error bodyChanged
        else
          let result ← perform (.claimAndEnqueue
            ⟨userId, view.draft.id, view.confirmation.connectionId, view.draft.channel, view.draft.idempotencyKey,
              confirmed⟩)
          if !result.won then replay result.id result.row confirmed
          else return .ok ⟨sendPayload result.id result.row none, 201, false⟩

/-! ## Operator actions -/

def resolutionRequired : GateExn := .gate {
  code := "resolution_required"
  message := "this send is in doubt; resolve it explicitly rather than retrying, " ++
    "so a message that already arrived is not sent twice"
  status := 409 }

/-- Retry under the identical key. -/
def operatorRetry (id userId : Nat) : SendProg (Except GateExn SendPayload) := do
  match ← perform (.sendOf id userId) with
  | none => return .error (notFound "send")
  | some row =>
    match row.state with
    | .delivered =>
      let payload ← replayPayload id row
      return .ok payload
    | .uncertain => return .error resolutionRequired
    | .inFlight => return .ok (sendPayload id row none)
    | .failedPermanent | .failedTransient =>
      match ← perform (.operatorRetryWrite id userId row.partition) with
      | .error e => return .error (.db e)
      | .ok refreshed => return .ok (sendPayload id refreshed none)

def RESOLUTIONS : List (String × Resolution) :=
  [("marked_delivered", .markedDelivered), ("forced_resend", .forcedResend)]

/-- Settle an in-doubt send. -/
def resolveSend (id userId : Nat) (resolution : String) (note : Option String) :
    SendProg (Except GateExn (SendPayload × String)) :=
  match RESOLUTIONS.lookup resolution with
  | none =>
    return .error (recipientInvalid
      ("resolution must be one of " ++ ", ".intercalate (RESOLUTIONS.map Prod.fst)))
  | some r => do
    match ← perform (.sendOf id userId) with
    | none => return .error (notFound "send")
    | some row =>
      if row.state ≠ .uncertain then
        return .error (recipientInvalid
          ("only an uncertain send needs resolving; this one is " ++ row.state.value))
      else
        match ← perform (.resolveWrite id userId r note row.partition) with
        | .error e => return .error (.db e)
        | .ok refreshed => return .ok (sendPayload id refreshed none, resolution)

/-- A call of the API. -/
inductive Request
  | createDraft (a : NewDraft)
  | updateDraft (id userId : Nat) (c : DraftChange)
  | sendDraft (id userId : Nat) (confirmedSha256 : Option String)
  | operatorRetry (id userId : Nat)
  | resolveSend (id userId : Nat) (resolution : String) (note : Option String)

/-- The call's program; what it answers its caller changes nothing. -/
def Request.prog : Request → SendProg Unit
  | createDraft a => do let _ ← Send.createDraft a
  | updateDraft id userId c => do let _ ← Send.updateDraft id userId c
  | sendDraft id userId confirmed => do let _ ← Send.sendDraft id userId confirmed
  | operatorRetry id userId => do let _ ← Send.operatorRetry id userId
  | resolveSend id userId resolution note => do let _ ← Send.resolveSend id userId resolution note

end Send
end SafeSend
