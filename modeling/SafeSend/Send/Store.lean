import SafeSend.Lib.Prog
import SafeSend.Send.Rows
/-!
# The store

The tables, the messages at the providers, and the atomic operations every program of the send gate is made of.  An
operation is one transaction of the database, or one half of a call to a provider: a call is handed over (`sendCall`),
and its answer comes later, if at all (`sendAnswer`); in between the provider accepts the message or drops it.  `forced`
counts the forced resends applied to each send; no program reads it.
-/
namespace SafeSend
namespace Send

open Lib

inductive CallStatus | pending | accepted | dropped
  deriving DecidableEq, Repr

structure Call where
  provider : ProviderKind
  request : SendRequest
  status : CallStatus := .pending
  deriving DecidableEq, Repr

structure Store where
  now : Nat := 0
  connections : Table ConnectionRow := .empty
  drafts : Table DraftRow := .empty
  sends : Table SendRow := .empty
  jobs : Queue.Jobs := .empty
  resolutions : Table ResolutionRow := .empty
  calls : Table Call := .empty
  forced : Nat → Nat := fun _ => 0

/-- A statement the database refused. -/
inductive DbError | noRow | checkViolation | uniqueViolation | untranslatable
  deriving DecidableEq, Repr

/-- The worker's guarded writes to one send. -/
inductive Write
  | dispatch (draftId : Option String)
  | delivered (receipt : SendReceipt) (evidence : String)
  | uncertain (reason : String)
  | error (errorClass : ErrorClass) (detail : String)
  | terminal (state : SendState) (errorClass : ErrorClass) (detail : String)

/-- PostgreSQL's `text` takes no NUL. -/
def Store.storable (s : String) : Bool := s.toList.all fun c => c.toNat != 0

/-- The texts a write hands to the database. -/
def Write.texts : Write → List String
  | dispatch draftId => draftId.toList
  | delivered receipt evidence => receipt.providerMessageId :: evidence :: receipt.providerDraftId.toList
  | uncertain reason => [reason]
  | error _ detail => [detail]
  | terminal _ _ detail => [detail]

/-- The database takes the write. -/
def Write.storable (u : Write) : Bool := u.texts.all Store.storable

def Write.guard : Write → SendRow → Bool
  | uncertain _, s => inFlight s && s.dispatchedAt.isSome
  | _, s => inFlight s

def Write.row (now : Nat) : Write → SendRow → SendRow
  | dispatch draftId => dispatchRow now draftId
  | delivered receipt evidence => deliveredRow now receipt evidence
  | uncertain reason => uncertainRow reason
  | error errorClass detail => errorRow errorClass detail
  | terminal state errorClass detail => terminalRow state errorClass detail

structure ClaimArgs where
  userId : Nat
  draftId : Nat
  connectionId : Nat
  provider : ProviderKind
  idempotencyKey : String
  confirmedSha256 : String

structure ClaimResult where
  id : Nat
  row : SendRow
  won : Bool
  deriving DecidableEq, Repr

structure DraftArgs where
  userId : Nat
  connectionId : Nat
  channel : ProviderKind
  recipient : String
  recipientDisplay : String
  subject : Option String
  body : String

structure DraftEdit where
  recipient : String
  recipientDisplay : String
  subject : Option String
  body : Option String

inductive Op
  -- the worker's
  | loadSend (id : Nat)
  | loadDraft (id : Nat)
  | write (id : Nat) (w : Write)
  | bumpReconcileAttempts (id : Nat)
  | prepare (provider : ProviderKind) (request : SendRequest)
  | sendCall (provider : ProviderKind) (request : SendRequest)
  | sendAnswer (call : Nat)
  | probe (provider : ProviderKind) (request : SendRequest)
  | discard (provider : ProviderKind) (request : SendRequest)
  | recordSuccess (connectionId : Nat)
  | adapterRun (ref : Nat)
  /-- The sweep's own statement on a job's row, in its transaction: it takes effect when the sweep commits. -/
  | recoverRow (id : Nat)
  -- the gate's
  | clock
  | draftOf (id userId : Nat)
  | connectionById (id : Nat)
  | firstConnection (userId : Nat) (provider : ProviderKind) (activeOnly : Bool)
  | channelName (recipient : String) (connectionId : Nat)
  | insertDraft (args : DraftArgs)
  | updateDraft (id userId : Nat) (edit : DraftEdit)
  | loadSendByKey (userId : Nat) (idempotencyKey : String)
  | claimAndEnqueue (args : ClaimArgs)
  | sendOf (id userId : Nat)
  | operatorRetryWrite (id userId : Nat) (partition : String)
  | resolveWrite (id userId : Nat) (resolution : Resolution) (note : Option String) (partition : String)

def Op.Ans : Op → Type
  | loadSend _ | sendOf _ _ => Option SendRow
  | loadDraft _ | draftOf _ _ => Option DraftRow
  | write _ _ => Bool
  | bumpReconcileAttempts _ | sendCall _ _ | clock => Nat
  | prepare _ _ => Except Exn PreparedSend
  | sendAnswer _ => Except Exn SendReceipt
  | probe _ _ => Except Exn ProbeResult
  | discard _ _ | adapterRun _ => Except Exn Unit
  | recordSuccess _ | recoverRow _ => Unit
  | connectionById _ => Option ConnectionRow
  | firstConnection _ _ _ => Option (Nat × ConnectionRow)
  | channelName _ _ => Option String
  | insertDraft _ => Nat × DraftRow
  | updateDraft _ _ _ => Except DbError DraftRow
  | loadSendByKey _ _ => Option (Nat × SendRow)
  | claimAndEnqueue _ => ClaimResult
  | operatorRetryWrite _ _ _ | resolveWrite _ _ _ _ _ => Except DbError SendRow

/-- The environment's part of an operation: what a provider or a handler of another kind answers, and the fresh key. -/
inductive Env
  | none
  | prepared (r : Except Exn PreparedSend)
  | receipt (r : Except Exn SendReceipt)
  | probed (r : Except Exn ProbeResult)
  | finished (r : Except Exn Unit)
  | named (r : Option String)
  | key (k : String)

namespace Store

def updateSend (w : Store) (id : Nat) (guard : SendRow → Bool) (f : SendRow → SendRow) : Store :=
  { w with sends := w.sends.updateWhere id guard f }

/-- `sends_user_key_uniq`: the row that holds the key. -/
def sendByKey (w : Store) (userId : Nat) (key : String) : Option (Nat × SendRow) :=
  w.sends.first fun _ s => s.userId == userId && s.idempotencyKey == key

def newSend (now : Nat) (a : ClaimArgs) : SendRow where
  userId := a.userId
  draftId := a.draftId
  connectionId := a.connectionId
  provider := a.provider
  idempotencyKey := a.idempotencyKey
  confirmedSha256 := a.confirmedSha256
  createdAt := now

/-- The job `send_draft` books with the row it claimed. -/
def sendJob (id : Nat) (row : SendRow) : Queue.EnqueueArgs where
  kind := .send
  refId := id
  dedupeKey := some ("send:" ++ toString id)
  partitionKey := some row.partition

/-- `claim_send`, and the job of a claim that was won: one transaction. -/
def claimAndEnqueue (settings : Settings) (w : Store) (a : ClaimArgs) : ClaimResult × Store :=
  match w.sendByKey a.userId a.idempotencyKey with
  | some (id, row) => (⟨id, row, false⟩, w)
  | none =>
    let id := w.sends.next
    let row := newSend w.now a
    (⟨id, row, true⟩,
      { w with
        sends := w.sends.insert row
        jobs := (Queue.enqueue settings w.now w.jobs (sendJob id row)).2 })

/-- The job an operator's action books where there is none to resume: no dedupe key. -/
def retryJob (id : Nat) (partition : String) : Queue.EnqueueArgs where
  kind := .send
  refId := id
  partitionKey := some partition

def latestSendJob (jobs : Queue.Jobs) (id : Nat) : Option Nat :=
  (jobs.latest fun _ j => j.kind == .send && j.refId == id).map Prod.fst

/-- What `operator_retry` writes: the row, whatever its state is by now, and a job if none exists, else the latest
one resumed; whether that one could be resumed is not looked at. -/
def operatorRetryWrite (settings : Settings) (w : Store) (id userId : Nat) (partition : String) :
    Except DbError SendRow × Store :=
  let w' := w.updateSend id (fun s => s.userId == userId) operatorRetryRow
  let jobs' : Option Queue.Jobs :=
    match latestSendJob w.jobs id with
    | none => some (Queue.enqueue settings w.now w.jobs (retryJob id partition)).2
    | some job => (Queue.operatorRetry w.now w.jobs job).map Prod.snd
  match jobs', w'.sends.get id with
  | some jobs, some row => (.ok row, { w' with jobs := jobs })
  | none, _ => (.error .uniqueViolation, w)
  | _, none => (.error .noRow, w)

/-- The latest job resumed where it is resumable, otherwise a new one. -/
def resumeOrEnqueue (settings : Settings) (now : Nat) (jobs : Queue.Jobs) (id : Nat) (partition : String) :
    Option Queue.Jobs :=
  let resumed : Option (Bool × Queue.Jobs) :=
    match latestSendJob jobs id with
    | none => some (false, jobs)
    | some job => Queue.operatorRetry now jobs job
  resumed.map fun r => if r.1 then r.2 else (Queue.enqueue settings now r.2 (retryJob id partition)).2

/-- What `resolve_send` writes: the audit row first and unconditionally, then the guarded update, and for a forced
resend the work behind it. -/
def resolveWrite (settings : Settings) (w : Store) (id userId : Nat) (resolution : Resolution) (note : Option String)
    (partition : String) : Except DbError SendRow × Store :=
  let guard := fun s : SendRow => s.userId == userId && inDoubt s
  let audited := { w with resolutions := w.resolutions.insert ⟨id, userId, resolution, note⟩ }
  let written : Option Store :=
    match resolution with
    | .markedDelivered => some (audited.updateSend id guard (attestedRow w.now))
    | .forcedResend =>
      (resumeOrEnqueue settings w.now w.jobs id partition).map fun jobs =>
        { audited.updateSend id guard resendRow with
          jobs := jobs
          forced := fun n => if n = id ∧ w.sends.affected id guard then w.forced n + 1 else w.forced n }
  match written.map fun w' => (w', w'.sends.get id) with
  | some (w', some row) => (.ok row, w')
  | some (_, none) => (.error .noRow, w)
  | none => (.error .uniqueViolation, w)

def editRow (e : DraftEdit) (d : DraftRow) : DraftRow :=
  { d with
    recipient := e.recipient
    recipientDisplay := e.recipientDisplay
    subject := e.subject.or d.subject
    body := e.body.getD d.body }

/-- `drafts_subject_only_email`. -/
def subjectAllowed (d : DraftRow) : Bool := d.channel == .gmail || d.subject.isNone

/-- The database takes the texts of an edit; a recipient and a display that are written back are ones it has taken. -/
def textsAllowed (e : DraftEdit) (d : DraftRow) : Bool :=
  (e.recipient == d.recipient || storable e.recipient) && (e.recipientDisplay == d.recipientDisplay ||
    storable e.recipientDisplay) && e.subject.all storable && e.body.all storable

/-- The edit is the owner's, and the database and the row's check accept it. -/
def editAllowed (userId : Nat) (e : DraftEdit) (d : DraftRow) : Bool :=
  d.userId == userId && textsAllowed e d && subjectAllowed (editRow e d)

def updateDraft (w : Store) (id userId : Nat) (e : DraftEdit) : Except DbError DraftRow × Store :=
  match w.drafts.get id with
  | none => (.error .noRow, w)
  | some d =>
    if d.userId ≠ userId then (.error .noRow, w)
    else if !textsAllowed e d then (.error .untranslatable, w)
    else if !subjectAllowed (editRow e d) then (.error .checkViolation, w)
    else (.ok (editRow e d), { w with drafts := w.drafts.modify id (editRow e) })

def newDraft (a : DraftArgs) (key : String) : DraftRow where
  userId := a.userId
  connectionId := a.connectionId
  channel := a.channel
  recipient := a.recipient
  recipientDisplay := a.recipientDisplay
  subject := a.subject
  body := a.body
  idempotencyKey := key

/-- `uuid.uuid4().hex` never repeats. -/
def freshKey (w : Store) (key : String) : Bool := !w.drafts.any fun _ d => d.idempotencyKey == key

end Store
end Send
end SafeSend
