import Mathlib.Data.Prod.Lex
import SafeSend.Isolation.Database
import SafeSend.Lib.Numerals
import SafeSend.Search.Snapshot
import SafeSend.Send.Gmail
/-!
# A user's operations

The ten operations a user's key opens, each one transaction of the database, and the sessions made of them.
-/
namespace SafeSend
namespace Isolation

open Lib (numeral)
open Lib.Tx (read write refuse)
open Send (ConnectionRow DraftView SendOutcome SendPayload DraftChange)

/-- What a call finds beside the database: the deployment, the clock, and what a channel is called through a
connection. -/
structure Around where
  settings : Settings
  registry : Search.Registry
  isoformat : Search.Instant → String
  /-- The database's collation. -/
  collate : String → String → Bool
  now : Nat
  named : String → Nat → Option String

/-! ## Drafts -/

def notFound (what : String) : Refusal := .gate (Send.notFound what)

def connectionById (id : Nat) : Tx ConnectionRow := do
  match ← read fun db => db.connections.get id with
  | none => refuse (notFound "connection")
  | some connection => return connection

def needsReconnect (channel : ProviderKind) (broken : Option (Nat × ConnectionRow)) : Refusal := .gate (.gate {
  code := "connection_needs_reconnect"
  message := "no active " ++ channel.value ++ " connection to send from"
  status := 409
  classification := "needs_reconnect"
  actionUrl := some (match broken with
    | some (id, _) => Send.reconnectUrl id channel
    | none => "/v1/connections/" ++ channel.value ++ "/authorize") })

/-- `_resolve_connection`. -/
def resolveConnection (u : Nat) (channel : ProviderKind) : Option Nat → Tx (Nat × ConnectionRow)
  | some id => do
    let connection ← connectionById id
    if connection.userId ≠ u then refuse (notFound "connection") else return (id, connection)
  | none => do
    match ← read fun db => db.firstConnection u channel true with
    | some found => return found
    | none => do
      let broken ← read fun db => db.firstConnection u channel false
      refuse (needsReconnect channel broken)

def resolveRecipient (A : Around) (channel : ProviderKind) (recipient : String) (connectionId : Nat) : String :=
  if channel = .gmail then recipient
  else if Text.startsWith recipient "#" then recipient
  else
    let resolved := A.named recipient connectionId
    if Send.truthy resolved then resolved.getD "" else Send.knownChannel recipient

/-- `uuid.uuid4().hex`. -/
def newIdempotencyKey : Tx String := do
  let id ← draw
  return String.ofList (numeral 16 32 id)

structure NewDraft where
  channel : ProviderKind
  recipient : String
  body : String
  subject : Option String := none
  connectionId : Option Nat := none
  inReplyToResultId : Option Nat := none

/-- What is refused of a draft before anything is looked up. -/
def NewDraft.fault (a : NewDraft) : Option String :=
  if Text.blank a.body then some "a draft needs a body"
  else if Text.blank a.recipient then some "a draft needs a recipient"
  else if a.subject.isSome ∧ a.channel ≠ .gmail then some (a.channel.value ++ " messages do not carry a subject")
  else none

/-- The row's own values; its key and its recipient's display beside them. -/
def NewDraft.row (a : NewDraft) (u connectionId : Nat) (recipientDisplay key : String) : DraftRow where
  userId := u
  connectionId := connectionId
  channel := a.channel
  recipient := a.recipient
  recipientDisplay := recipientDisplay
  subject := a.subject
  body := a.body
  idempotencyKey := key
  inReplyToResultId := a.inReplyToResultId

def createDraft (A : Around) (u : Nat) (a : NewDraft) : Tx DraftView :=
  match a.fault with
  | some message => refuse (.gate (Send.recipientInvalid message))
  | none => do
    let (connectionId, connection) ← resolveConnection u a.channel a.connectionId
    let key ← newIdempotencyKey
    let row := a.row u connectionId (resolveRecipient A a.channel a.recipient connectionId) key
    let id ← draw
    insertDraft id row
    return Send.draftView id row.toDraftRow connectionId connection

def getDraft (u id : Nat) : Tx DraftView := do
  match ← read fun db => db.draftOf u id with
  | none => refuse (notFound "draft")
  | some row => do
    let connection ← connectionById row.connectionId
    return Send.draftView id row.toDraftRow row.connectionId connection

/-- What the row is written with: the display stays while the recipient does. -/
def changeOf (A : Around) (current : DraftView) (c : DraftChange) : Send.DraftEdit :=
  let next := c.recipient.getD current.draft.recipient
  { recipient := next
    recipientDisplay :=
      if next = current.draft.recipient then current.confirmation.recipientDisplay
      else resolveRecipient A current.draft.channel next current.confirmation.connectionId
    subject := c.subject
    body := c.body }

def updateDraft (A : Around) (u id : Nat) (c : DraftChange) : Tx DraftView := do
  let current ← getDraft u id
  let row ← writeDraft u id (changeOf A current c)
  let connection ← connectionById row.connectionId
  return Send.draftView id row.toDraftRow row.connectionId connection

/-! ## The send decision table -/

def replayPayload (A : Around) (id : Nat) (row : SendRow) : SendPayload :=
  Send.sendPayload id row.toSendRow (some (Send.replaySource row.createdAt A.now))

def replay (A : Around) (id : Nat) (row : SendRow) (confirmed : String) : Tx SendOutcome :=
  if row.confirmedSha256 ≠ confirmed then refuse (.gate Send.bodyMismatch)
  else return ⟨replayPayload A id row, 200, true⟩

/-- `claim_send`: the row that was inserted, or the one that holds the key. -/
def claimSend (A : Around) (a : Send.ClaimArgs) : Tx (Nat × SendRow × Bool) := do
  match ← read fun db => db.sendByKey a.userId a.idempotencyKey with
  | some (id, row) => return (id, row, false)
  | none => do
    let id ← draw
    let row : SendRow := { toSendRow := Send.Store.newSend A.now a }
    insertSend id row
    return (id, row, true)

def sendDraft (A : Around) (u draftId : Nat) (confirmedSha256 : Option String) : Tx SendOutcome := do
  let view ← getDraft u draftId
  if !Send.truthy confirmedSha256 then refuse (.gate Send.confirmationRequired)
  else do
    let confirmed := confirmedSha256.getD ""
    match ← read fun db => db.sendByKey u view.draft.idempotencyKey with
    | some (id, row) => replay A id row confirmed
    | none =>
      if confirmed ≠ view.confirmation.confirmSha256 then refuse (.gate Send.bodyChanged)
      else do
        let (id, row, won) ← claimSend A
          ⟨u, view.draft.id, view.confirmation.connectionId, view.draft.channel, view.draft.idempotencyKey, confirmed⟩
        if !won then replay A id row confirmed
        else do
          let _ ← enqueue A.settings A.now (Send.Store.sendJob id row.toSendRow)
          return ⟨Send.sendPayload id row.toSendRow none, 201, false⟩

/-! ## Operator actions -/

/-- The latest job of the send resumed, or one enqueued where it has none. -/
def retryJobs (A : Around) (id : Nat) (partition : String) (jobs : Queue.Jobs) : Option Queue.Jobs :=
  match Send.Store.latestSendJob jobs id with
  | none => some (Queue.enqueue A.settings A.now jobs (Send.Store.retryJob id partition)).2
  | some job => (Queue.operatorRetry A.now jobs job).map Prod.snd

/-- `refreshed`, which is asserted to be there. -/
def refreshed (u id : Nat) : Tx SendPayload := do
  match ← read fun db => db.sendOf u id with
  | none => refuse (.gate (.db .noRow))
  | some row => return Send.sendPayload id row.toSendRow none

def operatorRetry (A : Around) (u id : Nat) : Tx SendPayload := do
  match ← read fun db => db.sendOf u id with
  | none => refuse (notFound "send")
  | some row =>
    match row.state with
    | .delivered => return replayPayload A id row
    | .uncertain => refuse (.gate Send.resolutionRequired)
    | .inFlight => return Send.sendPayload id row.toSendRow none
    | .failedPermanent | .failedTransient => do
      write fun db => db.updateSend u id (fun _ => true) Send.operatorRetryRow
      onJobs (retryJobs A id row.partition)
      refreshed u id

/-- What settling the send writes, by how it is settled. -/
def settle (A : Around) (u id : Nat) (partition : String) : Send.Resolution → Tx Unit
  | .markedDelivered => write fun db => db.updateSend u id Send.inDoubt (Send.attestedRow A.now)
  | .forcedResend => do
    write fun db => db.updateSend u id Send.inDoubt Send.resendRow
    onJobs fun jobs => Send.Store.resumeOrEnqueue A.settings A.now jobs id partition

def resolveSend (A : Around) (u id : Nat) (resolution : String) (note : Option String) : Tx (SendPayload × String) :=
  match Send.RESOLUTIONS.lookup resolution with
  | none => refuse (.gate (Send.recipientInvalid
      ("resolution must be one of " ++ ", ".intercalate (Send.RESOLUTIONS.map Prod.fst))))
  | some r => do
    match ← read fun db => db.sendOf u id with
    | none => refuse (notFound "send")
    | some row =>
      if row.state ≠ .uncertain then
        refuse (.gate (Send.recipientInvalid
          ("only an uncertain send needs resolving; this one is " ++ row.state.value)))
      else do
        insertResolution { sendId := id, userId := u, resolution := r, note := note, createdAt := A.now }
        settle A u id row.partition r
        let payload ← refreshed u id
        return (payload, resolution)

/-! ## Reads -/

structure JoinedSend where
  id : Nat
  send : SendRow
  draft : DraftRow
  connection : ConnectionRow
  job : Option Queue.JobRow

/-- `_SEND_COLUMNS`: the joins, and the newest of the send's jobs. -/
def Database.joined (db : Database) (r : Nat × SendRow) : Option JoinedSend := do
  let draft ← db.drafts.find? fun d => d.1 == r.2.draftId
  let connection ← db.connections.get r.2.connectionId
  let job := db.jobs.latest fun _ j => j.kind == .send && j.refId == r.1
  return ⟨r.1, r.2, draft.2, connection, job.map Prod.snd⟩

structure DetailPayload where
  payload : SendPayload
  nextAttemptAt : Option Nat
  backoffSeconds : Option Seconds
  channel : ProviderKind
  recipientDisplay : String
  connectionDisplay : String
  subject : Option String
  body : String
  maxAttempts : Nat
  isSeed : Bool
  createdAt : Nat
  retryableByOperator : Bool

def detailPayload (A : Around) (r : JoinedSend) : DetailPayload :=
  -- a retry that is genuinely waiting, and only then
  let waiting := r.job.filter fun j => j.state == .ready && decide (A.now < j.runAt)
  { payload := Send.sendPayload r.id r.send.toSendRow none
    nextAttemptAt := waiting.map (·.runAt)
    backoffSeconds := waiting.bind (·.backoffSeconds)
    channel := r.send.provider
    recipientDisplay := r.draft.recipientDisplay
    connectionDisplay := r.connection.displayName
    subject := r.draft.subject
    body := r.draft.body
    maxAttempts := A.settings.maxAttempts
    isSeed := r.send.isSeed
    createdAt := r.send.createdAt
    retryableByOperator := r.send.state == .failedTransient }

/-- `_verify_url`. -/
def verifyUrl (r : JoinedSend) : String :=
  match r.send.provider with
  | .gmail => Send.Gmail.DRAFTS_URL
  | .slack =>
    "https://slack.com/app_redirect?channel=" ++ String.ofList (r.draft.recipientDisplay.toList.dropWhile (· == '#'))

structure Uncertainty where
  dispatchedAt : Option Nat
  reconcileAttempts : Nat
  reason : Option String
  verifyUrl : String
  resolutions : List String

def uncertainty (r : JoinedSend) : Option Uncertainty :=
  if r.send.state = .uncertain then
    some ⟨r.send.dispatchedAt, r.send.reconcileAttempts, r.send.lastErrorDetail, verifyUrl r,
      Send.RESOLUTIONS.map Prod.fst⟩
  else none

structure SendDetail where
  item : DetailPayload
  resolution : Option (Send.Resolution × Option String × Nat)
  uncertainty : Option Uncertainty

def Database.resolutionOf (db : Database) (id : Nat) : Option (Send.Resolution × Option String × Nat) :=
  (db.resolutions.latest fun _ r => r.sendId == id).map fun r => (r.2.resolution, r.2.note, r.2.createdAt)

def sendDetail (A : Around) (u id : Nat) : Tx SendDetail := do
  match ← read fun db => (db.sends.find? fun r => r.1 == id && r.2.userId == u).bind db.joined with
  | none => refuse (notFound "send")
  | some row => do
    let resolution ← read fun db => db.resolutionOf id
    return ⟨detailPayload A row, resolution, uncertainty row⟩

/-- `(s.created_at, s.id)`. -/
def SendRow.position (id : Nat) (s : SendRow) : Nat ×ₗ Nat := toLex (s.createdAt, id)

/-- `WHERE … ORDER BY created_at DESC, id DESC LIMIT :limit`, joined. -/
def Database.listed (db : Database) (u limit : Nat) (includeSeed : Bool) (before : Option (Nat × Nat)) :
    List JoinedSend :=
  (((db.sends.filter fun r => r.2.userId == u && ((includeSeed || !r.2.isSeed) &&
      before.all fun c => decide (r.2.position r.1 < toLex c))).filterMap db.joined).mergeSort fun a b =>
    decide (b.send.position b.id ≤ a.send.position a.id)).take limit

def listSends (A : Around) (u limit : Nat) (includeSeed : Bool) (before : Option (Nat × Nat)) :
    Tx (List DetailPayload) := do
  let rows ← read fun db => db.listed u limit includeSeed before
  return rows.map (detailPayload A)

/-! ## Searches -/

structure PlannedRun where
  source : String
  adapterRunId : Nat
  jobId : Option Nat
  connectionId : Option Nat
  mode : SourceMode

structure SearchPlan where
  searchId : Nat
  query : String
  runs : List PlannedRun

def planRuns (A : Around) (searchId : Nat) : List (String × Option Nat × SourceMode) → Tx (List PlannedRun)
  | [] => return []
  | (source, connectionId, mode) :: l => do
    let id ← draw
    insertRun id { searchId := searchId, source := source, connectionId := connectionId, mode := mode }
    let jobId ← enqueue A.settings A.now (Search.adapterJob id)
    let rest ← planRuns A searchId l
    return ⟨source, id, jobId, connectionId, mode⟩ :: rest

/-- The runs of a search: `_active_connections` reads the connections alone. -/
def Database.fanOut (db : Database) (u : Nat) (chosen : List (String × Search.Registration)) :
    List (String × Option Nat × SourceMode) :=
  Search.Store.fanOut { connections := db.connections } u chosen

def planSearch (A : Around) (u : Nat) (query : String) (sources : List String) : Tx SearchPlan :=
  let chosen := if sources.isEmpty then A.registry.defaultSources else sources
  if chosen.isEmpty then refuse (.search Search.noAdapters)
  else
    match Search.registrations A.registry chosen with
    | .error exn => refuse (.search exn)
    | .ok chosen => do
      let planned ← read fun db => db.fanOut u chosen
      let id ← draw
      insertSearch id { userId := u, query := query, createdAt := A.now }
      let runs ← planRuns A id planned
      return ⟨id, query, runs⟩

structure SourceStatus where
  source : String
  status : RunStatus
  mode : SourceMode
  resultCount : Nat
  errorClass : Option ErrorClass
  errorDetail : Option String
  connectionId : Option Nat
  displayName : Option String

structure Snapshot where
  searchId : Nat
  query : String
  isSeed : Bool
  finished : Bool
  sources : List SourceStatus
  /-- The page: its results, and beside each what ranked it. -/
  merged : Option (List (Search.Scored Rat))

/-- `ORDER BY r.source, r.connection_id NULLS FIRST`. -/
def sourceBefore (A : Around) (a b : Search.AdapterRunRow) : Bool :=
  if a.source = b.source then
    match a.connectionId, b.connectionId with
    | none, _ => true
    | some _, none => false
    | some m, some n => decide (m ≤ n)
  else A.collate a.source b.source

def Database.sourcesOf (db : Database) (A : Around) (searchId : Nat) : List SourceStatus :=
  (((db.runs.filter fun r => r.2.searchId == searchId).map Prod.snd).mergeSort (sourceBefore A)).map fun r =>
    { source := r.source
      status := r.status
      mode := r.mode
      resultCount := r.resultCount
      errorClass := r.errorClass
      errorDetail := r.errorDetail
      connectionId := r.connectionId
      displayName := r.connectionId.bind fun c => (db.connections.get c).map (·.displayName) }

def Database.resultsOf (db : Database) (searchId : Nat) : List Search.ResultRow :=
  (db.results.filter fun r => r.2.searchId == searchId).map Prod.snd

def loadSnapshot (A : Around) (u id : Nat) : Tx (Option Snapshot) := do
  match ← read fun db => db.searchOf u id with
  | none => return none
  | some search => do
    let sources ← read fun db => db.sourcesOf A id
    let rows ← read fun db => db.resultsOf id
    return some ⟨id, search.query, search.isSeed, search.finishedAt.isSome, sources,
      Search.snapshotMerged A.isoformat rows⟩

/-! ## Calls -/

inductive Request
  | createDraft (a : NewDraft)
  | getDraft (id : Nat)
  | updateDraft (id : Nat) (c : DraftChange)
  | sendDraft (id : Nat) (confirmedSha256 : Option String)
  | operatorRetry (id : Nat)
  | resolveSend (id : Nat) (resolution : String) (note : Option String)
  | sendDetail (id : Nat)
  | listSends (limit : Nat) (includeSeed : Bool) (before : Option (Nat × Nat))
  | planSearch (query : String) (sources : List String)
  | loadSnapshot (id : Nat)

inductive Response
  | draft (v : DraftView)
  | outcome (o : SendOutcome)
  | payload (p : SendPayload)
  | resolved (p : SendPayload) (resolution : String)
  | detail (d : SendDetail)
  | sends (l : List DetailPayload)
  | plan (p : SearchPlan)
  | snapshot (s : Option Snapshot)

structure Call where
  around : Around
  request : Request

/-- One call with the key of a user. -/
def serve (u : Nat) (c : Call) : Tx Response :=
  match c.request with
  | .createDraft a => do
    let v ← createDraft c.around u a
    return .draft v
  | .getDraft id => do
    let v ← getDraft u id
    return .draft v
  | .updateDraft id change => do
    let v ← updateDraft c.around u id change
    return .draft v
  | .sendDraft id confirmed => do
    let o ← sendDraft c.around u id confirmed
    return .outcome o
  | .operatorRetry id => do
    let p ← operatorRetry c.around u id
    return .payload p
  | .resolveSend id resolution note => do
    let (p, resolution) ← resolveSend c.around u id resolution note
    return .resolved p resolution
  | .sendDetail id => do
    let d ← sendDetail c.around u id
    return .detail d
  | .listSends limit includeSeed before => do
    let l ← listSends c.around u limit includeSeed before
    return .sends l
  | .planSearch query sources => do
    let p ← planSearch c.around u query sources
    return .plan p
  | .loadSnapshot id => do
    let s ← loadSnapshot c.around u id
    return .snapshot s

/-- The run without the number of its job, which the jobs of all users are counted in. -/
def PlannedRun.plain (r : PlannedRun) : PlannedRun := { r with jobId := r.jobId.map fun _ => 0 }

/-- A response without the numbers that count other users' rows too. -/
def Response.plain : Response → Response
  | .plan p => .plan { p with runs := p.runs.map PlannedRun.plain }
  | r => r

end Isolation
end SafeSend
