import SafeSend.Lib.Coupling
import SafeSend.Lib.Keyed
import SafeSend.Search.Handler
import SafeSend.Send.Service
/-!
# The database of all users

The tables with every user's rows, whose row each one is, and the statements the service makes: a row is refused for its
texts, its checks, its keys and what it refers to, in that order.
-/
namespace SafeSend
namespace Isolation

open Lib
open Send (ConnectionRow)
open Search (AdapterRunRow ResultRow)

structure SearchRow extends Search.SearchRow where
  isSeed : Bool := false
  deriving DecidableEq, Repr

structure DraftRow extends Send.DraftRow where
  inReplyToResultId : Option Nat := none
  deriving DecidableEq, Repr

structure SendRow extends Send.SendRow where
  isSeed : Bool := false
  deriving DecidableEq, Repr

structure ResolutionRow extends Send.ResolutionRow where
  createdAt : Nat
  deriving DecidableEq, Repr

/-- A row that does not number itself stands beside its id, in the order its table is read in.  `uuids` is what
`gen_random_uuid()` and `uuid4()` draw, one after another, and `drawn` counts what was drawn. -/
structure Database where
  users : List Nat := []
  connections : Table ConnectionRow := .empty
  searches : List (Nat × SearchRow) := []
  runs : List (Nat × AdapterRunRow) := []
  results : List (Nat × ResultRow) := []
  drafts : List (Nat × DraftRow) := []
  sends : List (Nat × SendRow) := []
  jobs : Queue.Jobs := .empty
  resolutions : Table ResolutionRow := .empty
  uuids : Nat → Nat
  drawn : Nat := 0

namespace Database

variable (db : Database) (u : Nat)

/-! ## Whose row it is -/

def ownsSearch (id : Nat) : Bool := db.searches.any fun r => r.1 == id && r.2.userId == u

def ownsRun (id : Nat) : Bool := db.runs.any fun r => r.1 == id && db.ownsSearch u r.2.searchId

def ownsSend (id : Nat) : Bool := db.sends.any fun r => r.1 == id && r.2.userId == u

/-- A job is whose adapter run or send it is for. -/
def ownsJob (j : Queue.JobRow) : Bool :=
  match j.kind with
  | .adapterRun => db.ownsRun u j.refId
  | .send => db.ownsSend u j.refId

/-! ## Queries -/

def draftOf (id : Nat) : Option DraftRow := (db.drafts.find? fun r => r.1 == id && r.2.userId == u).map Prod.snd

def sendOf (id : Nat) : Option SendRow := (db.sends.find? fun r => r.1 == id && r.2.userId == u).map Prod.snd

/-- `sends_user_key_uniq`: the row that holds the key. -/
def sendByKey (key : String) : Option (Nat × SendRow) :=
  db.sends.find? fun r => r.2.userId == u && r.2.idempotencyKey == key

def searchOf (id : Nat) : Option SearchRow := (db.searches.find? fun r => r.1 == id && r.2.userId == u).map Prod.snd

/-- `ORDER BY id LIMIT 1` among the user's connections with the provider. -/
def firstConnection (provider : ProviderKind) (activeOnly : Bool) : Option (Nat × ConnectionRow) :=
  db.connections.first fun _ c => c.userId == u && c.provider == provider && (!activeOnly || c.status == .active)

end Database

/-! ## Statements -/

inductive Refusal
  | gate (e : Send.GateExn)
  | foreignKey
  | search (exn : Exn)
  deriving DecidableEq, Repr

abbrev Tx := Lib.Tx Database Refusal

/-- What an `INSERT` or `UPDATE` is refused for: a text that cannot be stored, a row's check, a key that is taken, a row
that is referred to and is not there. -/
def constrain (texts : List String) (check free present : Bool) : Except Refusal Unit :=
  if !texts.all Send.Store.storable then .error (.gate (.db .untranslatable))
  else if !check then .error (.gate (.db .checkViolation))
  else if !free then .error (.gate (.db .uniqueViolation))
  else if !present then .error .foreignKey
  else .ok ()

def draw : Tx Nat := fun db => .ok (db.uuids db.drawn, { db with drawn := db.drawn + 1 })

/-- `drafts_key_bounded` and `drafts_subject_only_email`. -/
def DraftRow.checks (d : DraftRow) : Bool :=
  decide (16 ≤ d.idempotencyKey.length ∧ d.idempotencyKey.length ≤ 255) && Send.Store.subjectAllowed d.toDraftRow

def DraftRow.edited (e : Send.DraftEdit) (d : DraftRow) : DraftRow :=
  { d with toDraftRow := Send.Store.editRow e d.toDraftRow }

def SendRow.settled (f : Send.SendRow → Send.SendRow) (s : SendRow) : SendRow := { s with toSendRow := f s.toSendRow }

def DraftRow.texts (d : DraftRow) : List String := [d.recipient, d.recipientDisplay, d.body] ++ d.subject.toList

namespace Database

variable (db : Database)

def draftFree (id : Nat) (row : DraftRow) : Bool :=
  !db.drafts.any fun r => r.1 == id || (r.2.userId == row.userId && r.2.idempotencyKey == row.idempotencyKey)

/-- The rows a draft refers to: its user, its connection and the result it replies to. -/
def draftRefers (row : DraftRow) : Bool :=
  db.users.contains row.userId && (db.connections.get row.connectionId).isSome &&
    row.inReplyToResultId.all fun k => db.results.any fun r => r.1 == k

def sendRefers (row : SendRow) : Bool :=
  db.users.contains row.userId && (db.drafts.any fun r => r.1 == row.draftId) &&
    (db.connections.get row.connectionId).isSome

def runRefers (row : AdapterRunRow) : Bool :=
  (db.searches.any fun r => r.1 == row.searchId) && row.connectionId.all fun c => (db.connections.get c).isSome

def resolutionRefers (row : ResolutionRow) : Bool :=
  (db.sends.any fun r => r.1 == row.sendId) && db.users.contains row.userId

def updateSend (u id : Nat) (guard : Send.SendRow → Bool) (f : Send.SendRow → Send.SendRow) : Database :=
  { db with
    sends := Keyed.alter (fun r => r.1 == id && r.2.userId == u && guard r.2.toSendRow) (SendRow.settled f) db.sends }

def updateDraft (u id : Nat) (e : Send.DraftEdit) : Database :=
  { db with drafts := Keyed.alter (fun r => r.1 == id && r.2.userId == u) (DraftRow.edited e) db.drafts }

end Database

def insertDraft (id : Nat) (row : DraftRow) : Tx Unit := fun db => do
  constrain row.texts row.checks (db.draftFree id row) (db.draftRefers row)
  .ok ((), { db with drafts := db.drafts ++ [(id, row)] })

/-- `UPDATE … RETURNING *`, of the one row. -/
def writeDraft (u id : Nat) (e : Send.DraftEdit) : Tx DraftRow := fun db =>
  match db.draftOf u id with
  | none => .error (.gate (.db .noRow))
  | some d => do
    let row := d.edited e
    constrain ([e.recipient, e.recipientDisplay] ++ e.subject.toList ++ e.body.toList) row.checks true true
    .ok (row, db.updateDraft u id e)

def insertSend (id : Nat) (row : SendRow) : Tx Unit := fun db => do
  constrain [row.idempotencyKey, row.confirmedSha256] true (!db.sends.any fun r => r.1 == id) (db.sendRefers row)
  .ok ((), { db with sends := db.sends ++ [(id, row)] })

def insertResolution (row : ResolutionRow) : Tx Unit := fun db => do
  constrain row.note.toList true true (db.resolutionRefers row)
  .ok ((), { db with resolutions := db.resolutions.insert row })

def insertSearch (id : Nat) (row : SearchRow) : Tx Unit := fun db => do
  constrain [row.query] true (!db.searches.any fun r => r.1 == id) (db.users.contains row.userId)
  .ok ((), { db with searches := db.searches ++ [(id, row)] })

def insertRun (id : Nat) (row : AdapterRunRow) : Tx Unit := fun db => do
  constrain [row.source] true (!db.runs.any fun r => r.1 == id) (db.runRefers row)
  .ok ((), { db with runs := db.runs ++ [(id, row)] })

def enqueue (settings : Settings) (now : Nat) (a : Queue.EnqueueArgs) : Tx (Option Nat) := fun db =>
  let r := Queue.enqueue settings now db.jobs a
  .ok (r.1, { db with jobs := r.2 })

/-- Statements on the jobs; none where the unique index refuses a row. -/
def onJobs (f : Queue.Jobs → Option Queue.Jobs) : Tx Unit := fun db =>
  match f db.jobs with
  | some jobs => .ok ((), { db with jobs := jobs })
  | none => .error (.gate (.db .uniqueViolation))

end Isolation
end SafeSend
