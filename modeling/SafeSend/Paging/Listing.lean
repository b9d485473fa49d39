import Mathlib.Data.Prod.Lex
import SafeSend.Paging.Cursor
import SafeSend.Search.Store
import SafeSend.Send.Service
/-!
# The history listings

`list_sends` and `list_searches`, newest first.  The ids and the times of creation a listing places rows by stand beside
the tables, under the numbers these give their rows.
-/
namespace SafeSend
namespace Paging

open Lib

/-- What a listed row is placed by, and whether it is seeded. -/
structure Stamp where
  id : Uuid
  createdAt : Timestamptz
  isSeed : Bool := false
  deriving DecidableEq

/-- `(created_at, id)`, compared as a row value. -/
abbrev Position := Int ×ₗ Uuid

def position (createdAt : Datetime) (id : Uuid) : Position := toLex (createdAt.1.instant, id)

/-- Whose row of a listed table, and where. -/
structure Head where
  stamp : Stamp
  userId : Nat
  deriving DecidableEq

def Head.position (h : Head) : Position := Paging.position h.stamp.createdAt h.stamp.id

/-- `user_id = :user_id AND (:include_seed OR NOT is_seed)`. -/
def Head.visible (userId : Nat) (includeSeed : Bool) (h : Head) : Bool :=
  h.userId == userId && (includeSeed || !h.stamp.isSeed)

/-- The cursor is null, or the row is before it. -/
def Head.before (h : Head) : Option Cursor → Bool
  | none => true
  | some c => decide (h.position < Paging.position c.createdAt c.rowId)

/-- A row of what a listing selects from. -/
structure Fetched (α : Type) where
  head : Head
  row : α

section

variable {α : Type}

/-- `WHERE … ORDER BY created_at DESC, id DESC LIMIT :limit`. -/
def select (rows : List (Fetched α)) (userId : Nat) (includeSeed : Bool) (before : Option Cursor) (limit : Nat) :
    List (Fetched α) :=
  ((rows.filter fun r => r.head.visible userId includeSeed && r.head.before before).mergeSort fun a b =>
    decide (b.head.position ≤ a.head.position)).take limit

end

/-- `paging.decode(cursor) if cursor else None`. -/
def cursorOf : Option String → Except ApiError (Option Cursor)
  | none => .ok none
  | some cursor => if cursor.isEmpty then .ok none else (decode cursor).map some

theorem cursorOf_some {cursor : String} (h : ¬ cursor.isEmpty) : cursorOf (some cursor) = (decode cursor).map some :=
  if_neg h

/-! ## Sends -/

/-- The tables of the sends.  Ids are a primary key, and a send's draft and connection are there. -/
structure SendTables where
  store : Send.Store
  stamp : Nat → Stamp
  unique : ∀ m n, (store.sends.get m).isSome → (store.sends.get n).isSome → (stamp m).id = (stamp n).id → m = n
  draft : ∀ n s, store.sends.get n = some s → (store.drafts.get s.draftId).isSome
  connection : ∀ n s, store.sends.get n = some s → (store.connections.get s.connectionId).isSome

def SendTables.heads (w : SendTables) : List Head := w.store.sends.rows.map fun r => ⟨w.stamp r.1, r.2.userId⟩

structure JoinedSend where
  number : Nat
  send : Send.SendRow
  draft : Send.DraftRow
  connection : Send.ConnectionRow
  job : Option Queue.JobRow

/-- `_SEND_COLUMNS`: the joins, and the newest of the send's jobs. -/
def SendTables.joined (w : SendTables) : List (Fetched JoinedSend) :=
  w.store.sends.rows.filterMap fun r => do
    let draft ← w.store.drafts.get r.2.draftId
    let connection ← w.store.connections.get r.2.connectionId
    let job := w.store.jobs.latest fun _ j => j.kind == .send && j.refId == r.1
    return ⟨⟨w.stamp r.1, r.2.userId⟩, ⟨r.1, r.2, draft, connection, job.map Prod.snd⟩⟩

structure SendItem where
  payload : Send.SendPayload
  sendId : Uuid
  nextAttemptAt : Option Nat
  backoffSeconds : Option Seconds
  channel : ProviderKind
  recipientDisplay : String
  connectionDisplay : String
  subject : Option String
  body : String
  maxAttempts : Nat
  isSeed : Bool
  createdAt : Timestamptz
  retryableByOperator : Bool

def detailPayload (settings : Settings) (now : Nat) (r : Fetched JoinedSend) : SendItem :=
  -- a retry that is genuinely waiting, and only then
  let waiting := r.row.job.filter fun j => j.state == .ready && decide (now < j.runAt)
  { payload := Send.sendPayload r.row.number r.row.send none
    sendId := r.head.stamp.id
    nextAttemptAt := waiting.map (·.runAt)
    backoffSeconds := waiting.bind (·.backoffSeconds)
    channel := r.row.send.provider
    recipientDisplay := r.row.draft.recipientDisplay
    connectionDisplay := r.row.connection.displayName
    subject := r.row.draft.subject
    body := r.row.draft.body
    maxAttempts := settings.maxAttempts
    isSeed := r.head.stamp.isSeed
    createdAt := r.head.stamp.createdAt
    retryableByOperator := r.row.send.state == .failedTransient }

def listSends (settings : Settings) (userId : Nat) (includeSeed : Bool) (w : SendTables) (limit : Nat)
    (cursor : Option String) : Except ApiError (List SendItem × Option String) := do
  let before ← cursorOf cursor
  -- one over the limit, so that `next_cursor` can be null on the last page
  let sends := (select w.joined userId includeSeed before (limit + 1)).map (detailPayload settings w.store.now)
  return page sends limit (fun x => x.createdAt) SendItem.sendId

/-! ## Searches -/

structure SearchTables where
  store : Search.Store
  stamp : Nat → Stamp
  unique : ∀ m n, (store.searches.get m).isSome → (store.searches.get n).isSome → (stamp m).id = (stamp n).id → m = n

def SearchTables.heads (w : SearchTables) : List Head :=
  w.store.searches.rows.map fun r => ⟨w.stamp r.1, r.2.userId⟩

structure GroupedSearch where
  query : String
  finishedAt : Option Nat
  pending : Nat
  resultCount : Nat

/-- `searches LEFT JOIN adapter_runs … GROUP BY s.id`. -/
def SearchTables.grouped (w : SearchTables) : List (Fetched GroupedSearch) :=
  w.store.searches.rows.map fun r =>
    let runs := (w.store.runs.rows.map Prod.snd).filter fun run => run.searchId == r.1
    ⟨⟨w.stamp r.1, r.2.userId⟩,
      { query := r.2.query
        finishedAt := r.2.finishedAt
        pending := (runs.filter fun run => run.status == .pending || run.status == .running).length
        resultCount := (runs.map (·.resultCount)).sum }⟩

structure SearchItem where
  searchId : Uuid
  query : String
  isSeed : Bool
  createdAt : Timestamptz
  finished : Bool
  resultCount : Nat

def searchItem (r : Fetched GroupedSearch) : SearchItem where
  searchId := r.head.stamp.id
  query := r.row.query
  isSeed := r.head.stamp.isSeed
  createdAt := r.head.stamp.createdAt
  finished := r.row.finishedAt.isSome
  resultCount := r.row.resultCount

def listSearches (userId : Nat) (includeSeed : Bool) (w : SearchTables) (limit : Nat) (cursor : Option String) :
    Except ApiError (List SearchItem × Option String) := do
  let before ← cursorOf cursor
  let rows := select w.grouped userId includeSeed before (limit + 1)
  let (kept, next) := page rows limit (fun r => r.head.stamp.createdAt) (fun r => r.head.stamp.id)
  return (kept.map searchItem, next)

end Paging
end SafeSend
