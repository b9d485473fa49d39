import SafeSend.Jobs.Recovery
import SafeSend.Lib.Prog
import SafeSend.Search.Ranking
import SafeSend.Send.Rows
/-!
# The store of a search

Searches, one adapter run for each source and connection, their results, and their jobs; and the operations a run is
made of.  Each is one transaction of the database but for the writing of results.  That one looks for the rows it
deletes (`deleteResults`) and commits later (`commitResults`): nothing it writes is seen in between, and a row it deletes
may be gone when it commits.
-/
namespace SafeSend
namespace Search

open Lib
open Send (ConnectionRow)

structure SearchRow where
  userId : Nat
  query : String
  createdAt : Nat
  finishedAt : Option Nat := none
  deriving DecidableEq, Repr

structure AdapterRunRow where
  searchId : Nat
  source : String
  connectionId : Option Nat
  status : RunStatus := .pending
  mode : SourceMode
  resultCount : Nat := 0
  errorClass : Option ErrorClass := none
  errorDetail : Option String := none
  startedAt : Option Nat := none
  finishedAt : Option Nat := none
  deriving DecidableEq, Repr

structure ResultRow where
  searchId : Nat
  adapterRunId : Nat
  source : String
  externalId : String
  title : String
  snippet : String
  author : Option String
  occurredAt : Option Instant
  url : String
  sourceRank : Nat
  blendedScore : Rat
  deriving DecidableEq, Repr

structure Store where
  now : Nat := 0
  connections : Table ConnectionRow := .empty
  searches : Table SearchRow := .empty
  runs : Table AdapterRunRow := .empty
  results : Table ResultRow := .empty
  jobs : Queue.Jobs := .empty

structure Registration where
  participatesByDefault : Bool := true
  mode : SourceMode := .live
  requiresConnection : Bool := true

/-- The adapters of a deployment, in registration order.  `unknown` is the text of an `UnknownSource`. -/
structure Registry where
  entries : List (String × Registration)
  unknown : String → String

def Registry.registration (R : Registry) (source : String) : Except Exn Registration :=
  match R.entries.lookup source with
  | some reg => .ok reg
  | none => .error (.other (R.unknown source))

def Registry.defaultSources (R : Registry) : List String :=
  (R.entries.filter fun e => e.2.participatesByDefault).map Prod.fst

/-- `SELECT … FROM adapter_runs r JOIN searches s`. -/
structure LoadedRun where
  id : Nat
  searchId : Nat
  source : String
  connectionId : Option Nat
  query : String
  deriving DecidableEq, Repr

/-- What an adapter returned, and the mode it reports of itself. -/
structure Found where
  raw : List Result
  reportedMode : Option SourceMode := none

/-- What a transaction of results writes.  `began` is when it began, which is what `now()` is in it. -/
structure Landing where
  run : LoadedRun
  began : Nat
  deleted : List Nat
  rows : List ResultRow
  mode : Option SourceMode

inductive Op
  | loadRun (id : Nat)
  | markRunStarted (id : Nat)
  | search (source : String) (connectionId : Option Nat) (query : String)
  | clock
  | deleteResults (runId : Nat)
  | commitResults (l : Landing)
  | recordRunFailure (runId : Nat) (status : RunStatus) (errorClass : ErrorClass) (detail : String)
  | recordSuccess (connectionId : Nat)
  | closeSearch (searchId : Nat)

def Op.Ans : Op → Type
  | loadRun _ => Option LoadedRun
  | search _ _ _ => Except Exn Found
  | clock => Nat
  | deleteResults _ => Nat × List Nat
  | markRunStarted _ | commitResults _ | recordRunFailure _ _ _ _ | recordSuccess _ | closeSearch _ => Unit

/-- The environment's part of an operation: what a source answers. -/
inductive Env
  | none
  | found (r : Except Exn Found)

/-! ## What the operations write -/

def startRow (now : Nat) (r : AdapterRunRow) : AdapterRunRow :=
  { r with
    status := .running
    startedAt := some (r.startedAt.getD now)
    errorClass := none
    errorDetail := none }

def doneRow (now count : Nat) (mode : Option SourceMode) (r : AdapterRunRow) : AdapterRunRow :=
  { r with status := .done, resultCount := count, finishedAt := some now, mode := mode.getD r.mode }

def failedRow (now : Nat) (status : RunStatus) (errorClass : ErrorClass) (detail : String) (r : AdapterRunRow) :
    AdapterRunRow :=
  { r with status := status, finishedAt := some now, errorClass := some errorClass, errorDetail := some detail }

/-- `r.status IN ('pending', 'running')`. -/
def outstanding (r : AdapterRunRow) : Bool := r.status == .pending || r.status == .running

def resultRow (F : Arithmetic) (run : LoadedRun) (item : Ranked) : ResultRow where
  searchId := run.searchId
  adapterRunId := run.id
  source := item.result.source
  externalId := item.result.id
  title := item.result.title
  snippet := item.result.snippet
  author := item.result.author
  occurredAt := item.result.occurredAt F
  url := item.result.url
  sourceRank := item.sourceRank
  blendedScore := item.blendedScore

/-- `INSERT`, row after row. -/
def insertAll : Table ResultRow → List ResultRow → Table ResultRow
  | t, [] => t
  | t, row :: l => insertAll (t.insert row) l

/-- `DELETE`, those of the rows that are still there. -/
def eraseAll : Table ResultRow → List Nat → Table ResultRow
  | t, [] => t
  | t, id :: l => eraseAll (t.erase id) l

namespace Store

def load (w : Store) (id : Nat) : Option LoadedRun :=
  (w.runs.get id).bind fun r => (w.searches.get r.searchId).map fun s => ⟨id, r.searchId, r.source, r.connectionId, s.query⟩

def updateRun (w : Store) (id : Nat) (f : AdapterRunRow → AdapterRunRow) : Store := { w with runs := w.runs.modify id f }

/-- The results of a run, by their ids. -/
def resultIds (w : Store) (runId : Nat) : List Nat :=
  (w.results.rows.filter fun r => r.2.adapterRunId == runId).map Prod.fst

def commitResults (w : Store) (l : Landing) : Store :=
  { w.updateRun l.run.id (doneRow l.began l.rows.length l.mode) with
    results := insertAll (eraseAll w.results l.deleted) l.rows }

/-- Some run of the search is not done yet. -/
def unfinished (w : Store) (searchId : Nat) : Bool := w.runs.any fun _ r => r.searchId == searchId && outstanding r

def closeSearch (w : Store) (searchId : Nat) : Store :=
  { w with
    searches := w.searches.updateWhere searchId (fun s => s.finishedAt.isNone && !w.unfinished searchId) fun s =>
      { s with finishedAt := some w.now } }

end Store

abbrev SearchProg := Prog Op Op.Ans

abbrev perform (o : Op) : SearchProg o.Ans := Prog.perform o

def sem : (o : Op) → Env → Store → Option (o.Ans × Store)
  | .loadRun id, .none, w => some (w.load id, w)
  | .markRunStarted id, .none, w => some ((), w.updateRun id (startRow w.now))
  | .search _ _ _, .found r, w => some (r, w)
  | .clock, .none, w => some (w.now, w)
  | .deleteResults runId, .none, w => some ((w.now, w.resultIds runId), w)
  | .commitResults l, .none, w => some ((), w.commitResults l)
  | .recordRunFailure id status errorClass detail, .none, w =>
    some ((), w.updateRun id (failedRow w.now status errorClass detail))
  | .recordSuccess id, .none, w =>
    some ((), { w with
      connections := w.connections.updateWhere id (fun c => c.status != .needsReconnect) fun c =>
        { c with status := .active } })
  | .closeSearch id, .none, w => some ((), w.closeSearch id)
  | _, _, _ => none

end Search
end SafeSend
