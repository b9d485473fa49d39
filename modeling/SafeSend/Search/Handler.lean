import SafeSend.Search.Store
/-!
# The adapter run

Dispatch to the source, rank, store, record.  The bookkeeping half decides what the client sees: each status is committed
on its own, and the search is closed after it.
-/
namespace SafeSend
namespace Search

open Lib
open Queue (ClaimedJob)

/-- The code a worker runs: the adapters it registered, and its arithmetic. -/
structure Deployment where
  registry : Registry
  arithmetic : Arithmetic

variable (D : Deployment)

/-- Persist: the rows of an earlier execution go, the new ones and the terminal status commit together. -/
def storeResults (run : LoadedRun) (ranked : List Ranked) (mode : Option SourceMode) : SearchProg Nat := do
  let (began, deleted) ← perform (.deleteResults run.id)
  perform (.commitResults ⟨run, began, deleted, ranked.map (resultRow D.arithmetic run), mode⟩)
  return ranked.length

def storeRanked (run : LoadedRun) (mode : Option SourceMode) : Except Exn (List Ranked) → SearchProg (Except Exn Nat)
  | .error exc => return .error exc
  | .ok ranked => do
    let count ← storeResults D run ranked mode
    return .ok count

/-- What the adapter answered, normalized, ranked and stored; that its deadline passed is an answer too. -/
def storeFound (run : LoadedRun) : Except Exn Found → SearchProg (Except Exn Nat)
  | .error exc => return .error exc
  | .ok found => do
    let now : Nat ← perform .clock
    storeRanked D run found.reportedMode (rankWithinSource D.arithmetic (found.raw.filter (normalized D.arithmetic)) now)

/-- Resolve, run, normalize, persist. -/
def executeAdapterRun (run : LoadedRun) : SearchProg (Except Exn Nat) :=
  match D.registry.registration run.source with
  | .error exc => return .error exc
  | .ok _ => do
    let answer ← perform (.search run.source run.connectionId run.query)
    storeFound D run answer

/-- Mirrors the queue's ladder: the job's fate is decided after this. -/
def willRetry (job : ClaimedJob) (exc : Exn) : Bool := classify exc == .transient && decide (job.attempts < job.maxAttempts)

def failureStatus (exc : Exn) : RunStatus :=
  match classify exc with
  | .needsReconnect => .needsReconnect
  | _ => .failed

def closeSearchIfComplete (searchId : Nat) : SearchProg Unit := perform (.closeSearch searchId)

def recordRunFailure (run : LoadedRun) (exc : Exn) (job : ClaimedJob) : SearchProg Unit := do
  perform (.recordRunFailure run.id (failureStatus exc) (classify exc) exc.str)
  if willRetry job exc then return () else closeSearchIfComplete run.searchId

/-- The connection's health, for a source that has one. -/
def creditConnection (run : LoadedRun) : SearchProg Unit :=
  match run.connectionId with
  | some id => perform (.recordSuccess id)
  | none => return ()

/-- What follows the execution, by how it ended. -/
def concludeRun (job : ClaimedJob) (run : LoadedRun) : Except Exn Nat → SearchProg (Except Exn Unit)
  | .error exc => do
    recordRunFailure run exc job
    return .error exc
  | .ok _ => do
    creditConnection run
    closeSearchIfComplete run.searchId
    return .ok ()

/-- A loaded run, from the commit that shows it running. -/
def runLoaded (job : ClaimedJob) (run : LoadedRun) : SearchProg (Except Exn Unit) := do
  perform (.markRunStarted run.id)
  let outcome ← executeAdapterRun D run
  concludeRun job run outcome

/-- The handler of an adapter run's job. -/
def runAdapter (job : ClaimedJob) : SearchProg (Except Exn Unit) := do
  match ← perform (.loadRun job.refId) with
  | none => return .ok ()
  | some run => runLoaded D job run

/-! ## Planning -/

def noAdapters : Exn := .other "no adapters are registered, so a search would fan out to nothing"

/-- The connections a run goes through, in order: every active one of the provider the source is named by. -/
def activeConnections (w : Store) (userId : Nat) (source : String) : List Nat :=
  (w.connections.rows.filter fun r =>
    r.2.userId == userId && r.2.status == .active && r.2.provider.value == source).map Prod.fst

/-- One run for each connection of a source that needs one, else one run. -/
def connectionsFor (w : Store) (userId : Nat) (source : String) (reg : Registration) : List (Option Nat) :=
  if reg.requiresConnection then
    match activeConnections w userId source with
    | [] => [none]
    | l => l.map some
  else [none]

/-- The sources with their registrations; the first unknown name fails before anything is written. -/
def registrations (R : Registry) : List String → Except Exn (List (String × Registration))
  | [] => .ok []
  | source :: l => do
    let reg ← R.registration source
    let rest ← registrations R l
    return (source, reg) :: rest

def adapterJob (runId : Nat) : Queue.EnqueueArgs where
  kind := .adapterRun
  refId := runId
  dedupeKey := some ("adapter_run:" ++ toString runId)

namespace Store

/-- A run, and its job. -/
def planRun (settings : Settings) (w : Store) (searchId : Nat) (source : String) (connectionId : Option Nat)
    (mode : SourceMode) : Store :=
  { w with
    runs := w.runs.insert { searchId := searchId, source := source, connectionId := connectionId, mode := mode }
    jobs := (Queue.enqueue settings w.now w.jobs (adapterJob w.runs.next)).2 }

def planRuns (settings : Settings) (searchId : Nat) : Store → List (String × Option Nat × SourceMode) → Store
  | w, [] => w
  | w, (source, connectionId, mode) :: l => planRuns settings searchId (w.planRun settings searchId source connectionId mode) l

/-- The runs of a search. -/
def fanOut (w : Store) (userId : Nat) (chosen : List (String × Registration)) : List (String × Option Nat × SourceMode) :=
  chosen.flatMap fun (source, reg) => (connectionsFor w userId source reg).map fun c => (source, c, reg.mode)

/-- Create the search and enqueue one durable job for each run, in one transaction. -/
def planSearch (settings : Settings) (R : Registry) (w : Store) (userId : Nat) (query : String)
    (sources : List String) : Except Exn Nat × Store :=
  let chosen := if sources.isEmpty then R.defaultSources else sources
  if chosen.isEmpty then (.error noAdapters, w)
  else
    match registrations R chosen with
    | .error exc => (.error exc, w)
    | .ok chosen =>
      let searchId := w.searches.next
      let created := { w with searches := w.searches.insert { userId := userId, query := query, createdAt := w.now } }
      (.ok searchId, planRuns settings searchId created (w.fanOut userId chosen))

end Store
end Search
end SafeSend
