import SafeSend.Lib.Run
import SafeSend.Search.Handler
import SafeSend.Send.System
/-!
# The running system

The store and the executions of claimed jobs over it.  A worker may die between any two operations, its handler may be
timed out, and its lease may be taken over while it lives.  The sweep is one step: it holds its rows locked from where it
finds them to its commit.
-/
namespace SafeSend
namespace Search

open Lib
open Queue (ClaimedJob)

/-- `_execute`, with what is left of its handler.  `began` is when its own transaction began. -/
structure Proc where
  job : ClaimedJob
  worker : String
  began : Nat
  body : SearchProg (Except Exn Unit)

structure World where
  store : Store := {}
  procs : Table Proc := .empty

inductive Action
  | tick (elapsed : Nat)
  | connect (row : Send.ConnectionRow)
  | connectionStatus (id : Nat) (status : ConnStatus)
  | plan (userId : Nat) (query : String) (sources : List String)
  | claim (worker : String) (limit : Nat) (locked : Nat → Bool)
  | sweep (began limit : Nat) (locked : Nat → Bool)
  | step (pid : Nat) (e : Env)
  | timeout (pid : Nat)
  | finish (pid : Nat) (trace : String) (draw : Draw)
  | crash (pid : Nat)

namespace Store

/-- What happens outside every execution. -/
def outside (settings : Settings) (R : Registry) (w : Store) : Action → Option Store
  | .tick elapsed => some { w with now := w.now + elapsed }
  | .connect row => some { w with connections := w.connections.insert row }
  | .connectionStatus id status =>
    some { w with connections := w.connections.modify id fun c => { c with status := status } }
  | .plan userId query sources => some (w.planSearch settings R userId query sources).2
  | .sweep began limit locked =>
    if began ≤ w.now then
      let stale := Queue.selectStale began limit locked w.jobs
      some { w with jobs := Queue.applyRecoveries began w.jobs (stale.map fun job => (job, Queue.recover job none)) }
    else none
  | _ => none

/-- The transaction that finishes an executed job; none where its statement raises. -/
def finishJob (w : Store) (p : Proc) (trace : String) (draw : Draw) : Except Exn Unit → Option Queue.Jobs
  | .ok () => some (Queue.succeed p.began w.jobs p.job.id p.worker).2
  | .error exc =>
    (Queue.fail w.now w.jobs p.job p.worker (classify exc) (Send.detailOf exc trace) (Send.retryAfterOf exc) draw).map
      Prod.snd

def claimJobs (settings : Settings) (w : Store) (worker : String) (limit : Nat) (locked : Nat → Bool) :
    List ClaimedJob × Queue.Jobs :=
  Queue.claim w.now limit locked ⟨worker, settings.jobLeaseSeconds, settings.sendLeaseSeconds⟩ w.jobs

end Store

namespace World

def spawn (D : Deployment) (worker : String) (now : Nat) (procs : Table Proc) : List ClaimedJob → Table Proc
  | [] => procs
  | job :: l => spawn D worker now (procs.insert ⟨job, worker, now, runAdapter D job⟩) l

def withBody (w : World) (pid : Nat) (body : SearchProg (Except Exn Unit)) (store : Store) : World :=
  { store := store, procs := w.procs.modify pid fun p => { p with body := body } }

def without (w : World) (pid : Nat) (jobs : Queue.Jobs) : World :=
  { store := { w.store with jobs := jobs }, procs := w.procs.erase pid }

/-- The wall clock of a handler that has not ended: what is left of it is a `TimeoutError`. -/
def timeoutProc (w : World) (pid : Nat) (p : Proc) : Option World :=
  match p.body with
  | .op _ _ => some (w.withBody pid (.ret (.error (.os ""))) w.store)
  | .ret _ => none

def finishProc (w : World) (pid : Nat) (trace : String) (draw : Draw) (p : Proc) : Option World :=
  match p.body with
  | .ret r => some (w.without pid ((w.store.finishJob p trace draw r).getD w.store.jobs))
  | .op _ _ => none

def step (settings : Settings) (D : Deployment) (w : World) : Action → Option World
  | .claim worker limit locked =>
    let r := w.store.claimJobs settings worker limit locked
    some { store := { w.store with jobs := r.2 }, procs := spawn D worker w.store.now w.procs r.1 }
  | .step pid e =>
    (w.procs.get pid).bind fun p => (p.body.step sem e w.store).map fun r => w.withBody pid r.1 r.2
  | .timeout pid => (w.procs.get pid).bind (w.timeoutProc pid)
  | .finish pid trace draw => (w.procs.get pid).bind (w.finishProc pid trace draw)
  | .crash pid => (w.procs.get pid).map fun _ => w.without pid w.store.jobs
  | a => (w.store.outside settings D.registry a).map fun store => { w with store := store }

end World

/-- The system from the empty database. -/
def system (settings : Settings) (D : Deployment) : Machine World Action where
  init := {}
  step := World.step settings D

/-! ## Sample runs -/

/-- Two sources of one deployment, and an arithmetic that reads no timestamp. -/
def sampleDeployment : Deployment where
  registry := ⟨[("web", { requiresConnection := false }), ("notes", { requiresConnection := false })],
    fun source => "unknown source: " ++ source⟩
  arithmetic := ⟨fun _ => none, fun _ => 0, fun rank recency => 13 / 20 / (5 + rank) + 7 / 20 * recency⟩

def sampleResult : Result := ⟨"web", "1", "Launch", "The launch plan", "https://example.test/1", none, none⟩

/-- A search of one source, whose job a worker claims. -/
def sampleSearch : List Action := [.plan 1 "launch" ["web"], .claim "host:1" 5 fun _ => false]

/-- An execution up to the transaction of its results. -/
def sampleAnswer (pid : Nat) : List Action :=
  [.step pid .none, .step pid .none, .step pid (.found (.ok ⟨[sampleResult], none⟩)), .step pid .none]

/-- An execution to its end. -/
def sampleExecution (pid : Nat) : List Action :=
  sampleAnswer pid ++ [.step pid .none, .step pid .none, .step pid .none, .finish pid "" Send.noDraw]

/-- The worker dies, its lease expires, the sweep hands the job on and a worker claims it: the first is numbered 0. -/
def sampleReclaim (pid : Nat) : List Action :=
  [.crash pid, .tick 91000000, .sweep ((pid + 1) * 91000000) 20 fun _ => false, .claim "host:1" 5 fun _ => false]

end Search
end SafeSend
