import SafeSend.Lib.Run
import SafeSend.Send.Handler
import SafeSend.Send.Service
/-!
# The running system

The store and the live processes over it: executions of claimed jobs, sweeps, and calls of the API.  An action of the
system is one operation of one process, the start or the end of one, or something from outside: time passing, a
connection changing, a provider accepting or dropping a message it was handed, a crash, a timeout, a transaction that the
database ends.  Nothing else orders them.
-/
namespace SafeSend
namespace Send

open Lib
open Queue (ClaimedJob Recovery)

/-- A live process with the rest of its program.  `began` is when its own transaction began, which is what `now()` is
in it. -/
inductive Proc
  /-- `_execute`: the job's handler, and the transaction that finishes the job when it ends. -/
  | exec (job : ClaimedJob) (worker : String) (began : Nat) (body : SendProg (Except Exn Unit))
  /-- `sweep`, holding the advisory lock and the stale rows. -/
  | sweep (stale : List ClaimedJob) (began : Nat) (body : SendProg (List (ClaimedJob × Recovery)))
  /-- A sweep whose transaction the database has ended: it holds nothing, and goes on until it comes to use it. -/
  | adrift (body : SendProg (List (ClaimedJob × Recovery)))
  | request (body : SendProg Unit)

structure World where
  store : Store := {}
  procs : Table Proc := .empty

inductive Action
  | tick (elapsed : Nat)
  | connect (row : ConnectionRow)
  | connectionStatus (id : Nat) (status : ConnStatus)
  | planAdapterRun (ref : Nat)
  | settle (call : Nat) (accepted : Bool)
  | call (r : Request)
  | claim (worker : String) (limit : Nat) (locked : Nat → Bool)
  | sweep (limit : Nat) (locked : Nat → Bool)
  | step (pid : Nat) (e : Env)
  | timeout (pid : Nat)
  | finish (pid : Nat) (trace : String) (draw : Draw)
  /-- A process's own transaction is over: it was idle for too long, or its connection broke. -/
  | lose (pid : Nat)
  | crash (pid : Nat)

namespace Store

def adapterJob (ref : Nat) : Queue.EnqueueArgs where
  kind := .adapterRun
  refId := ref
  dedupeKey := some ("adapter_run:" ++ toString ref)

/-- A pending message is accepted or dropped, once. -/
def settleCall (w : Store) (call : Nat) (accepted : Bool) : Store :=
  { w with
    calls := w.calls.updateWhere call (fun c => c.status == .pending) fun c =>
      { c with status := if accepted then .accepted else .dropped } }

/-- What happens outside every process. -/
def outside (settings : Settings) (w : Store) : Action → Option Store
  | .tick elapsed => some { w with now := w.now + elapsed }
  | .connect row => some { w with connections := w.connections.insert row }
  | .connectionStatus id status =>
    some { w with connections := w.connections.modify id fun c => { c with status := status } }
  | .planAdapterRun ref => some { w with jobs := (Queue.enqueue settings w.now w.jobs (adapterJob ref)).2 }
  | .settle call accepted => some (w.settleCall call accepted)
  | _ => none

def claimJobs (settings : Settings) (w : Store) (worker : String) (limit : Nat) (locked : Nat → Bool) :
    List ClaimedJob × Queue.Jobs :=
  Queue.claim w.now limit locked ⟨worker, settings.jobLeaseSeconds, settings.sendLeaseSeconds⟩ w.jobs

end Store

/-- `_detail`: the provider's own words, or the traceback. -/
def detailOf (exc : Exn) (trace : String) : String :=
  match exc with
  | .provider e => e.str
  | _ => Text.strip trace

def retryAfterOf : Exn → Option Seconds
  | .provider e => e.retryAfter
  | _ => none

/-- The transaction that finishes an executed job; none where its statement raises. -/
def finishJob (w : Store) (job : ClaimedJob) (worker : String) (began : Nat) (trace : String) (draw : Draw) :
    Except Exn Unit → Option Queue.Jobs
  | .ok () => some (Queue.succeed began w.jobs job.id worker).2
  | .error exc =>
    if Store.storable (Queue.cap (detailOf exc trace)) then
      (Queue.fail w.now w.jobs job worker (classify exc) (detailOf exc trace) (retryAfterOf exc) draw).map Prod.snd
    else none

/-- What asyncpg raises for a text with a NUL in it. -/
def untranslatable : Exn := .other "invalid byte sequence for encoding \"UTF8\": 0x00"

/-- What asyncpg raises for a statement on a connection that the server has closed. -/
def connectionClosed : Exn := .other "connection is closed"

/-- The database refuses the write that the program is at. -/
def refusedAt {α : Type} : SendProg α → Bool
  | .op (.write _ u) _ => !u.storable
  | _ => false

/-- What is left to be done is the sweep's own statement, or its commit. -/
def ownsNext {α : Type} : SendProg α → Bool
  | .op (.recoverRow _) _ | .ret _ => true
  | _ => false

namespace World

def spawn (worker : String) (now : Nat) (procs : Table Proc) : List ClaimedJob → Table Proc
  | [] => procs
  | job :: l => spawn worker now (procs.insert (.exec job worker now (handler job))) l

/-- A sweep is under way: `pg_try_advisory_xact_lock` answers false. -/
def sweeping (w : World) : Bool :=
  w.procs.any fun _ p => match p with
    | .sweep _ _ _ => true
    | _ => false

/-- The sweep under way has locked the job's row. -/
def lockedBySweep (w : World) (id : Nat) : Bool :=
  w.procs.any fun _ p => match p with
    | .sweep stale _ _ => stale.any fun j => j.id == id
    | _ => false

def withProc (w : World) (pid : Nat) (p : Proc) (store : Store) : World :=
  { store := store, procs := w.procs.modify pid fun _ => p }

def without (w : World) (pid : Nat) (jobs : Queue.Jobs) : World :=
  { store := { w.store with jobs := jobs }, procs := w.procs.erase pid }

/-- What is left of an execution is what it raises. -/
def raised (w : World) (pid : Nat) (job : ClaimedJob) (worker : String) (began : Nat) (exc : Exn) : World :=
  w.withProc pid (.exec job worker began (.ret (.error exc))) w.store

/-- Nothing catches what a refused write raises: it ends a handler, and a sweep. -/
def stepProc (settings : Settings) (w : World) (pid : Nat) (e : Env) : Proc → Option World
  | .exec job worker began body =>
    if refusedAt body then some (w.raised pid job worker began untranslatable)
    else (body.step (sem settings) e w.store).map fun r => w.withProc pid (.exec job worker began r.1) r.2
  | .sweep stale began body =>
    if refusedAt body then some (w.without pid w.store.jobs)
    else (body.step (sem settings) e w.store).map fun r => w.withProc pid (.sweep stale began r.1) r.2
  | .adrift body =>
    if refusedAt body || ownsNext body then some (w.without pid w.store.jobs)
    else (body.step (sem settings) e w.store).map fun r => w.withProc pid (.adrift r.1) r.2
  | .request body =>
    (body.step (sem settings) e w.store).map fun r => w.withProc pid (.request r.1) r.2

/-- The wall clock of a handler that has not ended: what is left of it is a `TimeoutError`. -/
def timeoutProc (w : World) (pid : Nat) : Proc → Option World
  | .exec job worker began (.op _ _) => some (w.raised pid job worker began (.os ""))
  | _ => none

/-- A sweep is not told: its reconciler has sessions of its own.  An execution comes to use its transaction when its
handler has ended, and then fails in another one. -/
def loseProc (w : World) (pid : Nat) : Proc → Option World
  | .sweep _ _ body => some (w.withProc pid (.adrift body) w.store)
  | .exec job worker began (.ret (.ok ())) => some (w.raised pid job worker began connectionClosed)
  | _ => none

def finishProc (w : World) (pid : Nat) (trace : String) (draw : Draw) : Proc → Option World
  | .exec job worker began (.ret r) =>
    if w.lockedBySweep job.id then none
    else some (w.without pid ((finishJob w.store job worker began trace draw r).getD w.store.jobs))
  | .sweep _ began (.ret decisions) => some (w.without pid (Queue.applyRecoveries began w.store.jobs decisions))
  | .request (.ret ()) => some (w.without pid w.store.jobs)
  | _ => none

def step (settings : Settings) (w : World) : Action → Option World
  | .call r => some { w with procs := w.procs.insert (.request r.prog) }
  | .claim worker limit locked =>
    let r := w.store.claimJobs settings worker limit locked
    some { store := { w.store with jobs := r.2 }, procs := spawn worker w.store.now w.procs r.1 }
  | .sweep limit locked =>
    if w.sweeping then none
    else
      let stale := Queue.selectStale w.store.now limit locked w.store.jobs
      some { w with procs := w.procs.insert (.sweep stale w.store.now (sweepJobs stale)) }
  | .step pid e => (w.procs.get pid).bind (w.stepProc settings pid e)
  | .timeout pid => (w.procs.get pid).bind (w.timeoutProc pid)
  | .finish pid trace draw => (w.procs.get pid).bind (w.finishProc pid trace draw)
  | .lose pid => (w.procs.get pid).bind (w.loseProc pid)
  | .crash pid => (w.procs.get pid).map fun _ => w.without pid w.store.jobs
  | a => (w.store.outside settings a).map fun store => { w with store := store }

end World

/-- The system from the empty database. -/
def system (settings : Settings) : Machine World Action where
  init := {}
  step := World.step settings

/-- The operation a process is about to carry out. -/
def World.nextOp (w : World) (pid : Nat) : Option Op :=
  match w.procs.get pid with
  | some (.exec _ _ _ (.op o _)) | some (.sweep _ _ (.op o _)) | some (.adrift (.op o _)) | some (.request (.op o _)) =>
    some o
  | _ => none

/-- An execution of a job of the send is under way. -/
def World.underWay (w : World) (sid : Nat) : Bool :=
  w.procs.any fun _ p => match p with
    | .exec job _ _ (.op _ _) => job.kind == .send && job.refId == sid
    | _ => false

theorem World.underWay_of_exec {w : World} {pid : Nat} {job : ClaimedJob} {worker : String} {began : Nat} {o : Op}
    {k : o.Ans → SendProg (Except Exn Unit)} (hp : w.procs.get pid = some (.exec job worker began (.op o k)))
    (hk : job.kind = .send) : w.underWay job.refId = true :=
  Table.any_eq_true.2 ⟨pid, _, hp, by simp [hk]⟩

def stateOf (w : World) (sid : Nat) : Option SendState := (w.store.sends.get sid).map SendRow.state

theorem stateOf_eq_some {w : World} {sid : Nat} {s : SendState} (h : stateOf w sid = some s) :
    ∃ r, w.store.sends.get sid = some r ∧ r.state = s := Option.map_eq_some_iff.1 h

/-- A condition on the answers, asked of every operation of a run. -/
def answers (f : Store → Op → Env → Bool) (w : World) : Action → Bool
  | .step pid e => (w.nextOp pid).all fun o => f w.store o e
  | _ => true

/-! ## A run

One Slack message, from its draft to the claim of its job; the samples go on from here. -/

def noDraw : Draw := .least

def sampleKey : String := "0123456789abcdef0123456789abcdef"

def sampleDigest : String := confirmationDigest .slack "#sales" "#sales" none "hello"

/-- A draft, its send and the claim of its job by worker `w`: process 2, one operation into nothing yet. -/
def sampleRun : List Action := [
  .connect { userId := 1, provider := .slack, displayName := "Acme" },
  .call (.createDraft { userId := 1, channel := .slack, recipient := "#sales", body := "hello" }),
  .step 0 .none, .step 0 (.key sampleKey), .finish 0 "" noDraw,
  .call (.sendDraft 0 1 (some sampleDigest)),
  .step 1 .none, .step 1 .none, .step 1 .none, .step 1 .none, .finish 1 "" noDraw,
  .claim "host:1" 5 (fun _ => false)]

/-- An execution of the send's job, process `pid`, to its delivery as call `call`. -/
def sampleDelivery (pid call : Nat) : List Action := [
  .step pid .none, .step pid .none, .step pid (.prepared (.ok {})), .step pid .none, .step pid .none,
  .settle call true, .step pid (.receipt (.ok { providerMessageId := "C1:1.0" })), .step pid .none, .step pid .none,
  .finish pid "" noDraw]

/-- An execution of the send's job, process `pid`, that fails for good before the message is handed over. -/
def sampleRefusal (pid : Nat) : List Action := [
  .step pid .none, .step pid .none, .step pid (.prepared (.error (.other "no such channel"))), .step pid .none,
  .finish pid "" noDraw]

end Send
end SafeSend
