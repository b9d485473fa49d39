import SafeSend.Lib.Slots
import SafeSend.Send.Claim
/-!
# Resolving, statement by statement

`resolve_send` at the grain the gate takes as two operations: the check, the audit row, the update of the send and the
scheduling behind it are statements of one transaction, and each reads what is committed when it runs.  Any number of such
calls run on one send; nothing else does.
-/
namespace SafeSend
namespace Send
namespace Resolve

open Lib
open Claim (TxStatus duplicates)

inductive Stmt
  | loadSend (id userId : Nat)
  | insertResolution (row : ResolutionRow)
  | updateSend (id userId : Nat) (resolution : Resolution)
  | latestJob (id : Nat)
  | operatorRetry (job : Nat)
  | enqueue (a : Queue.EnqueueArgs)

def Stmt.Ans : Stmt → Type
  | loadSend _ _ => Option SendRow
  | insertResolution _ => Unit
  | updateSend _ _ _ => Bool
  | latestJob _ | enqueue _ => Option Nat
  | operatorRetry _ => Except DbError Bool

structure Db where
  sends : Slots SendRow
  resolutions : Slots ResolutionRow
  jobs : Slots Queue.JobRow

/-- A store with nothing under way. -/
def Db.of (w : Store) : Db := ⟨.ofTable w.sends, .ofTable w.resolutions, .ofTable w.jobs⟩

def Db.commit (s : Db) (tx : Nat) : Db := ⟨s.sends.commit tx, s.resolutions.commit tx, s.jobs.commit tx⟩

def Db.rollback (s : Db) (tx : Nat) : Db := ⟨s.sends.rollback tx, s.resolutions.rollback tx, s.jobs.rollback tx⟩

abbrev TxProg := Prog Stmt Stmt.Ans

abbrev perform (o : Stmt) : TxProg o.Ans := Prog.perform o

def whose (userId : Nat) (r : SendRow) : Bool := r.userId == userId

/-- The guard of both updates. -/
def unresolved (userId : Nat) (r : SendRow) : Bool := r.userId == userId && inDoubt r

/-- What a resolution writes to the send. -/
def resolvedRow (now : Nat) : Resolution → SendRow → SendRow
  | .markedDelivered => attestedRow now
  | .forcedResend => resendRow

def jobOf (id : Nat) (j : Queue.JobRow) : Bool := j.kind == .send && j.refId == id

/-- `jobs_dedupe_idx`, against the rows but `skip`: whether a live row the transaction sees has the key, and whether
another transaction's does, whose end is waited for. -/
def clashes (jobs : Slots Queue.JobRow) (tx : Nat) (skip : Option Nat) (key : Option String) : Bool :=
  jobs.any fun n v => some n != skip && (v.seenBy tx).any (duplicates key)

def awaits (jobs : Slots Queue.JobRow) (tx : Nat) (skip : Option Nat) (key : Option String) : Bool :=
  jobs.any fun n v => some n != skip && v.locked tx && v.own.any fun o => duplicates key o.2

/-- A statement of transaction `tx`, which began at `began`: that is `now()` in it. -/
def sem (settings : Settings) (tx began : Nat) : (o : Stmt) → Unit → Db → Option (o.Ans × Db)
  | .loadSend id userId, _, s => some ((s.sends.seen tx id).filter (whose userId), s)
  | .insertResolution row, _, s => some ((), { s with resolutions := s.resolutions.insert tx row })
  | .updateSend id userId resolution, _, s =>
    (s.sends.updateWhere tx id (unresolved userId) (resolvedRow began resolution)).map fun (hit, sends) =>
      (hit, { s with sends := sends })
  | .latestJob id, _, s => some (s.jobs.latest tx (jobOf id), s)
  | .operatorRetry job, _, s =>
    match s.jobs.updateWhere tx job Queue.resumable (Queue.resumeRow began 1) with
    | none => none
    | some (false, _) => some (.ok false, s)
    | some (true, jobs) =>
      let key := (s.jobs.seen tx job).bind Queue.JobRow.dedupeKey
      if clashes s.jobs tx (some job) key then some (.error .uniqueViolation, s)
      else if awaits s.jobs tx (some job) key then none
      else some (.ok true, { s with jobs := jobs })
  | .enqueue a, _, s =>
    if clashes s.jobs tx none a.dedupeKey then some (none, s)
    else if awaits s.jobs tx none a.dedupeKey then none
    else some (some s.jobs.next, { s with jobs := s.jobs.insert tx (Queue.newRow settings began a) })

/-! ## The program -/

abbrev Answer := Except GateExn (SendPayload × String)

/-- The work behind a forced resend: the latest job resumed where it is resumable, else a new one. -/
def schedule (id : Nat) (partition : String) : TxProg (Except DbError Unit) := do
  match ← perform (.latestJob id) with
  | none =>
    let _ ← perform (.enqueue (Store.retryJob id partition))
    return .ok ()
  | some job =>
    match ← perform (.operatorRetry job) with
    | .error e => return .error e
    | .ok true => return .ok ()
    | .ok false =>
      let _ ← perform (.enqueue (Store.retryJob id partition))
      return .ok ()

/-- The updates; how many rows the first one matched is not looked at. -/
def apply (id userId : Nat) (partition : String) (r : Resolution) : TxProg (Except DbError Unit) := do
  let _ ← perform (.updateSend id userId r)
  match r with
  | .markedDelivered => return .ok ()
  | .forcedResend => schedule id partition

/-- Settle an in-doubt send. -/
def resolveSend (id userId : Nat) (resolution : String) (note : Option String) : TxProg Answer :=
  match RESOLUTIONS.lookup resolution with
  | none =>
    return .error (recipientInvalid
      ("resolution must be one of " ++ ", ".intercalate (RESOLUTIONS.map Prod.fst)))
  | some r => do
    match ← perform (.loadSend id userId) with
    | none => return .error (notFound "send")
    | some row =>
      if row.state ≠ .uncertain then
        return .error (recipientInvalid
          ("only an uncertain send needs resolving; this one is " ++ row.state.value))
      else
        let _ ← perform (.insertResolution ⟨id, userId, r, note⟩)
        match ← apply id userId row.partition r with
        | .error e => return .error (.db e)
        | .ok () =>
          match ← perform (.loadSend id userId) with
          | none => return .error (.db .noRow)
          | some refreshed => return .ok (sendPayload id refreshed none, resolution)

/-! ## The transactions -/

structure Call where
  userId : Nat
  resolution : String
  note : Option String := none

structure Txn where
  call : Call
  began : Nat
  body : TxProg Answer
  status : TxStatus := .live

structure State where
  now : Nat
  db : Db
  txns : Table Txn := .empty

inductive Action
  | tick (elapsed : Nat)
  | begins (call : Call)
  | step (tx : Nat)
  /-- The caller commits when the call has answered. -/
  | commit (tx : Nat)
  /-- At any time: an exception, a timeout, a crash; and the end of a call that was refused. -/
  | rollback (tx : Nat)

namespace State

def setStatus (s : State) (tx : Nat) (status : TxStatus) (db : Db) : State :=
  { s with db := db, txns := s.txns.modify tx fun T => { T with status := status } }

def step (settings : Settings) (sid : Nat) (s : State) : Action → Option State
  | .tick elapsed => some { s with now := s.now + elapsed }
  | .begins call =>
    some { s with
      txns := s.txns.insert
        { call := call, began := s.now, body := resolveSend sid call.userId call.resolution call.note } }
  | .step tx =>
    (s.txns.get tx).bind fun T =>
      if T.status = .live then
        (T.body.step (sem settings tx T.began) () s.db).map fun (body, db) =>
          { s with db := db, txns := s.txns.modify tx fun T => { T with body := body } }
      else none
  | .commit tx =>
    match s.txns.get tx with
    | some ⟨_, _, .ret (.ok _), .live⟩ => some (s.setStatus tx .committed (s.db.commit tx))
    | _ => none
  | .rollback tx =>
    match s.txns.get tx with
    | some ⟨_, _, _, .live⟩ => some (s.setStatus tx .rolledBack (s.db.rollback tx))
    | _ => none

end State

/-- Calls on the send `sid`, from a store of the gate. -/
def resolving (settings : Settings) (w : Store) (sid : Nat) : Machine State Action where
  init := { now := w.now, db := .of w }
  step := State.step settings sid

/-- The live jobs of the send, as committed. -/
def Db.liveJobs (s : Db) (sid : Nat) : Finset Nat := s.jobs.hits fun v => v.committed.any fun j => jobOf sid j && j.live

/-- A call comes to its update while the send is still in doubt, with no live job behind it where the update resends it,
and no more than one where it does not. -/
def inTime (s : Db) (tx : Nat) : Stmt → Bool
  | .updateSend id userId r =>
    (s.sends.seen tx id).any (unresolved userId) &&
      match r with
      | .markedDelivered => decide ((s.liveJobs id).card ≤ 1)
      | .forcedResend => decide ((s.liveJobs id).card = 0)
  | _ => true

/-- The statement the transaction is about to run. -/
def State.nextStmt (s : State) (tx : Nat) : Option Stmt :=
  match s.txns.get tx with
  | some ⟨_, _, .op o _, .live⟩ => some o
  | _ => none

def timely (s : State) : Action → Bool
  | .step tx => (s.nextStmt tx).all (inTime s.db tx)
  | _ => true

end Resolve
end Send
end SafeSend
