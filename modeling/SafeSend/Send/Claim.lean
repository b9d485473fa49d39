import SafeSend.Lib.Versions
import SafeSend.Send.Steps
/-!
# The claim, statement by statement

`claim_send` and the transaction of `send_draft` at the grain the gate takes as one operation: each statement runs on its
own, and the transaction commits or rolls back later.
-/
namespace SafeSend
namespace Send
namespace Claim

open Lib

/-- Bounded, and small. -/
def CLAIM_RETRIES : Nat := 3

structure ClaimContention where
  message : String
  deriving DecidableEq, Repr

inductive DraftExn
  | gate (e : GateExn)
  | contention (e : ClaimContention)

inductive Stmt
  /-- `get_draft`: reads of other tables. -/
  | getDraft (draftId userId : Nat)
  | selectSend (userId : Nat) (idempotencyKey : String)
  | insertSend (a : ClaimArgs)
  | enqueue (a : Queue.EnqueueArgs)
  | clock
  /-- `claim_send` returns: no statement, but what the transaction was told is kept. -/
  | claimed (a : ClaimArgs) (r : Except ClaimContention ClaimResult)

def Stmt.Ans : Stmt → Type
  | getDraft _ _ => Except GateExn DraftView
  | selectSend _ _ | insertSend _ => Option (Nat × SendRow)
  | enqueue _ => Option Nat
  | clock => Nat
  | claimed _ _ => Unit

/-- What a statement finds in the tables that are not modelled here. -/
inductive Env
  | none
  | draft (r : Except GateExn DraftView)

structure Db where
  now : Nat := 0
  sends : Versions SendRow := .empty
  jobs : Versions Queue.JobRow := .empty
  claimed : Nat → Option (ClaimArgs × Except ClaimContention ClaimResult) := fun _ => none

def Db.commit (s : Db) (tx : Nat) : Db := { s with sends := s.sends.commit tx, jobs := s.jobs.commit tx }

def Db.rollback (s : Db) (tx : Nat) : Db := { s with sends := s.sends.rollback tx, jobs := s.jobs.rollback tx }

abbrev TxProg := Prog Stmt Stmt.Ans

abbrev perform (o : Stmt) : TxProg o.Ans := Prog.perform o

/-- `sends_user_key_uniq`. -/
def holds (userId : Nat) (key : String) (r : SendRow) : Bool := r.userId == userId && r.idempotencyKey == key

/-- `jobs_dedupe_idx`. -/
def duplicates (key : Option String) (j : Queue.JobRow) : Bool := key.isSome && j.dedupeKey == key && j.live

/-- A statement of transaction `tx`, which began at `began`: that is `now()` in it. -/
def sem (settings : Settings) (tx began : Nat) : (o : Stmt) → Env → Db → Option (o.Ans × Db)
  | .getDraft _ _, .draft r, s => some (r, s)
  | .selectSend userId key, .none, s => some (s.sends.select tx (holds userId key), s)
  | .insertSend a, .none, s =>
    (s.sends.insertUnless tx (holds a.userId a.idempotencyKey) (Store.newSend began a)).map fun (id, sends) =>
      (id.map fun n => (n, Store.newSend began a), { s with sends := sends })
  | .enqueue a, .none, s =>
    (s.jobs.insertUnless tx (duplicates a.dedupeKey) (Queue.newRow settings began a)).map fun (id, jobs) =>
      (id, { s with jobs := jobs })
  | .clock, .none, s => some (s.now, s)
  | .claimed a r, .none, s => some ((), { s with claimed := fun t => if t = tx then some (a, r) else s.claimed t })
  | _, _, _ => none

/-! ## The programs -/

/-- Conditionally insert, then read back on conflict. -/
def claimLoop (a : ClaimArgs) : Nat → TxProg (Except ClaimContention ClaimResult)
  | 0 => return .error ⟨"could not claim or read the send for key '" ++ a.idempotencyKey ++ "' after " ++
      toString CLAIM_RETRIES ++ " attempts"⟩
  | n + 1 => do
    match ← perform (.insertSend a) with
    | some (id, row) => return .ok ⟨id, row, true⟩
    | none =>
      match ← perform (.selectSend a.userId a.idempotencyKey) with
      | some (id, row) => return .ok ⟨id, row, false⟩
      | none => claimLoop a n

/-- `assert_read_committed` passes: every transaction here is READ COMMITTED. -/
def claimSend (a : ClaimArgs) : TxProg (Except ClaimContention ClaimResult) := do
  let r ← claimLoop a CLAIM_RETRIES
  let _ ← perform (.claimed a r)
  return r

/-- `_replay`. -/
def replay (id : Nat) (row : SendRow) (confirmed : String) : TxProg (Except DraftExn SendOutcome) :=
  if row.confirmedSha256 ≠ confirmed then return .error (.gate bodyMismatch)
  else do
    let now ← perform .clock
    return .ok ⟨sendPayload id row (some (replaySource row.createdAt now)), 200, true⟩

/-- The decision table, in order. -/
def sendDraft (draftId userId : Nat) (confirmedSha256 : Option String) : TxProg (Except DraftExn SendOutcome) := do
  match ← perform (.getDraft draftId userId) with
  | .error e => return .error (.gate e)
  | .ok view =>
    if !truthy confirmedSha256 then return .error (.gate confirmationRequired)
    else
      let confirmed := confirmedSha256.getD ""
      match ← perform (.selectSend userId view.draft.idempotencyKey) with
      | some (id, row) => replay id row confirmed
      | none =>
        if confirmed ≠ view.confirmation.confirmSha256 then return .error (.gate bodyChanged)
        else
          match ← claimSend ⟨userId, view.draft.id, view.confirmation.connectionId, view.draft.channel,
            view.draft.idempotencyKey, confirmed⟩ with
          | .error e => return .error (.contention e)
          | .ok result =>
            if !result.won then replay result.id result.row confirmed
            else
              let _ ← perform (.enqueue (Store.sendJob result.id result.row))
              return .ok ⟨sendPayload result.id result.row none, 201, false⟩

/-! ## The transactions -/

inductive Call
  | claimSend (a : ClaimArgs)
  | sendDraft (draftId userId : Nat) (confirmedSha256 : Option String)

def Call.prog : Call → TxProg Unit
  | claimSend a => do let _ ← Claim.claimSend a
  | sendDraft draftId userId confirmed => do let _ ← Claim.sendDraft draftId userId confirmed

inductive TxStatus | live | committed | rolledBack
  deriving DecidableEq, Repr

structure Txn where
  call : Call
  began : Nat
  body : TxProg Unit
  status : TxStatus := .live

structure State where
  db : Db := {}
  txns : Table Txn := .empty

inductive Action
  | tick (elapsed : Nat)
  | begins (call : Call)
  | step (tx : Nat) (e : Env)
  /-- The caller commits when the call has returned. -/
  | commit (tx : Nat)
  /-- At any time: an exception, a timeout, a crash. -/
  | rollback (tx : Nat)
  /-- Another transaction's committed update of a send: none changes what was claimed, and none deletes. -/
  | revise (id : Nat) (f : SendRow → SendRow) (hf : ∀ r, (f r).claim = r.claim)
  | reviseJob (id : Nat) (f : Queue.JobRow → Queue.JobRow) (hf : ∀ j, (f j).dedupeKey = j.dedupeKey)

namespace State

def setStatus (s : State) (tx : Nat) (status : TxStatus) (db : Db) : State :=
  { db := db, txns := s.txns.modify tx fun T => { T with status := status } }

def step (settings : Settings) (s : State) : Action → Option State
  | .tick elapsed => some { s with db := { s.db with now := s.db.now + elapsed } }
  | .begins call => some { s with txns := s.txns.insert { call := call, began := s.db.now, body := call.prog } }
  | .step tx e =>
    (s.txns.get tx).bind fun T =>
      if T.status = .live then
        (T.body.step (sem settings tx T.began) e s.db).map fun (body, db) =>
          { db := db, txns := s.txns.modify tx fun T => { T with body := body } }
      else none
  | .commit tx =>
    match s.txns.get tx with
    | some ⟨_, _, .ret (), .live⟩ => some (s.setStatus tx .committed (s.db.commit tx))
    | _ => none
  | .rollback tx =>
    match s.txns.get tx with
    | some ⟨_, _, _, .live⟩ => some (s.setStatus tx .rolledBack (s.db.rollback tx))
    | _ => none
  | .revise id f _ => some { s with db := { s.db with sends := s.db.sends.revise id f } }
  | .reviseJob id f _ => some { s with db := { s.db with jobs := s.db.jobs.revise id f } }

end State

def claims (settings : Settings) : Machine State Action where
  init := {}
  step := State.step settings

end Claim
end Send
end SafeSend
