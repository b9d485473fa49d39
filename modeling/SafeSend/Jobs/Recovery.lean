import SafeSend.Jobs.Queue
/-!
# Recovery and the operator's retry

What the sweeper does with a job whose lease ran out, and the resumption of a terminal job under its own record.
-/
namespace SafeSend
namespace Queue

open Lib

/-- A running row whose lease has expired. -/
def expired (now : Nat) (j : JobRow) : Bool := j.state == .running && j.leaseExpiresAt.any fun t => decide (t < now)

def expiresBefore (a b : Nat × JobRow) : Prop := a.2.leaseExpiresAt.getD 0 ≤ b.2.leaseExpiresAt.getD 0

instance : DecidableRel expiresBefore := fun _ _ => inferInstanceAs (Decidable (_ ≤ _))

/-- The rows a dead worker holds, oldest lease first; those another transaction holds are skipped. -/
def selectStale (now limit : Nat) (locked : Nat → Bool) (jobs : Jobs) : List ClaimedJob :=
  (((jobs.rows.filter fun r => expired now r.2 && !locked r.1).insertionSort expiresBefore).take limit).map
    fun r => ClaimedJob.fromRow r.1 r.2

def running (j : JobRow) : Bool := j.state == .running

def requeueRow (now : Nat) (j : JobRow) : JobRow :=
  { j with state := .ready, runAt := now, leaseExpiresAt := none }

def parkRow (now : Nat) (detail : String) (j : JobRow) : JobRow :=
  { j with
    state := .parked
    finishedAt := some now
    leaseExpiresAt := none
    lastErrorClass := some .transient
    lastErrorDetail := some (cap detail)
    lastErrorAt := some now }

/-- Hand an orphaned job straight back to `ready`; `attempts` stays where the crashed claim put it. -/
def requeue (now : Nat) (jobs : Jobs) (id : Nat) : Bool × Jobs :=
  (jobs.affected id running, jobs.updateWhere id running (requeueRow now))

def park (now : Nat) (jobs : Jobs) (id : Nat) (detail : String) : Bool × Jobs :=
  (jobs.affected id running, jobs.updateWhere id running (parkRow now detail))

/-- Finish an orphaned job the reconciler settled; no worker is asked for, the sweeper acting on its behalf. -/
def resolve (now : Nat) (jobs : Jobs) (id : Nat) : Bool × Jobs :=
  (jobs.affected id running, jobs.updateWhere id running (succeedRow now))

inductive RecoveryPolicy | retry | reconcile
  deriving DecidableEq, Repr

def policyFor : JobKind → RecoveryPolicy
  | .adapterRun => .retry
  | .send => .reconcile

inductive ReconcileOutcome | safeToDispatch | resolved | inconclusive
  deriving DecidableEq, Repr

/-- What the sweep writes for one stale job. -/
inductive Recovery
  | requeue
  | park (detail : String)
  | resolve
  deriving DecidableEq, Repr

/-- The sweep's decision for one stale job.  `outcome` is its reconciler's answer, asked only under `reconcile`; none
where no reconciler is registered for the kind. -/
def recover (job : ClaimedJob) (outcome : Option ReconcileOutcome) : Recovery :=
  match policyFor job.kind with
  | .retry =>
    if job.attempts ≥ job.maxAttempts then
      .park ("lease expired after the final attempt; worker " ++ job.claimedBy.getD "None" ++ " did not report back")
    else .requeue
  | .reconcile =>
    match outcome with
    | none =>
      .park ("orphaned lease on job kind '" ++ job.kind.value ++ "' with no reconciler registered; " ++
        "not re-executed because the side effect cannot be ruled out")
    | some .safeToDispatch => .requeue
    | some .resolved => .resolve
    | some .inconclusive => .park "reconciliation was inconclusive; awaiting an operator"

def Recovery.apply (now : Nat) (jobs : Jobs) (id : Nat) : Recovery → Jobs
  | .requeue => (Queue.requeue now jobs id).2
  | .park detail => (Queue.park now jobs id detail).2
  | .resolve => (Queue.resolve now jobs id).2

/-- What the sweep's transaction commits. -/
def applyRecoveries (now : Nat) (jobs : Jobs) : List (ClaimedJob × Recovery) → Jobs
  | [] => jobs
  | (job, r) :: l => applyRecoveries now (r.apply now jobs job.id) l

def resumable (j : JobRow) : Bool := j.state == .parked || j.state == .failed

def resumeRow (now grant : Nat) (j : JobRow) : JobRow :=
  { j with
    state := .ready
    runAt := now
    finishedAt := none
    leaseExpiresAt := none
    backoffSeconds := none
    maxAttempts := max j.maxAttempts (j.attempts + grant) }

/-- Resume a terminal job under the same record, raising its ceiling by the grant; false where the row is not parked or
failed.  None where a live duplicate makes the unique index refuse the row. -/
def operatorRetry (now : Nat) (jobs : Jobs) (id : Nat) (extraAttempts : Nat := 1) : Option (Bool × Jobs) :=
  let hit := jobs.affected id resumable
  if hit && duplicate jobs ((jobs.get id).bind JobRow.dedupeKey) then none
  else some (hit, jobs.updateWhere id resumable (resumeRow now extraAttempts))

end Queue
end SafeSend
