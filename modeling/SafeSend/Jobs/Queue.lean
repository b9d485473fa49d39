import Mathlib.Data.List.Sort
import SafeSend.Config
import SafeSend.Jobs.Backoff
import SafeSend.Lib.Table
/-!
# The queue

Enqueue, claim, finish, recover, and the operator's retry: each is one statement on the jobs table.  A claim is leased;
every finishing statement is a compare-and-swap on the worker that holds the row.
-/
namespace SafeSend
namespace Queue

open Lib

def MAX_ERROR_DETAIL_BYTES : Nat := 16 * 1024

structure JobRow where
  kind : JobKind
  refId : Nat
  dedupeKey : Option String
  partitionKey : Option String
  state : JobState := .ready
  priority : Int := 0
  runAt : Nat
  attempts : Nat := 0
  maxAttempts : Nat
  backoffSeconds : Option Seconds := none
  claimedAt : Option Nat := none
  claimedBy : Option String := none
  leaseExpiresAt : Option Nat := none
  startedAt : Option Nat := none
  finishedAt : Option Nat := none
  lastErrorClass : Option ErrorClass := none
  lastErrorDetail : Option String := none
  lastErrorAt : Option Nat := none
  deriving DecidableEq, Repr

abbrev Jobs := Table JobRow

structure ClaimedJob where
  id : Nat
  kind : JobKind
  refId : Nat
  attempts : Nat
  maxAttempts : Nat
  partitionKey : Option String
  dedupeKey : Option String
  claimedBy : Option String
  leaseExpiresAt : Option Nat
  startedAt : Option Nat
  deriving DecidableEq, Repr

def ClaimedJob.fromRow (id : Nat) (row : JobRow) : ClaimedJob :=
  ⟨id, row.kind, row.refId, row.attempts, row.maxAttempts, row.partitionKey, row.dedupeKey, row.claimedBy,
    row.leaseExpiresAt, row.startedAt⟩

/-- `_cap`: at most 16 KiB, by bytes. -/
def cap (detail : String) : String :=
  let raw := Text.encode detail
  if raw.length ≤ MAX_ERROR_DETAIL_BYTES then detail else Text.decodeIgnore (raw.take MAX_ERROR_DETAIL_BYTES)

def micros (seconds : Nat) : Nat := seconds * 1000000

/-! ## Enqueue -/

/-- `jobs_dedupe_idx` covers the row. -/
def JobRow.live (j : JobRow) : Bool := j.state == .ready || j.state == .running

structure EnqueueArgs where
  kind : JobKind
  refId : Nat
  dedupeKey : Option String := none
  partitionKey : Option String := none
  priority : Int := 0
  runAt : Option Nat := none
  maxAttempts : Option Nat := none

def duplicate (jobs : Jobs) (key : Option String) : Bool :=
  key.isSome && jobs.any fun _ j => j.dedupeKey == key && j.live

def newRow (settings : Settings) (now : Nat) (a : EnqueueArgs) : JobRow where
  kind := a.kind
  refId := a.refId
  dedupeKey := a.dedupeKey
  partitionKey := a.partitionKey
  priority := a.priority
  runAt := a.runAt.getD now
  maxAttempts := a.maxAttempts.getD settings.maxAttempts

/-- Insert a job; no id where a live duplicate already exists. -/
def enqueue (settings : Settings) (now : Nat) (jobs : Jobs) (a : EnqueueArgs) : Option Nat × Jobs :=
  if duplicate jobs a.dedupeKey then (none, jobs) else (some jobs.next, jobs.insert (newRow settings now a))

/-! ## Claim -/

def partitionBusy (jobs : Jobs) : Option String → Bool
  | none => false
  | some p => jobs.any fun _ r => r.state == .running && r.partitionKey == some p

def eligible (now : Nat) (jobs : Jobs) (j : JobRow) : Bool :=
  j.state == .ready && decide (j.runAt ≤ now) && decide (j.attempts < j.maxAttempts) && !partitionBusy jobs j.partitionKey

/-- `ORDER BY priority DESC, run_at, id`. -/
def claimsBefore (a b : Nat × JobRow) : Prop :=
  b.2.priority < a.2.priority ∨ b.2.priority = a.2.priority ∧
    (a.2.runAt < b.2.runAt ∨ a.2.runAt = b.2.runAt ∧ a.1 ≤ b.1)

instance : DecidableRel claimsBefore := fun _ _ => inferInstanceAs (Decidable (_ ∨ _))

/-- The rows the claim locks; `locked` are those another transaction holds, which it skips. -/
def candidates (now limit : Nat) (locked : Nat → Bool) (jobs : Jobs) : List (Nat × JobRow) :=
  ((jobs.rows.filter fun r => eligible now jobs r.2 && !locked r.1).insertionSort claimsBefore).take limit

/-- `COALESCE(partition_key, 'job:' || id)`. -/
def slot (r : Nat × JobRow) : String := r.2.partitionKey.getD ("job:" ++ toString r.1)

/-- `SELECT DISTINCT ON (slot)`: the first row of each. -/
def picked : List (Nat × JobRow) → List (Nat × JobRow)
  | [] => []
  | r :: l => r :: (picked l).filter fun q => slot q != slot r

structure Lease where
  worker : String
  leaseSeconds : Nat
  sendLeaseSeconds : Nat

def Lease.secondsFor (l : Lease) : JobKind → Nat
  | .send => l.sendLeaseSeconds
  | .adapterRun => l.leaseSeconds

def claimRow (now : Nat) (l : Lease) (j : JobRow) : JobRow :=
  { j with
    state := .running
    attempts := j.attempts + 1
    claimedAt := some now
    claimedBy := some l.worker
    leaseExpiresAt := some (now + micros (l.secondsFor j.kind))
    startedAt := some (j.startedAt.getD now) }

def claimIds (now limit : Nat) (locked : Nat → Bool) (jobs : Jobs) : List Nat :=
  (picked (candidates now limit locked jobs)).map Prod.fst

/-- Claim up to `limit` ready jobs, leasing them to the worker. -/
def claim (now limit : Nat) (locked : Nat → Bool) (l : Lease) (jobs : Jobs) : List ClaimedJob × Jobs :=
  let ids := claimIds now limit locked jobs
  let jobs' := jobs.updateAll (fun n => ids.contains n) (claimRow now l)
  (ids.filterMap fun n => (jobs'.get n).map (ClaimedJob.fromRow n), jobs')

/-! ## Finish -/

def ownedBy (worker : String) (j : JobRow) : Bool := j.state == .running && j.claimedBy == some worker

def succeedRow (now : Nat) (j : JobRow) : JobRow :=
  { j with state := .succeeded, finishedAt := some now, leaseExpiresAt := none, backoffSeconds := none }

/-- Compare-and-swap to `succeeded`; false means the worker no longer owned it. -/
def succeed (now : Nat) (jobs : Jobs) (id : Nat) (worker : String) : Bool × Jobs :=
  (jobs.affected id (ownedBy worker), jobs.updateWhere id (ownedBy worker) (succeedRow now))

structure FailOutcome where
  state : JobState
  delaySeconds : Option Seconds
  applied : Bool
  deriving DecidableEq, Repr

def terminalRow (now : Nat) (state : JobState) (errorClass : ErrorClass) (detail : String) (j : JobRow) : JobRow :=
  { j with
    state := state
    finishedAt := some now
    leaseExpiresAt := none
    backoffSeconds := none
    lastErrorClass := some errorClass
    lastErrorDetail := some detail
    lastErrorAt := some now }

def retryRow (now wait : Nat) (delay : Seconds) (errorClass : ErrorClass) (detail : String) (j : JobRow) : JobRow :=
  { j with
    state := .ready
    runAt := now + wait
    backoffSeconds := some delay
    leaseExpiresAt := none
    lastErrorClass := some errorClass
    lastErrorDetail := some detail
    lastErrorAt := some now }

/-- Record a failure and decide what happens next: only `transient` is retried, and only below the ceiling.  None where
the delay is no interval, or leads past the last timestamp, and the statement raises. -/
def fail (now : Nat) (jobs : Jobs) (job : ClaimedJob) (worker : String) (errorClass : ErrorClass) (detail : String)
    (retryAfter : Option Seconds) (draw : Draw) : Option (FailOutcome × Jobs) :=
  let capped := cap detail
  let applied := jobs.affected job.id (ownedBy worker)
  let terminal (state : JobState) :=
    (FailOutcome.mk state none applied,
      jobs.updateWhere job.id (ownedBy worker) (terminalRow now state errorClass capped))
  if errorClass ≠ .transient then some (terminal .failed)
  else if job.attempts ≥ job.maxAttempts then some (terminal .parked)
  else
    let delay := fullJitter job.attempts retryAfter draw
    (delay.waitFrom now).map fun wait =>
      (⟨.ready, some delay, applied⟩,
        jobs.updateWhere job.id (ownedBy worker) (retryRow now wait delay errorClass capped))

end Queue
end SafeSend
