import SafeSend.Jobs.Claimable
/-!
# Passes

`run_once` claims a batch, runs it and records how each job ended; `sweep` recovers what dead workers hold; the worker's
`/sweep` is the one after the other.  What a handler or a reconciler comes to is given with the pass.
-/
namespace SafeSend
namespace Queue

open Lib

/-- How the execution of a job ends.  A cancelled one records nothing, and nor does one whose worker dies. -/
inductive Execution
  | completed
  | raised (errorClass : ErrorClass) (detail : String) (retryAfter : Option Seconds) (draw : Draw)
  | cancelled

/-- What `_execute` returns; `broken` is the exception it ends in. -/
inductive Outcome | succeeded | retried | parked | failed | lost | broken
  deriving DecidableEq, Repr

def FailOutcome.outcome (o : FailOutcome) : Outcome :=
  match o.state with
  | .ready => .retried
  | .parked => .parked
  | _ => .failed

/-- `_execute`, of a kind that has a handler. -/
def execute (now : Nat) (worker : String) (jobs : Jobs) (job : ClaimedJob) : Execution → Outcome × Jobs
  | .completed => (if (succeed now jobs job.id worker).1 then .succeeded else .lost, (succeed now jobs job.id worker).2)
  | .raised errorClass detail retryAfter draw =>
    ((fail now jobs job worker errorClass detail retryAfter draw).map fun r => (r.1.outcome, r.2)).getD (.broken, jobs)
  | .cancelled => (.broken, jobs)

/-- The batch, gathered: each job writes its own row. -/
def executeAll (now : Nat) (worker : String) (x : ClaimedJob → Execution) : List ClaimedJob → Jobs → List Outcome × Jobs
  | [], jobs => ([], jobs)
  | job :: l, jobs =>
    let (outcome, jobs) := execute now worker jobs job (x job)
    let (outcomes, jobs) := executeAll now worker x l jobs
    (outcome :: outcomes, jobs)

structure RunReport where
  claimed : Nat := 0
  succeeded : Nat := 0
  retried : Nat := 0
  failed : Nat := 0
  parked : Nat := 0
  jobIds : List Nat := []
  deriving DecidableEq, Repr

def RunReport.add (r : RunReport) : Outcome → RunReport
  | .succeeded => { r with succeeded := r.succeeded + 1 }
  | .retried => { r with retried := r.retried + 1 }
  | .parked => { r with parked := r.parked + 1 }
  | .failed => { r with failed := r.failed + 1 }
  | .lost => { r with failed := r.failed + 1 }
  | .broken => { r with failed := r.failed + 1 }

/-- A pass of a worker: what it claims with, what its handlers come to, and when that is recorded. -/
structure Pass where
  now : Nat
  limit : Nat
  limit_pos : 1 ≤ limit
  locked : Nat → Bool := fun _ => false
  lease : Lease
  executions : ClaimedJob → Execution
  ended : Nat

def runOnce (p : Pass) (jobs : Jobs) : RunReport × Jobs :=
  let (claimed, jobs) := claim p.now p.limit p.locked p.lease jobs
  let (outcomes, jobs) := executeAll p.ended p.lease.worker p.executions claimed jobs
  (outcomes.foldl RunReport.add { claimed := claimed.length, jobIds := claimed.map ClaimedJob.id }, jobs)

structure SweepReport where
  heldLock : Bool := true
  stale : Nat := 0
  requeued : Nat := 0
  reconciled : Nat := 0
  parked : Nat := 0
  resolved : Nat := 0
  deriving DecidableEq, Repr

/-- A reconciler is asked for the job. -/
def asksReconciler (job : ClaimedJob) (outcome : Option ReconcileOutcome) : Bool :=
  policyFor job.kind == .reconcile && outcome.isSome

def SweepReport.add (outcome : ClaimedJob → Option ReconcileOutcome) (r : SweepReport) (d : ClaimedJob × Recovery) :
    SweepReport :=
  let r := if asksReconciler d.1 (outcome d.1) then { r with reconciled := r.reconciled + 1 } else r
  match d.2 with
  | .requeue => { r with requeued := r.requeued + 1 }
  | .park _ => { r with parked := r.parked + 1 }
  | .resolve => { r with resolved := r.resolved + 1 }

/-- A sweep: whether it gets the advisory lock, and what the reconcilers come to. -/
structure Sweep where
  now : Nat
  limit : Nat := 20
  limit_pos : 1 ≤ limit := by decide
  locked : Nat → Bool := fun _ => false
  outcome : ClaimedJob → Option ReconcileOutcome
  got : Bool := true

def Sweep.decisions (s : Sweep) (jobs : Jobs) : List (ClaimedJob × Recovery) :=
  sweepDecisions (selectStale s.now s.limit s.locked jobs) s.outcome

def sweep (s : Sweep) (jobs : Jobs) : SweepReport × Jobs :=
  if s.got then
    ((s.decisions jobs).foldl (SweepReport.add s.outcome) { stale := (s.decisions jobs).length },
      applyRecoveries s.now jobs (s.decisions jobs))
  else ({ heldLock := false }, jobs)

/-- The worker's `/sweep`. -/
structure Tick where
  sweeping : Sweep
  working : Pass

def sweepEndpoint (t : Tick) (jobs : Jobs) : (SweepReport × RunReport) × Jobs :=
  let (swept, jobs) := sweep t.sweeping jobs
  let (worked, jobs) := runOnce t.working jobs
  ((swept, worked), jobs)

/-! ## What a pass does to a row -/

/-- A row is as it was, or leaves its running state with its attempts and its ceiling. -/
inductive Left : Option JobRow → Option JobRow → Prop
  | same (r : Option JobRow) : Left r r
  | left (j j' : JobRow) (hs : j.state = .running) (hs' : j'.state ≠ .running) (ha : j'.attempts = j.attempts)
    (hm : j'.maxAttempts = j.maxAttempts) : Left (some j) (some j')

variable {now limit : Nat} {locked : Nat → Bool} {l : Lease} {jobs jobs' : Jobs} {worker : String} {job : ClaimedJob}

theorem left_updateWhere (jobs : Jobs) (id : Nat) {p : JobRow → Bool} {f : JobRow → JobRow}
    (hp : ∀ j, p j = true → j.state = .running)
    (hf : ∀ j, (f j).state ≠ .running ∧ (f j).attempts = j.attempts ∧ (f j).maxAttempts = j.maxAttempts) (n : Nat) :
    Left (jobs.get n) ((jobs.updateWhere id p f).get n) := by
  rcases jobs.get_updateWhere_cases id p f n with h | ⟨-, j, hj, hpj, hn⟩
  · rw [h]
    exact .same _
  · rw [hj, hn]
    exact .left j (f j) (hp j hpj) (hf j).1 (hf j).2.1 (hf j).2.2

theorem running_of_ownedBy {j : JobRow} (h : ownedBy worker j = true) : j.state = .running := (ownedBy_iff.1 h).1

theorem left_succeed (id : Nat) (n : Nat) : Left (jobs.get n) ((succeed now jobs id worker).2.get n) :=
  left_updateWhere (f := succeedRow now) jobs id (fun _ => running_of_ownedBy) (fun _ => ⟨by simp [succeedRow], rfl, rfl⟩) n

theorem left_fail {errorClass : ErrorClass} {detail : String} {retryAfter : Option Seconds} {draw : Draw}
    {out : FailOutcome} (h : fail now jobs job worker errorClass detail retryAfter draw = some (out, jobs')) (n : Nat) :
    Left (jobs.get n) (jobs'.get n) := by
  rcases fail_cases h with ⟨-, state, hs, rfl⟩ | ⟨-, -, wait, delay, rfl⟩
  · refine left_updateWhere (f := terminalRow now state errorClass (cap detail)) jobs job.id (fun _ => running_of_ownedBy)
      (fun _ => ⟨?_, rfl, rfl⟩) n
    rcases hs with rfl | rfl <;> simp [terminalRow]
  · exact left_updateWhere (f := retryRow now wait delay errorClass (cap detail)) jobs job.id
      (fun _ => running_of_ownedBy) (fun _ => ⟨by simp [retryRow], rfl, rfl⟩) n

/-- What an execution writes: nothing, its success, or its failure. -/
theorem execute_cases (now : Nat) (worker : String) (jobs : Jobs) (job : ClaimedJob) (x : Execution) :
    (execute now worker jobs job x).2 = jobs ∨
    (execute now worker jobs job x).2 = (succeed now jobs job.id worker).2 ∨
    ∃ errorClass detail retryAfter draw out,
      fail now jobs job worker errorClass detail retryAfter draw = some (out, (execute now worker jobs job x).2) := by
  cases x with
  | completed => exact .inr (.inl rfl)
  | cancelled => exact .inl rfl
  | raised errorClass detail retryAfter draw =>
    simp only [execute]
    cases hf : fail now jobs job worker errorClass detail retryAfter draw with
    | none => exact .inl rfl
    | some out => exact .inr (.inr ⟨errorClass, detail, retryAfter, draw, out.1, hf⟩)

theorem left_recovered (ds : List (ClaimedJob × Recovery)) (n : Nat) :
    Left (jobs.get n) ((applyRecoveries now jobs ds).get n) := by
  rcases applyRecoveries_get now ds jobs n with ⟨h, -⟩ | ⟨d, -, -, j, hj, hr, h⟩
  · rw [h]
    exact .same _
  · rw [h, hj]
    have hmax : (d.2.row now j).maxAttempts = j.maxAttempts := by cases d.2 <;> rfl
    exact .left j _ hr (d.2.row_keeps now j).1 (d.2.row_keeps now j).2.2 hmax

end Queue
end SafeSend
