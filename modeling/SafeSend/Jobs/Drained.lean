import SafeSend.Jobs.Batch
import SafeSend.Jobs.Passes
import SafeSend.Lib.Potential
/-!
# The queue drains

A job has work left for as many claims as are below its ceiling, each of which has yet to be made and to end.  No
statement but a booking or an operator's retry adds to it, and whatever claims, ends or recovers a job takes from it.
-/
namespace SafeSend
namespace Queue

open Lib

/-- The claims and the endings a job may still come to. -/
def JobRow.remaining (j : JobRow) : Nat :=
  match j.state with
  | .ready => 2 * (j.maxAttempts - j.attempts)
  | .running => 2 * (j.maxAttempts - j.attempts) + 1
  | _ => 0

def remaining (jobs : Jobs) : Nat := jobs.total JobRow.remaining

variable {settings : Settings} {s t : QueueState} {now limit : Nat} {locked : Nat → Bool} {l : Lease} {jobs jobs' : Jobs}
  {worker : String} {job : ClaimedJob}

/-! ## What a row loses -/

theorem remaining_left {j j' : JobRow} (hs : j.state = .running) (hs' : j'.state ≠ .running)
    (ha : j'.attempts = j.attempts) (hm : j'.maxAttempts = j.maxAttempts) : j'.remaining < j.remaining := by
  unfold JobRow.remaining
  rw [hs, ha, hm]
  cases h : j'.state with
  | running => exact absurd h hs'
  | ready => exact Nat.lt_succ_self _
  | succeeded => exact Nat.succ_pos _
  | failed => exact Nat.succ_pos _
  | parked => exact Nat.succ_pos _
  | cancelled => exact Nat.succ_pos _

theorem remaining_claimRow {j : JobRow} (hs : j.state = .ready) (ha : j.attempts < j.maxAttempts) :
    (claimRow now l j).remaining < j.remaining := by
  simp only [JobRow.remaining, claimRow, hs]
  omega

theorem Left.lighter {r r' : Option JobRow} (h : Left r r') :
    Table.weigh JobRow.remaining r' ≤ Table.weigh JobRow.remaining r := by
  cases h with
  | same => exact Nat.le_refl _
  | left j j' hs hs' ha hm => exact Nat.le_of_lt (remaining_left hs hs' ha hm)

/-- **A row that leaves its running state takes from what remains.** -/
theorem remaining_lt_of_left (hnext : jobs'.next = jobs.next) (hleft : ∀ n, Left (jobs.get n) (jobs'.get n)) {n : Nat}
    {j j' : JobRow} (hj : jobs.get n = some j) (hj' : jobs'.get n = some j') (hs : j.state = .running)
    (hs' : j'.state ≠ .running) : remaining jobs' < remaining jobs := by
  refine Table.total_lt hnext (fun m => (hleft m).lighter) (n := n) ?_
  have hrow := hleft n
  rw [hj, hj'] at hrow ⊢
  cases hrow with
  | same => exact absurd hs hs'
  | left _ _ _ _ ha hm => exact remaining_left hs hs' ha hm

theorem remaining_le_of_left (hnext : jobs'.next = jobs.next) (hleft : ∀ n, Left (jobs.get n) (jobs'.get n)) :
    remaining jobs' ≤ remaining jobs := Table.total_le hnext fun n => (hleft n).lighter

/-! ## What each statement takes -/

/-- A claim that comes back with something takes from what remains. -/
theorem remaining_claim :
    remaining (claim now limit locked l jobs).2 + (!(claim now limit locked l jobs).1.isEmpty).toNat ≤ remaining jobs := by
  have hrow (n : Nat) : Table.weigh JobRow.remaining ((claim now limit locked l jobs).2.get n) ≤
      Table.weigh JobRow.remaining (jobs.get n) := by
    by_cases hn : n ∈ claimIds now limit locked jobs
    · obtain ⟨j, hj, he, hc⟩ := claim_get_of_mem (l := l) hn
      rw [hc, hj]
      exact Nat.le_of_lt (remaining_claimRow (eligible_iff.1 he).1 (eligible_iff.1 he).2.2.1)
    · rw [claim_get_of_not_mem hn]
  cases hc : (claim now limit locked l jobs).1 with
  | nil => exact Table.total_le rfl hrow
  | cons job rest =>
    obtain ⟨-, j, hj, he, hget, -⟩ := mem_claim (hc ▸ List.mem_cons_self : job ∈ (claim now limit locked l jobs).1)
    refine Table.total_lt (n := job.id) rfl hrow ?_
    rw [hget, hj]
    exact remaining_claimRow (eligible_iff.1 he).1 (eligible_iff.1 he).2.2.1

/-- A guarded update that ends a running row takes from what remains. -/
theorem remaining_updateWhere (id : Nat) {p : JobRow → Bool} {f : JobRow → JobRow}
    (hp : ∀ j, p j = true → j.state = .running)
    (hf : ∀ j, (f j).state ≠ .running ∧ (f j).attempts = j.attempts ∧ (f j).maxAttempts = j.maxAttempts) :
    remaining (jobs.updateWhere id p f) + (jobs.affected id p).toNat ≤ remaining jobs := by
  have hleft := left_updateWhere jobs id hp hf
  cases hit : jobs.affected id p with
  | false => exact remaining_le_of_left rfl hleft
  | true =>
    obtain ⟨j, hj, hpj⟩ := (Option.any_eq_true _ _).1 hit
    exact remaining_lt_of_left rfl hleft hj (Table.get_updateWhere_hit f hj hpj) (hp j hpj) (hf j).1

theorem remaining_succeed (id : Nat) :
    remaining (succeed now jobs id worker).2 + (succeed now jobs id worker).1.toNat ≤ remaining jobs :=
  remaining_updateWhere (f := succeedRow now) id (fun _ => running_of_ownedBy) fun _ => ⟨by simp [succeedRow], rfl, rfl⟩

/-- The outcome says whether the row was still the worker's. -/
theorem fail_applied {errorClass : ErrorClass} {detail : String} {retryAfter : Option Seconds} {draw : Draw}
    {out : FailOutcome} (h : fail now jobs job worker errorClass detail retryAfter draw = some (out, jobs')) :
    out.applied = jobs.affected job.id (ownedBy worker) := by
  unfold fail at h
  simp only at h
  split at h
  · simp only [Option.some.injEq, Prod.mk.injEq] at h
    rw [← h.1]
  · split at h
    · simp only [Option.some.injEq, Prod.mk.injEq] at h
      rw [← h.1]
    · simp only [Option.map_eq_some_iff, Prod.mk.injEq] at h
      obtain ⟨wait, -, h, -⟩ := h
      rw [← h]

theorem remaining_fail {errorClass : ErrorClass} {detail : String} {retryAfter : Option Seconds} {draw : Draw}
    {out : FailOutcome} (h : fail now jobs job worker errorClass detail retryAfter draw = some (out, jobs')) :
    remaining jobs' + out.applied.toNat ≤ remaining jobs := by
  rw [fail_applied h]
  rcases fail_cases h with ⟨-, state, hs, rfl⟩ | ⟨-, -, wait, delay, rfl⟩
  · refine remaining_updateWhere (f := terminalRow now state errorClass (cap detail)) job.id
      (fun _ => running_of_ownedBy) fun _ => ⟨?_, rfl, rfl⟩
    rcases hs with rfl | rfl <;> simp [terminalRow]
  · exact remaining_updateWhere (f := retryRow now wait delay errorClass (cap detail)) job.id
      (fun _ => running_of_ownedBy) fun _ => ⟨by simp [retryRow], rfl, rfl⟩

/-- A sweep that finds something takes from what remains. -/
theorem remaining_recovered (outcome : ClaimedJob → Option ReconcileOutcome) :
    remaining (applyRecoveries now jobs (sweepDecisions (selectStale now limit locked jobs) outcome)) +
      (!(selectStale now limit locked jobs).isEmpty).toNat ≤ remaining jobs := by
  cases hs : selectStale now limit locked jobs with
  | nil => exact Nat.le_refl _
  | cons job rest =>
    have hmem : job ∈ selectStale now limit locked jobs := by
      rw [hs]
      exact List.mem_cons_self
    obtain ⟨j, hj, hrun, -⟩ := runsAs_of_mem_selectStale hmem
    rw [← hs]
    rcases applyRecoveries_get now (sweepDecisions (selectStale now limit locked jobs) outcome) jobs job.id with
      ⟨-, hnone⟩ | ⟨d, -, -, i, hi, -, hget⟩
    · refine absurd hrun (hnone (job, recover job (outcome job)) ?_ rfl j hj)
      exact List.mem_map_of_mem (f := fun job => (job, recover job (outcome job))) hmem
    · obtain rfl := Option.some.inj (hj.symm.trans hi)
      rw [hs]
      rw [hs] at hget
      exact remaining_lt_of_left (next_applyRecoveries _ _ _) (left_recovered _) hj hget hrun (d.2.row_keeps now j).1

/-! ## Along any run -/

/-- The statement claims, ends or recovers a job. -/
def effective (s : QueueState) : QueueOp → Bool
  | .claim limit locked l => !(Queue.claim s.now limit locked l s.jobs).1.isEmpty
  | .succeed job worker => (Queue.succeed s.now s.jobs job.id worker).1
  | .fail job worker errorClass detail retryAfter draw =>
    (Queue.fail s.now s.jobs job worker errorClass detail retryAfter draw).any fun r => r.1.applied
  | .sweep limit locked _ => !(selectStale s.now limit locked s.jobs).isEmpty
  | _ => false

/-- Nothing is booked, and no operator resumes a job. -/
def QueueOp.working : QueueOp → Bool
  | .enqueue _ => false
  | .operatorRetry _ => false
  | _ => true

theorem remaining_step {o : QueueOp} (hw : o.working = true) (hs : QueueState.step settings s o = some t) :
    (effective s o).toNat + remaining t.jobs ≤ remaining s.jobs := by
  rw [Nat.add_comm]
  cases o with
  | tick elapsed =>
    obtain rfl := Option.some.inj hs
    exact Nat.le_refl _
  | enqueue a => cases hw
  | claim limit locked l =>
    obtain rfl := Option.some.inj hs
    exact remaining_claim
  | succeed job worker =>
    simp only [QueueState.step] at hs
    split at hs
    · obtain rfl := Option.some.inj hs
      exact remaining_succeed job.id
    · cases hs
  | fail job worker errorClass detail retryAfter draw =>
    simp only [QueueState.step] at hs
    split at hs
    · obtain rfl := Option.some.inj hs
      cases hf : Queue.fail s.now s.jobs job worker errorClass detail retryAfter draw with
      | none =>
        simp only [effective, hf]
        exact Nat.le_refl _
      | some out =>
        simp only [effective, hf]
        exact remaining_fail hf
    · cases hs
  | sweep limit locked outcome =>
    obtain rfl := Option.some.inj hs
    exact remaining_recovered outcome
  | operatorRetry id => cases hw

/-- **The work runs out**: from any state, however the statements of however many workers and sweepers interleave, those
that claim, end or recover a job are no more than what remained to be claimed and ended, less what still does. -/
theorem work_runs_out {k n : Nat}
    (h : ((queue settings).counting effective).Steps (fun _ o => QueueOp.working o = true) (s, k) (t, n)) :
    n + remaining t.jobs ≤ k + remaining s.jobs :=
  @Machine.Steps.potential _ _ (queue settings) (fun _ o => QueueOp.working o = true) effective
    (fun s => remaining s.jobs) (fun _ _ _ => remaining_step) s t k n h

/-- Claimed, lost with its worker, recovered, claimed again and sent. -/
def lostThenSent : List QueueOp := [
  .claim 5 (fun _ => false) ⟨"host:1", 90, 300⟩,
  .claim 5 (fun _ => false) ⟨"host:2", 90, 300⟩,
  .tick 300000001,
  .sweep 20 (fun _ => false) fun _ => some .safeToDispatch,
  .claim 5 (fun _ => false) ⟨"host:2", 90, 300⟩]

theorem work_runs_out_lost : ∃ t, ((queue {}).counting effective).Steps (fun _ o => QueueOp.working o = true)
    ({ jobs := backlog }, 0) (t, 3) ∧ 3 + remaining t.jobs ≤ 0 + remaining backlog := by
  have hrun : (((queue {}).counting effective).exec ({ jobs := backlog }, 0) lostThenSent).any (fun p => p.2 == 3) = true := by
    decide +kernel
  obtain ⟨⟨t, n⟩, hexec, hn⟩ := (Option.any_eq_true _ _).1 hrun
  obtain rfl := beq_iff_eq.1 hn
  have hsteps : ((queue {}).counting effective).Steps (fun _ o => QueueOp.working o = true)
      ({ jobs := backlog }, 0) (t, 3) := Machine.Steps.of_exec (fun _ _ h => h) hexec (by decide +kernel)
  exact ⟨t, hsteps, work_runs_out hsteps⟩

/-! ## Along the worker's ticks -/

/-- A ready job is below its ceiling. -/
def Below (jobs : Jobs) : Prop := ∀ n j, jobs.get n = some j → j.state = .ready → j.attempts < j.maxAttempts

/-- The queue with that table, and no claim outstanding. -/
theorem Below.bounded (h : Below jobs) (now : Nat) : Bounded { now := now, jobs := jobs } := ⟨h, fun _ hj => nomatch hj⟩

theorem Below.claim (h : Below jobs) : Below (claim now limit locked l jobs).2 :=
  ((h.bounded now).claim limit locked l).ready

theorem Below.change (h : Below jobs) (hr : Readies jobs jobs') : Below jobs' :=
  fun n j hj hs => (hr n j hj hs).elim (fun hold => h n j hold hs) id

/-- A retried job is one its claim left an attempt. -/
theorem Below.execute (h : Below jobs) (hruns : RunsAs jobs job) (x : Execution) :
    Below (execute now worker jobs job x).2 := by
  rcases execute_cases now worker jobs job x with
    hx | hx | ⟨errorClass, detail, retryAfter, draw, out, hf⟩
  · rw [hx]
    exact h
  · rw [hx]
    exact h.change (readies_updateWhere fun _ _ _ hs => nomatch hs)
  · rcases fail_cases hf with ⟨-, state, hstate, hx⟩ | ⟨-, hleft, wait, delay, hx⟩
    · rw [hx]
      refine h.change (readies_updateWhere fun _ _ _ hs => ?_)
      rcases hstate with rfl | rfl <;> cases hs
    · rw [hx]
      refine h.change (readies_updateWhere fun j hj _ _ => ?_)
      obtain ⟨i, hi, -, he⟩ := hruns
      obtain rfl := Option.some.inj (hi.symm.trans hj)
      rw [he] at hleft
      exact hleft

theorem execute_finishes (x : Execution) : Finishes job.id jobs (execute now worker jobs job x).2 := by
  rcases execute_cases now worker jobs job x with
    hx | hx | ⟨errorClass, detail, retryAfter, draw, out, hf⟩
  · rw [hx]
    exact .refl _ _
  · rw [hx]
    exact succeed_finishes now jobs job.id worker
  · exact fail_finishes hf

/-- What a worker runs of a batch that runs as it was handed. -/
theorem Below.executeAll (x : ClaimedJob → Execution) : ∀ (batch : List ClaimedJob) (jobs : Jobs), Below jobs →
    (batch.map ClaimedJob.id).Nodup → (∀ job ∈ batch, RunsAs jobs job) → Below (executeAll now worker x batch jobs).2
  | [], _, h, _, _ => h
  | job :: batch, jobs, h, hnodup, hruns => by
    obtain ⟨hfresh, hnodup⟩ := List.nodup_cons.1 hnodup
    refine Below.executeAll x batch _ (h.execute (hruns job List.mem_cons_self) (x job)) hnodup fun other hother => ?_
    refine (hruns other (List.mem_cons_of_mem _ hother)).finishes (execute_finishes (x job)) fun hid => hfresh ?_
    rw [← hid]
    exact List.mem_map_of_mem hother

theorem Below.runOnce (h : Below jobs) (p : Pass) : Below (runOnce p jobs).2 :=
  Below.executeAll p.executions _ _ h.claim claim_ids_nodup fun _ => runsAs_of_mem_claim

theorem remaining_execute (x : Execution) : remaining (execute now worker jobs job x).2 ≤ remaining jobs := by
  rcases execute_cases now worker jobs job x with
    hx | hx | ⟨errorClass, detail, retryAfter, draw, out, hf⟩
  · rw [hx]
  · rw [hx]
    exact Nat.le_of_add_right_le (remaining_succeed job.id)
  · exact Nat.le_of_add_right_le (remaining_fail hf)

theorem remaining_executeAll (x : ClaimedJob → Execution) : ∀ (batch : List ClaimedJob) (jobs : Jobs),
    remaining (executeAll now worker x batch jobs).2 ≤ remaining jobs
  | [], _ => Nat.le_refl _
  | job :: batch, _ => (remaining_executeAll x batch _).trans (remaining_execute (x job))

/-- A pass that claims something takes from what remains. -/
theorem remaining_runOnce (p : Pass) : remaining (runOnce p jobs).2 +
    (!(claim p.now p.limit p.locked p.lease jobs).1.isEmpty).toNat ≤ remaining jobs :=
  (Nat.add_le_add_right (remaining_executeAll p.executions _ _) _).trans remaining_claim

/-- The sweep calls no job safe to dispatch that is on its last attempt. -/
def Sweep.spares (s : Sweep) (jobs : Jobs) : Bool :=
  keepsCeiling { now := s.now, jobs := jobs } (.sweep s.limit s.locked s.outcome)

theorem Below.sweep (h : Below jobs) {s : Sweep} (hok : s.spares jobs = true) : Below (sweep s jobs).2 := by
  unfold Queue.sweep
  split
  · exact ((h.bounded s.now).sweep hok).ready
  · exact h

theorem remaining_sweep (s : Sweep) : remaining (sweep s jobs).2 +
    (s.got && !(selectStale s.now s.limit s.locked jobs).isEmpty).toNat ≤ remaining jobs := by
  unfold Queue.sweep
  cases s.got with
  | true => exact remaining_recovered s.outcome
  | false => exact Nat.le_refl _

/-- The tick comes after every lease in the table has run out and every ready job is due, and finds nothing locked. -/
def Tick.due (t : Tick) (jobs : Jobs) : Bool :=
  t.sweeping.got && jobs.rows.all fun r =>
    !t.sweeping.locked r.1 && !t.working.locked r.1 && (r.2.state != .running || expired t.sweeping.now r.2) &&
      (r.2.state != .ready || decide (r.2.runAt ≤ t.working.now))

theorem due_iff {t : Tick} : t.due jobs = true ↔ t.sweeping.got = true ∧
    ∀ n j, jobs.get n = some j → t.sweeping.locked n = false ∧ t.working.locked n = false ∧
      (j.state = .running → expired t.sweeping.now j = true) ∧ (j.state = .ready → j.runAt ≤ t.working.now) := by
  unfold Tick.due
  rw [Bool.and_eq_true, List.all_eq_true]
  refine and_congr_right fun _ => ⟨fun h n j hj => ?_, fun h r hr => ?_⟩
  · have hrow := h (n, j) (Table.mem_rows.2 hj)
    simp only [Bool.and_eq_true, Bool.not_eq_true', Bool.or_eq_true, bne_iff_ne, ne_eq, decide_eq_true_eq,
      ← imp_iff_not_or, and_assoc] at hrow
    exact hrow
  · obtain ⟨hs, hw, hrun, hready⟩ := h r.1 r.2 (Table.mem_rows.1 hr)
    simp only [Bool.and_eq_true, Bool.not_eq_true', Bool.or_eq_true, bne_iff_ne, ne_eq, decide_eq_true_eq,
      ← imp_iff_not_or, and_assoc]
    exact ⟨hs, hw, hrun, hready⟩

/-- A running row whose lease ran out is found, unless it is locked or another is. -/
theorem selectStale_ne_nil (hl : 1 ≤ limit) {n : Nat} {j : JobRow} (hj : jobs.get n = some j)
    (he : expired now j = true) (hn : locked n = false) : (selectStale now limit locked jobs).isEmpty = false := by
  obtain ⟨k, rfl⟩ : ∃ k, limit = k + 1 := ⟨limit - 1, by omega⟩
  have hmem : (n, j) ∈ (jobs.rows.filter fun r => expired now r.2 && !locked r.1).insertionSort expiresBefore := by
    rw [List.mem_insertionSort, List.mem_filter]
    exact ⟨Table.mem_rows.2 hj, by simp [he, hn]⟩
  unfold selectStale
  obtain ⟨first, rest, hsorted⟩ := List.exists_cons_of_ne_nil (List.ne_nil_of_mem hmem)
  rw [hsorted]
  rfl

/-- Where nothing runs, a sweep leaves the table as it is. -/
theorem sweep_idle (s : Sweep) (h : ∀ n j, jobs.get n = some j → j.state ≠ .running) : (sweep s jobs).2 = jobs := by
  have hnone : selectStale s.now s.limit s.locked jobs = [] := by
    rw [List.eq_nil_iff_forall_not_mem]
    intro job hjob
    obtain ⟨j, hj, hs, -⟩ := runsAs_of_mem_selectStale hjob
    exact h job.id j hj hs
  unfold Queue.sweep Sweep.decisions
  rw [hnone]
  split <;> rfl

/-- Where nothing runs and something remains, a job is ready below its ceiling. -/
theorem exists_ready (hidle : ∀ n j, jobs.get n = some j → j.state ≠ .running) (hpos : 0 < remaining jobs) :
    ∃ n j, jobs.get n = some j ∧ j.state = .ready ∧ j.attempts < j.maxAttempts := by
  by_contra hnone
  refine Nat.ne_of_gt hpos (Table.total_eq_zero_iff.2 fun n j hj => ?_)
  unfold JobRow.remaining
  cases hs : j.state with
  | running => exact absurd hs (hidle n j hj)
  | ready =>
    have hnot : ¬ j.attempts < j.maxAttempts := fun hlt => hnone ⟨n, j, hj, hs, hlt⟩
    simp only
    omega
  | succeeded | failed | parked | cancelled => rfl

theorem claim_ne_nil (hl : 1 ≤ limit) {n : Nat} {j : JobRow} (hj : jobs.get n = some j)
    (he : eligible now jobs j = true) (hn : locked n = false) : (claim now limit locked l jobs).1.isEmpty = false := by
  rw [List.isEmpty_eq_false_iff]
  intro hnil
  have hmem : (n, j) ∈ queued now locked jobs := mem_queued.2 ⟨hj, he, hn⟩
  rw [(claim_eq_nil_iff hl).1 hnil] at hmem
  cases hmem

/-- **A due tick takes from what remains, while anything does.** -/
theorem remaining_tick {t : Tick} (h : Below jobs) (hspares : t.sweeping.spares jobs = true)
    (hdue : t.due jobs = true) :
    Below (sweepEndpoint t jobs).2 ∧ remaining (sweepEndpoint t jobs).2 ≤ remaining jobs - 1 := by
  obtain ⟨hgot, hrows⟩ := due_iff.1 hdue
  refine ⟨(h.sweep hspares).runOnce t.working, ?_⟩
  have hswept : remaining (sweep t.sweeping jobs).2 + _ ≤ remaining jobs := remaining_sweep t.sweeping
  have hworked : _ + _ ≤ remaining (sweep t.sweeping jobs).2 := remaining_runOnce t.working
  by_cases hrun : ∃ n j, jobs.get n = some j ∧ j.state = .running
  · obtain ⟨n, j, hj, hs⟩ := hrun
    obtain ⟨hlocked, -, hexpired, -⟩ := hrows n j hj
    rw [hgot, selectStale_ne_nil t.sweeping.limit_pos hj (hexpired hs) hlocked] at hswept
    have hless : remaining (sweep t.sweeping jobs).2 + 1 ≤ remaining jobs := hswept
    exact (Nat.le_of_add_right_le hworked).trans (Nat.le_sub_one_of_lt hless)
  · have hidle (n : Nat) (j : JobRow) (hj : jobs.get n = some j) : j.state ≠ .running := fun hs => hrun ⟨n, j, hj, hs⟩
    have hsame : (sweep t.sweeping jobs).2 = jobs := sweep_idle t.sweeping hidle
    rw [hsame] at hworked
    unfold sweepEndpoint
    simp only [hsame]
    rcases Nat.eq_zero_or_pos (remaining jobs) with hzero | hpos
    · rw [hzero] at hworked ⊢
      exact Nat.le_of_add_right_le hworked
    · obtain ⟨n, j, hj, hs, hlt⟩ := exists_ready hidle hpos
      obtain ⟨-, hlocked, -, hready⟩ := hrows n j hj
      have hfree : partitionBusy jobs j.partitionKey = false := by
        cases hp : j.partitionKey with
        | none => rfl
        | some p =>
          unfold partitionBusy
          exact Table.any_eq_false.2 fun m r hr => by simp [hidle m r hr]
      have he : eligible t.working.now jobs j = true := eligible_iff.2 ⟨hs, hready hs, hlt, hfree⟩
      rw [claim_ne_nil t.working.limit_pos hj he hlocked] at hworked
      have hless : remaining (runOnce t.working jobs).2 + 1 ≤ remaining jobs := hworked
      exact Nat.le_sub_one_of_lt hless

def runTicks : List Tick → Jobs → Jobs := runAll fun t jobs => (sweepEndpoint t jobs).2

def allDue : List Tick → Jobs → Bool := along (fun t jobs => (sweepEndpoint t jobs).2) Tick.due

/-- No sweep of the ticks calls a job safe to dispatch that is on its last attempt. -/
def allSpare : List Tick → Jobs → Bool :=
  along (fun t jobs => (sweepEndpoint t jobs).2) fun t jobs => t.sweeping.spares jobs

/-- **The ticks drain the queue**: as long as no sweep calls a job on its last attempt safe to dispatch, whatever else the
handlers and the reconcilers come to, and whichever workers die, as many due ticks as there was work remaining leave no job
ready and none running. -/
theorem ticks_drain {ticks : List Tick} (hb : Below jobs) (hspares : allSpare ticks jobs = true)
    (hdue : allDue ticks jobs = true) (hlen : remaining jobs ≤ ticks.length) {n : Nat} {j : JobRow}
    (hj : (runTicks ticks jobs).get n = some j) : j.live = false := by
  have hboth : along (fun t jobs => (sweepEndpoint t jobs).2) (fun t jobs => t.sweeping.spares jobs && t.due jobs)
      ticks jobs = true := by
    rw [along_and, Bool.and_eq_true]
    exact ⟨hspares, hdue⟩
  have hstep (t : Tick) (jobs : Jobs) (hb : Below jobs) (ht : (t.sweeping.spares jobs && t.due jobs) = true) :=
    remaining_tick hb (Bool.and_eq_true_iff.1 ht).1 (Bool.and_eq_true_iff.1 ht).2
  obtain ⟨hbelow, hzero⟩ := potential_zero (I := Below) (μ := remaining) hstep ticks jobs hb hboth hlen
  have hrow : j.remaining = 0 := Table.total_eq_zero_iff.1 hzero n j hj
  unfold JobRow.remaining at hrow
  cases hs : j.state with
  | running =>
    rw [hs] at hrow
    cases hrow
  | ready =>
    rw [hs] at hrow
    have hlt := hbelow n j hj hs
    simp only at hrow
    omega
  | succeeded | failed | parked | cancelled => simp [JobRow.live, hs]

/-- A mailbox's send, whose first worker dies and whose second finds the provider down for good. -/
def twoDays : List Tick :=
  let tick (now : Nat) : Tick := {
    sweeping := { now := now, outcome := fun _ => some .safeToDispatch }
    working := {
      now := now
      limit := 5
      limit_pos := by decide
      lease := ⟨"host:1", 90, 300⟩
      executions := fun job => if job.attempts = 1 then .cancelled else .raised .permanent "gone" none .least
      ended := now } }
  [tick 10, tick 400000000, tick 800000000, tick 1200000000]

def oneSend : Jobs := (enqueue {} 0 .empty { kind := .send, refId := 0, maxAttempts := some 2 }).2

theorem ticks_drain_two : remaining oneSend = 4 ∧ ∃ j, (runTicks twoDays oneSend).get 0 = some j ∧ j.live = false := by
  have hbelow : Below oneSend := by
    intro n j hj _
    rcases Table.get_insert_cases hj with ⟨-, rfl⟩ | ⟨-, hj⟩
    · decide
    · cases hj
  have hdone : ((runTicks twoDays oneSend).get 0).isSome = true := by decide +kernel
  obtain ⟨j, hj⟩ := Option.isSome_iff_exists.1 hdone
  exact ⟨by decide, j, hj, ticks_drain hbelow (by decide +kernel) (by decide +kernel) (by decide) hj⟩

end Queue
end SafeSend
