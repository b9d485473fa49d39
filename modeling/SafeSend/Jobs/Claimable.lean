import SafeSend.Jobs.Moves
import SafeSend.Lib.Run
/-!
# Every ready job can be claimed

The queue on its own, under any sequence of its operations.  A claimed job is a copy of its row, and `fail` decides on
the copy; the sweep requeues what its reconciler calls safe without a look at the ceiling.
-/
namespace SafeSend
namespace Queue

open Lib

/-- The queue, and every claim it handed out. -/
structure QueueState where
  now : Nat := 0
  jobs : Jobs := .empty
  handed : List ClaimedJob := []

inductive QueueOp
  | tick (elapsed : Nat)
  | enqueue (a : EnqueueArgs)
  | claim (limit : Nat) (locked : Nat → Bool) (l : Lease)
  | succeed (job : ClaimedJob) (worker : String)
  | fail (job : ClaimedJob) (worker : String) (errorClass : ErrorClass) (detail : String) (retryAfter : Option Seconds)
    (draw : Draw)
  /-- The sweep's transaction; `outcome` is what the reconciler of each stale job's kind answers, if there is one. -/
  | sweep (limit : Nat) (locked : Nat → Bool) (outcome : ClaimedJob → Option ReconcileOutcome)
  | operatorRetry (id : Nat)

/-- What the sweep decides for each stale job. -/
def sweepDecisions (stale : List ClaimedJob) (outcome : ClaimedJob → Option ReconcileOutcome) :
    List (ClaimedJob × Recovery) := stale.map fun job => (job, recover job (outcome job))

namespace QueueState

/-- A statement that raises leaves the queue as it was. -/
def step (settings : Settings) (s : QueueState) : QueueOp → Option QueueState
  | .tick elapsed => some { s with now := s.now + elapsed }
  | .enqueue a => if a.maxAttempts = some 0 then none else some { s with jobs := (Queue.enqueue settings s.now s.jobs a).2 }
  | .claim limit locked l =>
    let (claimed, jobs) := Queue.claim s.now limit locked l s.jobs
    some { s with jobs := jobs, handed := claimed ++ s.handed }
  | .succeed job worker =>
    if job ∈ s.handed then some { s with jobs := (Queue.succeed s.now s.jobs job.id worker).2 } else none
  | .fail job worker errorClass detail retryAfter draw =>
    if job ∈ s.handed then
      some { s with
        jobs := ((Queue.fail s.now s.jobs job worker errorClass detail retryAfter draw).map Prod.snd).getD s.jobs }
    else none
  | .sweep limit locked outcome =>
    some { s with
      jobs := applyRecoveries s.now s.jobs (sweepDecisions (selectStale s.now limit locked s.jobs) outcome) }
  | .operatorRetry id => some { s with jobs := ((Queue.operatorRetry s.now s.jobs id).map Prod.snd).getD s.jobs }

end QueueState

def queue (settings : Settings) : Machine QueueState QueueOp where
  init := {}
  step := QueueState.step settings

/-- A ready job is below its ceiling: once due, and its partition free, the claim accepts it. -/
def Claimable (jobs : Jobs) : Prop :=
  ∀ n j, jobs.get n = some j → j.state = .ready → j.attempts < j.maxAttempts ∧
    ∀ now, j.runAt ≤ now → partitionBusy jobs j.partitionKey = false → eligible now jobs j = true

/-! ## The operations that keep the ceiling -/

def exhausted (j : JobRow) : Bool := decide (j.maxAttempts ≤ j.attempts)

/-- The sweep calls no job safe to dispatch that is on its last attempt, and no failure of an earlier claim is retried
on a row that a later claim under the same name has on its last. -/
def keepsCeiling (s : QueueState) : QueueOp → Bool
  | .sweep limit locked outcome =>
    (selectStale s.now limit locked s.jobs).all fun job =>
      policyFor job.kind == .retry || outcome job != some .safeToDispatch || decide (job.attempts < job.maxAttempts)
  | .fail job worker errorClass _ _ _ =>
    errorClass != .transient || decide (job.maxAttempts ≤ job.attempts) ||
      (s.jobs.get job.id).all fun j => !ownedBy worker j || !exhausted j || j.attempts == job.attempts
  | _ => true

/-- Ready rows are below the ceiling, and a claim's row has not fallen below the claim's. -/
structure Bounded (s : QueueState) : Prop where
  ready : ∀ n j, s.jobs.get n = some j → j.state = .ready → j.attempts < j.maxAttempts
  handed : ∀ job ∈ s.handed, ∃ j, s.jobs.get job.id = some j ∧ job.maxAttempts ≤ j.maxAttempts

variable {settings : Settings} {s t : QueueState} {jobs jobs' : Jobs}

/-- No row is lost, and no ceiling lowered. -/
def Raises (jobs jobs' : Jobs) : Prop :=
  ∀ n j, jobs.get n = some j → ∃ j', jobs'.get n = some j' ∧ j.maxAttempts ≤ j'.maxAttempts

/-- What becomes ready is below its ceiling. -/
def Readies (jobs jobs' : Jobs) : Prop :=
  ∀ n j', jobs'.get n = some j' → j'.state = .ready → jobs.get n = some j' ∨ j'.attempts < j'.maxAttempts

theorem Bounded.change (h : Bounded s) (hr : Readies s.jobs jobs) (hc : Raises s.jobs jobs) :
    Bounded { s with jobs := jobs } where
  ready n j hj hs := (hr n j hj hs).elim (fun hold => h.ready n j hold hs) id
  handed job hjob := by
    obtain ⟨j, hj, hle⟩ := h.handed job hjob
    obtain ⟨j', hj', hle'⟩ := hc _ j hj
    exact ⟨j', hj', hle.trans hle'⟩

theorem raises_updateWhere {id : Nat} {p : JobRow → Bool} {f : JobRow → JobRow}
    (hf : ∀ j, j.maxAttempts ≤ (f j).maxAttempts) : Raises jobs (jobs.updateWhere id p f) := by
  intro n j hj
  rcases jobs.get_updateWhere_cases id p f n with hs | ⟨rfl, i, hi, -, hs⟩
  · exact ⟨j, hs.trans hj, Nat.le_refl _⟩
  · obtain rfl := Option.some.inj (hj.symm.trans hi)
    exact ⟨f j, hs, hf j⟩

theorem readies_updateWhere {id : Nat} {p : JobRow → Bool} {f : JobRow → JobRow}
    (hf : ∀ j, jobs.get id = some j → p j = true → (f j).state = .ready → (f j).attempts < (f j).maxAttempts) :
    Readies jobs (jobs.updateWhere id p f) := by
  intro n j' hj' hs'
  rcases jobs.get_updateWhere_cases id p f n with hs | ⟨rfl, i, hi, hp, hs⟩
  · exact .inl (hs ▸ hj')
  · obtain rfl := Option.some.inj (hs.symm.trans hj')
    exact .inr (hf i hi hp hs')

theorem Bounded.enqueue (h : Bounded s) {a : EnqueueArgs} (ha : a.maxAttempts ≠ some 0) :
    Bounded { s with jobs := (Queue.enqueue settings s.now s.jobs a).2 } := by
  have hpos : 0 < a.maxAttempts.getD settings.maxAttempts := by
    cases hm : a.maxAttempts with
    | none => exact settings.maxAttempts_pos
    | some m =>
      rw [hm, ne_eq, Option.some.injEq] at ha
      exact Nat.pos_of_ne_zero ha
  refine h.change (fun n j' hj' _ => ?_) fun n j hj => ?_
  · rcases enqueue_get settings s.now s.jobs a n with hs | ⟨-, -, hs⟩
    · exact .inl (hs ▸ hj')
    · obtain rfl := Option.some.inj (hs.symm.trans hj')
      exact .inr hpos
  · rcases enqueue_get settings s.now s.jobs a n with hs | ⟨-, hn, -⟩
    · exact ⟨j, hs.trans hj, Nat.le_refl _⟩
    · rw [hn] at hj; cases hj

theorem Bounded.claim (h : Bounded s) (limit : Nat) (locked : Nat → Bool) (l : Lease) :
    Bounded { s with
      jobs := (Queue.claim s.now limit locked l s.jobs).2
      handed := (Queue.claim s.now limit locked l s.jobs).1 ++ s.handed } := by
  have hjobs : Bounded { s with jobs := (Queue.claim s.now limit locked l s.jobs).2 } := by
    refine h.change (fun n j' hj' hs' => ?_) fun n j hj => ?_
    · by_cases hn : n ∈ claimIds s.now limit locked s.jobs
      · obtain ⟨j, -, -, hc⟩ := claim_get_of_mem (l := l) hn
        obtain rfl := Option.some.inj (hc.symm.trans hj')
        cases hs'
      · exact .inl (claim_get_of_not_mem hn ▸ hj')
    · by_cases hn : n ∈ claimIds s.now limit locked s.jobs
      · obtain ⟨i, hi, -, hc⟩ := claim_get_of_mem (l := l) hn
        obtain rfl := Option.some.inj (hj.symm.trans hi)
        exact ⟨_, hc, Nat.le_refl _⟩
      · exact ⟨j, (claim_get_of_not_mem hn).trans hj, Nat.le_refl _⟩
  refine ⟨hjobs.ready, fun job hjob => ?_⟩
  rcases List.mem_append.1 hjob with hnew | hold
  · obtain ⟨-, j, -, -, hc, he⟩ := mem_claim hnew
    exact ⟨_, hc, by rw [he]; exact Nat.le_refl _⟩
  · exact hjobs.handed job hold

theorem Bounded.succeed (h : Bounded s) (id : Nat) (worker : String) :
    Bounded { s with jobs := (Queue.succeed s.now s.jobs id worker).2 } :=
  h.change (readies_updateWhere fun _ _ _ hs => nomatch hs) (raises_updateWhere fun _ => Nat.le_refl _)

/-- A failure that is retried has, by its own claim, an attempt left. -/
theorem Bounded.fail (h : Bounded s) {job : ClaimedJob} {worker : String} {errorClass : ErrorClass} {detail : String}
    {retryAfter : Option Seconds} {draw : Draw} (hjob : job ∈ s.handed)
    (hok : keepsCeiling s (.fail job worker errorClass detail retryAfter draw) = true) :
    Bounded { s with
      jobs := ((Queue.fail s.now s.jobs job worker errorClass detail retryAfter draw).map Prod.snd).getD s.jobs } := by
  cases hf : Queue.fail s.now s.jobs job worker errorClass detail retryAfter draw with
  | none => exact h
  | some out =>
    obtain ⟨out, jobs'⟩ := out
    simp only [Option.map_some, Option.getD_some]
    rcases fail_cases hf with ⟨-, state, hstate, rfl⟩ | ⟨hclass, hleft, wait, delay, rfl⟩
    · refine h.change (readies_updateWhere fun _ _ _ hs => ?_) (raises_updateWhere fun _ => Nat.le_refl _)
      rcases hstate with rfl | rfl <;> cases hs
    · refine h.change (readies_updateWhere fun j hj hown _ => ?_) (raises_updateWhere fun _ => Nat.le_refl _)
      obtain ⟨j₀, hj₀, hle⟩ := h.handed job hjob
      obtain rfl := Option.some.inj (hj.symm.trans hj₀)
      simp only [keepsCeiling, hclass, bne_self_eq_false, Nat.not_le.2 hleft, decide_false, Bool.or_self, hj,
        Option.all_some, hown, Bool.not_true, Bool.false_or, Bool.or_eq_true, Bool.not_eq_true', beq_iff_eq, exhausted,
        decide_eq_false_iff_not, Nat.not_le] at hok
      rcases hok with hok | hok
      · exact hok
      · show j.attempts < j.maxAttempts
        omega

/-- A stale job the sweep requeues has an attempt left. -/
theorem Bounded.sweep (h : Bounded s) {limit : Nat} {locked : Nat → Bool} {outcome : ClaimedJob → Option ReconcileOutcome}
    (hok : keepsCeiling s (.sweep limit locked outcome) = true) :
    Bounded { s with
      jobs := applyRecoveries s.now s.jobs (sweepDecisions (selectStale s.now limit locked s.jobs) outcome) } := by
  refine h.change (fun n j' hj' hs' => ?_) fun n j hj => ?_
  · rcases applyRecoveries_get s.now (sweepDecisions (selectStale s.now limit locked s.jobs) outcome) s.jobs n with
      ⟨hs, -⟩ | ⟨d, hd, rfl, j, hj, hrun, hs⟩
    · exact .inl (hs ▸ hj')
    · obtain rfl := Option.some.inj (hs.symm.trans hj')
      refine .inr ?_
      unfold sweepDecisions at hd
      rw [List.mem_map] at hd
      obtain ⟨job, hjob, rfl⟩ := hd
      obtain ⟨i, hi, -, he⟩ := mem_selectStale hjob
      obtain rfl := Option.some.inj (hj.symm.trans hi)
      have hkeep := List.all_eq_true.1 hok job hjob
      -- The row's own attempts and ceiling, as the sweep was handed them.
      have ha : job.attempts = j.attempts := by rw [he]; rfl
      have hm : job.maxAttempts = j.maxAttempts := by rw [he]; rfl
      have hre : recover job (outcome job) = .requeue := by
        cases hr : recover job (outcome job) with
        | requeue => rfl
        | park | resolve => rw [hr] at hs'; cases hs'
      simp only [hre, Recovery.row, requeueRow]
      unfold recover at hre
      split at hre
      · split at hre
        · cases hre
        · omega
      · rename_i hpol
        split at hre
        · cases hre
        · rename_i hout
          simp only [hpol, hout, bne_self_eq_false, Bool.or_false, decide_eq_true_eq, Bool.or_eq_true,
            beq_iff_eq, reduceCtorEq, false_or] at hkeep
          omega
        · cases hre
        · cases hre
  · rcases applyRecoveries_get s.now (sweepDecisions (selectStale s.now limit locked s.jobs) outcome) s.jobs n with
      ⟨hs, -⟩ | ⟨d, -, -, i, hi, -, hs⟩
    · exact ⟨j, hs.trans hj, Nat.le_refl _⟩
    · obtain rfl := Option.some.inj (hj.symm.trans hi)
      exact ⟨_, hs, by cases d.2 <;> exact Nat.le_refl _⟩

/-- An operator's retry raises the ceiling above the attempts made. -/
theorem Bounded.operatorRetry (h : Bounded s) (id : Nat) :
    Bounded { s with jobs := ((Queue.operatorRetry s.now s.jobs id).map Prod.snd).getD s.jobs } := by
  cases hr : Queue.operatorRetry s.now s.jobs id with
  | none => exact h
  | some out =>
    unfold Queue.operatorRetry at hr
    simp only at hr
    split at hr
    · cases hr
    · obtain rfl := Option.some.inj hr
      exact h.change
        (readies_updateWhere fun j _ _ _ => Nat.lt_of_lt_of_le (Nat.lt_succ_self j.attempts) (Nat.le_max_right _ _))
        (raises_updateWhere fun _ => Nat.le_max_left _ _)

theorem Bounded.step {o : QueueOp} (h : Bounded s) (hok : keepsCeiling s o = true)
    (hs : QueueState.step settings s o = some t) : Bounded t := by
  cases o with
  | tick elapsed =>
    obtain rfl := Option.some.inj hs
    exact ⟨h.ready, h.handed⟩
  | enqueue a =>
    simp only [QueueState.step] at hs
    split at hs
    · cases hs
    · rename_i ha
      obtain rfl := Option.some.inj hs
      exact h.enqueue ha
  | claim limit locked l =>
    obtain rfl := Option.some.inj hs
    exact h.claim limit locked l
  | succeed job worker =>
    simp only [QueueState.step] at hs
    split at hs
    · obtain rfl := Option.some.inj hs
      exact h.succeed job.id worker
    · cases hs
  | fail job worker errorClass detail retryAfter draw =>
    simp only [QueueState.step] at hs
    split at hs
    · rename_i hjob
      obtain rfl := Option.some.inj hs
      exact h.fail hjob hok
    · cases hs
  | sweep limit locked outcome =>
    obtain rfl := Option.some.inj hs
    exact h.sweep hok
  | operatorRetry id =>
    obtain rfl := Option.some.inj hs
    exact h.operatorRetry id

/-- **Every ready job can be claimed** in any state of a run that keeps the ceiling. -/
theorem ready_claimable (h : (queue settings).Reach (fun s o => keepsCeiling s o = true) s) : Claimable s.jobs := by
  have hb : Bounded s :=
    Machine.Reach.inv ⟨fun _ _ hj => (nomatch hj), fun _ hj => (nomatch hj)⟩ (fun _ _ _ _ hi hok hs => hi.step hok hs) h
  intro n j hj hs
  have hlt := hb.ready n j hj hs
  exact ⟨hlt, fun now hdue hfree => eligible_iff.2 ⟨hs, hdue, hlt, hfree⟩⟩

/-- A send's job, claimed and orphaned on the first of its `attempts`, and called safe to dispatch by the sweep. -/
def orphaned (attempts : Nat) : List QueueOp := [
  .enqueue { kind := .send, refId := 0, maxAttempts := some attempts },
  .claim 5 (fun _ => false) ⟨"host:1", 90, 300⟩,
  .tick 300000001,
  .sweep 20 (fun _ => false) fun _ => some .safeToDispatch]

theorem ready_claimable_orphaned :
    ∃ s, (queue {}).exec {} (orphaned 2) = some s ∧ (s.jobs.any fun _ j => j.state == .ready) ∧ Claimable s.jobs := by
  have hrun : ((queue {}).exec {} (orphaned 2)).any (fun s =>
      (s.jobs.any fun _ j => j.state == .ready) && (queue {}).allowed keepsCeiling {} (orphaned 2)) = true := by
    decide +kernel
  rw [Option.any_eq_true] at hrun
  obtain ⟨s, hs, hp⟩ := hrun
  rw [Bool.and_eq_true] at hp
  exact ⟨s, hs, hp.1, ready_claimable (Machine.Steps.of_exec (fun _ _ h => h) hs hp.2)⟩

/-- Orphaned on its last attempt, the job is ready and no claim will take it. -/
theorem orphaned_unclaimable : ¬ ∀ s, (queue {}).Reach (fun _ _ => True) s → Claimable s.jobs := by
  intro hclaim
  have hrun : ((queue {}).exec (queue {}).init (orphaned 1)).any (fun s =>
      s.jobs.any fun _ j => j.state == .ready && exhausted j) = true := by decide +kernel
  obtain ⟨s, -, hreach, hp⟩ := Machine.reach_of_exec hrun
  obtain ⟨n, j, hj, hp⟩ := Table.any_eq_true.1 hp
  simp only [Bool.and_eq_true, beq_iff_eq, exhausted, decide_eq_true_eq] at hp
  have hlt := (hclaim s hreach n j hj hp.1).1
  omega

end Queue
end SafeSend
