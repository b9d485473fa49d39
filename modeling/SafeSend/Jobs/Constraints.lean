import SafeSend.Jobs.Claimable
/-!
# The constraints of the jobs table

Two checks on each row and two partial unique indexes, which a row enters and leaves as its state changes.  A statement
that would break one is refused and its transaction rolled back.
-/
namespace SafeSend
namespace Queue

open Lib

/-- The key under which `jobs_running_partition_uniq` covers a row. -/
def JobRow.runningPartition (j : JobRow) : Option String := if j.state = .running then j.partitionKey else none

/-- The key under which `jobs_dedupe_idx` covers a row. -/
def JobRow.liveKey (j : JobRow) : Option String := if j.live then j.dedupeKey else none

/-- `jobs_attempts_bounded`. -/
def JobRow.attemptsBounded (j : JobRow) : Bool := decide (j.attempts ≤ j.maxAttempts)

/-- `jobs_lease_consistent`. -/
def JobRow.leaseConsistent (j : JobRow) : Bool :=
  (j.state == .running) == (j.claimedAt.isSome && j.leaseExpiresAt.isSome)

structure Valid (jobs : Jobs) : Prop where
  bounded : ∀ r ∈ jobs.rows, r.2.attemptsBounded = true
  lease : ∀ r ∈ jobs.rows, r.2.leaseConsistent = true
  partition : jobs.UniqueOn JobRow.runningPartition
  dedupe : jobs.UniqueOn JobRow.liveKey

instance (jobs : Jobs) : Decidable (Valid jobs) :=
  decidable_of_iff ((∀ r ∈ jobs.rows, r.2.attemptsBounded = true) ∧ (∀ r ∈ jobs.rows, r.2.leaseConsistent = true) ∧
      jobs.UniqueOn JobRow.runningPartition ∧ jobs.UniqueOn JobRow.liveKey)
    ⟨fun ⟨h1, h2, h3, h4⟩ => ⟨h1, h2, h3, h4⟩, fun ⟨h1, h2, h3, h4⟩ => ⟨h1, h2, h3, h4⟩⟩

inductive Statement
  | enqueue (a : EnqueueArgs)
  | claim (limit : Nat) (locked : Nat → Bool) (l : Lease)
  | succeed (id : Nat) (worker : String)
  | fail (job : ClaimedJob) (worker : String) (errorClass : ErrorClass) (detail : String) (retryAfter : Option Seconds)
    (draw : Draw)
  | requeue (id : Nat)
  | park (id : Nat) (detail : String)
  | resolve (id : Nat)
  | operatorRetry (id extraAttempts : Nat)

/-- What the statement would leave, were nothing to refuse it. -/
def Statement.writes (settings : Settings) (now : Nat) (jobs : Jobs) : Statement → Jobs
  | enqueue a => (Queue.enqueue settings now jobs a).2
  | claim limit locked l => (Queue.claim now limit locked l jobs).2
  | succeed id worker => (Queue.succeed now jobs id worker).2
  | fail job worker errorClass detail retryAfter draw =>
    ((Queue.fail now jobs job worker errorClass detail retryAfter draw).map Prod.snd).getD jobs
  | requeue id => (Queue.requeue now jobs id).2
  | park id detail => (Queue.park now jobs id detail).2
  | resolve id => (Queue.resolve now jobs id).2
  | operatorRetry id extraAttempts => jobs.updateWhere id resumable (resumeRow now extraAttempts)

/-- A ceiling is at least one attempt, and so is a grant. -/
def Statement.sound : Statement → Bool
  | enqueue a => a.maxAttempts != some 0
  | operatorRetry _ extraAttempts => decide (1 ≤ extraAttempts)
  | _ => true

/-- The job could be resumed, and another of its dedupe key is live. -/
def keyTaken (jobs : Jobs) (id : Nat) : Bool := (jobs.get id).any fun j => resumable j && duplicate jobs j.dedupeKey

def Statement.resumesDuplicate (jobs : Jobs) : Statement → Bool
  | operatorRetry id _ => keyTaken jobs id
  | _ => false

variable {settings : Settings} {now : Nat} {jobs : Jobs}

theorem Valid.row (h : Valid jobs) {n : Nat} {j : JobRow} (hj : jobs.get n = some j) :
    j.attempts ≤ j.maxAttempts ∧ (j.state = .running ↔ j.claimedAt.isSome ∧ j.leaseExpiresAt.isSome) := by
  have hb := h.bounded _ (Table.mem_rows.2 hj)
  have hl := h.lease _ (Table.mem_rows.2 hj)
  simp only [JobRow.attemptsBounded, decide_eq_true_eq] at hb
  simp only [JobRow.leaseConsistent, beq_iff_eq] at hl
  refine ⟨hb, ?_⟩
  rw [← Bool.and_eq_true, ← hl, beq_iff_eq]

/-- Rows within their checks, under indexes that hold. -/
theorem Valid.of_rows
    (hrow : ∀ n j, jobs.get n = some j →
      j.attempts ≤ j.maxAttempts ∧ (j.state = .running ↔ j.claimedAt.isSome ∧ j.leaseExpiresAt.isSome))
    (hp : jobs.UniqueOn JobRow.runningPartition) (hd : jobs.UniqueOn JobRow.liveKey) : Valid jobs where
  bounded r hr := by
    simp only [JobRow.attemptsBounded, decide_eq_true_eq]
    exact (hrow r.1 r.2 (Table.mem_rows.1 hr)).1
  lease r hr := by
    have hl := (hrow r.1 r.2 (Table.mem_rows.1 hr)).2
    rw [← Bool.and_eq_true, ← beq_iff_eq (a := r.2.state)] at hl
    simp only [JobRow.leaseConsistent, beq_iff_eq]
    exact Bool.eq_iff_iff.2 hl
  partition := hp
  dedupe := hd

@[simp] theorem runningPartition_of_ne {j : JobRow} (h : j.state ≠ .running) : j.runningPartition = none := if_neg h

theorem liveKey_of_live {j : JobRow} (h : j.live = true) : j.liveKey = j.dedupeKey := if_pos h

theorem liveKey_of_not_live {j : JobRow} (h : j.live = false) : j.liveKey = none := by simp [JobRow.liveKey, h]

theorem live_of_running {j : JobRow} (h : j.state = .running) : j.live = true := by simp [JobRow.live, h]

/-- **A row taken out of its running state** leaves one index and stays under its key of the other, or leaves both. -/
theorem Valid.stops (h : Valid jobs) {id : Nat} {p : JobRow → Bool} {f : JobRow → JobRow}
    (hp : ∀ j, p j = true → j.state = .running)
    (hf : ∀ j, (f j).state ≠ .running ∧ (f j).leaseExpiresAt = none ∧ (f j).attempts = j.attempts ∧
      (f j).maxAttempts = j.maxAttempts ∧ (f j).dedupeKey = j.dedupeKey) :
    Valid (jobs.updateWhere id p f) := by
  refine .of_rows (fun n j hj => ?_) (h.partition.updateWhere fun j _ _ => ?_) (h.dedupe.updateWhere fun j _ hpj => ?_)
  · rcases jobs.get_updateWhere_cases id p f n with hs | ⟨-, i, hi, -, hs⟩
    · exact h.row (hs ▸ hj)
    · rw [hs, Option.some.injEq] at hj
      subst hj
      obtain ⟨hne, hlease, ha, hm, -⟩ := hf i
      refine ⟨by rw [ha, hm]; exact (h.row hi).1, fun hr => absurd hr hne, fun hc => ?_⟩
      rw [hlease] at hc
      cases hc.2
  · exact .inl (runningPartition_of_ne (hf j).1)
  · by_cases hlive : (f j).live = true
    · rw [liveKey_of_live hlive, liveKey_of_live (live_of_running (hp j hpj))]
      exact .inr (hf j).2.2.2.2
    · exact .inl (liveKey_of_not_live (Bool.eq_false_iff.2 hlive))

theorem Valid.exclusive (h : Valid jobs) : Exclusive jobs := by
  intro m n i j p hi hj his hjs hip hjp
  refine Table.uniqueOn_iff.1 h.partition m n i j p hi hj ?_ ?_
  · rw [JobRow.runningPartition, if_pos his, hip]
  · rw [JobRow.runningPartition, if_pos hjs, hjp]

theorem duplicate_eq_false {key : Option String} (h : duplicate jobs key = false) {k : String} (hk : key = some k)
    {n : Nat} {j : JobRow} (hj : jobs.get n = some j) : j.liveKey ≠ some k := by
  subst hk
  intro hkey
  simp only [duplicate, Option.isSome_some, Bool.true_and] at h
  have hrow := Table.any_eq_false.1 h n j hj
  by_cases hlive : j.live = true
  · rw [liveKey_of_live hlive] at hkey
    rw [hkey, hlive, beq_self_eq_true, Bool.and_self] at hrow
    cases hrow
  · rw [liveKey_of_not_live (Bool.eq_false_iff.2 hlive)] at hkey
    cases hkey

theorem Valid.enqueue (h : Valid jobs) (a : EnqueueArgs) : Valid (Queue.enqueue settings now jobs a).2 := by
  unfold Queue.enqueue
  split
  · exact h
  · rename_i hdup
    refine .of_rows (fun n j hj => ?_) (h.partition.insert fun k hk => ?_) (h.dedupe.insert fun k hk n j hj => ?_)
    · rcases Table.get_insert_cases hj with ⟨-, rfl⟩ | ⟨-, hj⟩
      · exact ⟨Nat.zero_le _, by simp [newRow]⟩
      · exact h.row hj
    · simp [newRow] at hk
    · rw [liveKey_of_live (by simp [JobRow.live, newRow])] at hk
      exact duplicate_eq_false (Bool.eq_false_iff.2 hdup) hk hj

/-- Rows about to be set running: ready, below their ceilings, in free partitions and in one each. -/
structure Claimed (jobs : Jobs) (ids : List Nat) : Prop where
  ready : ∀ n ∈ ids, ∀ j, jobs.get n = some j → j.state = .ready ∧ j.attempts < j.maxAttempts
  free : ∀ n ∈ ids, ∀ j p, jobs.get n = some j → j.partitionKey = some p → ∀ m i, jobs.get m = some i →
    i.state = .running → i.partitionKey ≠ some p
  apart : ∀ m ∈ ids, ∀ n ∈ ids, ∀ i j p, jobs.get m = some i → jobs.get n = some j → i.partitionKey = some p →
    j.partitionKey = some p → m = n

/-- **Such rows can be set running.** -/
theorem Valid.runAll (h : Valid jobs) {ids : List Nat} (hc : Claimed jobs ids) (now : Nat) (l : Lease) :
    Valid (jobs.updateAll (fun n => ids.contains n) (claimRow now l)) := by
  have source (n : Nat) (j : JobRow) (hj : (jobs.updateAll (fun n => ids.contains n) (claimRow now l)).get n = some j) :
      jobs.get n = some j ∨ n ∈ ids ∧ ∃ i, jobs.get n = some i ∧ j = claimRow now l i := by
    rw [Table.get_updateAll] at hj
    split at hj
    · rename_i hn
      obtain ⟨i, hi, he⟩ := Option.map_eq_some_iff.1 hj
      exact .inr ⟨List.contains_iff_mem.1 hn, i, hi, he.symm⟩
    · exact .inl hj
  have runs {p : String} {j : JobRow} (hp : j.runningPartition = some p) : j.state = .running ∧ j.partitionKey = some p := by
    unfold JobRow.runningPartition at hp
    split at hp
    · rename_i hr
      exact ⟨hr, hp⟩
    · cases hp
  refine .of_rows (fun n j hj => ?_) (Table.uniqueOn_iff.2 fun m n i j p hi hj hip hjp => ?_)
    (Table.uniqueOn_iff.2 fun m n i j k hi hj hik hjk => ?_)
  · rcases source n j hj with hj | ⟨hn, i, hi, rfl⟩
    · exact h.row hj
    · exact ⟨(hc.ready n hn i hi).2, by simp [claimRow]⟩
  · obtain ⟨his, hip⟩ := runs hip
    obtain ⟨hjs, hjp⟩ := runs hjp
    rcases source m i hi with hi | ⟨hm, i₀, hi₀, rfl⟩ <;> rcases source n j hj with hj | ⟨hn, j₀, hj₀, rfl⟩
    · exact h.exclusive m n i j p hi hj his hjs hip hjp
    · exact absurd hip (hc.free n hn j₀ p hj₀ hjp m i hi his)
    · exact absurd hjp (hc.free m hm i₀ p hi₀ hip n j hj hjs)
    · exact hc.apart m hm n hn i₀ j₀ p hi₀ hj₀ hip hjp
  · -- A claim moves a row from one live state to the other.
    have before {n : Nat} {j : JobRow}
        (hj : (jobs.updateAll (fun n => ids.contains n) (claimRow now l)).get n = some j) (hk : j.liveKey = some k) :
        ∃ i, jobs.get n = some i ∧ i.liveKey = some k := by
      rcases source n j hj with hj | ⟨hn, i, hi, rfl⟩
      · exact ⟨j, hj, hk⟩
      · rw [liveKey_of_live (by simp [JobRow.live, claimRow])] at hk
        refine ⟨i, hi, ?_⟩
        rw [liveKey_of_live (by simp [JobRow.live, (hc.ready n hn i hi).1]), ← hk]
        rfl
    obtain ⟨i', hi', hik'⟩ := before hi hik
    obtain ⟨j', hj', hjk'⟩ := before hj hjk
    exact Table.uniqueOn_iff.1 h.dedupe m n i' j' k hi' hj' hik' hjk'

theorem claimed_claimIds (limit : Nat) (locked : Nat → Bool) : Claimed jobs (claimIds now limit locked jobs) where
  ready n hn j hj := by
    obtain ⟨i, hi, he⟩ := mem_claimIds hn
    obtain rfl : j = i := Option.some.inj (hj.symm.trans hi)
    exact ⟨(eligible_iff.1 he).1, (eligible_iff.1 he).2.2.1⟩
  free n hn j p hj hp m i hi hr := by
    obtain ⟨j', hj', he⟩ := mem_claimIds hn
    obtain rfl : j = j' := Option.some.inj (hj.symm.trans hj')
    have hbusy := (eligible_iff.1 he).2.2.2
    rw [hp] at hbusy
    exact partitionBusy_eq_false hbusy hi hr
  apart m hm n hn i j p hi hj hip hjp := claimIds_partition hm hn hi hj hip hjp

theorem Valid.claim (h : Valid jobs) (limit : Nat) (locked : Nat → Bool) (l : Lease) :
    Valid (Queue.claim now limit locked l jobs).2 := h.runAll (claimed_claimIds limit locked) now l

theorem Valid.fail (h : Valid jobs) (job : ClaimedJob) (worker : String) (errorClass : ErrorClass) (detail : String)
    (retryAfter : Option Seconds) (draw : Draw) :
    Valid (((Queue.fail now jobs job worker errorClass detail retryAfter draw).map Prod.snd).getD jobs) := by
  cases hf : Queue.fail now jobs job worker errorClass detail retryAfter draw with
  | none => exact h
  | some out =>
    rw [Option.map_some, Option.getD_some]
    rcases fail_cases hf with ⟨-, state, hstate, he⟩ | ⟨-, -, wait, delay, he⟩
    · rw [he]
      refine h.stops (fun j hj => (ownedBy_iff.1 hj).1) fun j => ⟨?_, rfl, rfl, rfl, rfl⟩
      rcases hstate with rfl | rfl <;> simp [terminalRow]
    · rw [he]
      exact h.stops (fun j hj => (ownedBy_iff.1 hj).1) fun j => ⟨by simp [retryRow], rfl, rfl, rfl, rfl⟩

/-- **A resumption is refused exactly where its dedupe key is taken.** -/
theorem valid_resume_iff (h : Valid jobs) (id grant : Nat) :
    Valid (jobs.updateWhere id resumable (resumeRow now grant)) ↔
      keyTaken jobs id = false := by
  have idle {j : JobRow} (hr : resumable j = true) : j.live = false := by
    simp only [resumable, Bool.or_eq_true, beq_iff_eq] at hr
    rcases hr with hr | hr <;> simp [JobRow.live, hr]
  have resumed (j : JobRow) : (resumeRow now grant j).liveKey = j.dedupeKey := liveKey_of_live (by
    simp [JobRow.live, resumeRow])
  unfold keyTaken
  constructor
  · intro hv
    cases hj : jobs.get id with
    | none => rfl
    | some j =>
      rw [Option.any_some]
      by_contra hdup
      rw [Bool.not_eq_false, Bool.and_eq_true] at hdup
      obtain ⟨hr, hdup⟩ := hdup
      unfold duplicate at hdup
      rw [Bool.and_eq_true] at hdup
      obtain ⟨k, hk⟩ := Option.isSome_iff_exists.1 hdup.1
      obtain ⟨n, i, hi, hik⟩ := Table.any_eq_true.1 hdup.2
      rw [Bool.and_eq_true, beq_iff_eq] at hik
      have hne : n ≠ id := by
        rintro rfl
        rw [hj, Option.some.injEq] at hi
        rw [← hi, idle hr] at hik
        cases hik.2
      refine hne (Table.uniqueOn_iff.1 hv.dedupe n id i (resumeRow now grant j) k ?_ ?_ ?_ ?_)
      · rw [Table.get_updateWhere_of_ne _ _ _ hne, hi]
      · exact Table.get_updateWhere_hit _ hj hr
      · rw [liveKey_of_live hik.2, hik.1, hk]
      · rw [resumed, hk]
  · intro hfree
    refine .of_rows (fun n j hj => ?_) (h.partition.updateWhere fun j _ _ => .inl (by simp [resumeRow])) ?_
    · rcases jobs.get_updateWhere_cases id resumable (resumeRow now grant) n with hs | ⟨-, i, hi, -, hs⟩
      · exact h.row (hs ▸ hj)
      · rw [hs, Option.some.injEq] at hj
        subst hj
        have hle := (h.row hi).1
        exact ⟨Nat.le_trans hle (Nat.le_max_left _ _), by simp [resumeRow]⟩
    · rw [Table.uniqueOn_iff]
      -- The row resumed is the only one of its key, the others are as they were.
      have other {n : Nat} {j i : JobRow} {k : String} (hj : jobs.get id = some j) (hr : resumable j = true)
          (hjk : j.dedupeKey = some k) (hi : jobs.get n = some i) : i.liveKey ≠ some k := by
        rw [hj, Option.any_some, hr, Bool.true_and] at hfree
        exact duplicate_eq_false hfree hjk hi
      intro m n i j k hi hj hik hjk
      rcases jobs.get_updateWhere_cases id resumable (resumeRow now grant) m with hm | ⟨hm', i₀, hi₀, hri, hm⟩ <;>
        rcases jobs.get_updateWhere_cases id resumable (resumeRow now grant) n with hn | ⟨hn', j₀, hj₀, hrj, hn⟩
      · exact Table.uniqueOn_iff.1 h.dedupe m n i j k (hm ▸ hi) (hn ▸ hj) hik hjk
      · rw [hn, Option.some.injEq] at hj
        rw [← hj, resumed] at hjk
        exact absurd hik (other (hn' ▸ hj₀) hrj hjk (hm ▸ hi))
      · rw [hm, Option.some.injEq] at hi
        rw [← hi, resumed] at hik
        exact absurd hjk (other (hm' ▸ hi₀) hri hik (hn ▸ hj))
      · rw [hm', hn']

/-! ## Runs -/

structure TableState where
  now : Nat := 0
  jobs : Jobs := .empty

inductive TableAction
  | tick (elapsed : Nat)
  | run (q : Statement)

/-- A statement the table refuses is rolled back. -/
def TableState.step (settings : Settings) (s : TableState) : TableAction → Option TableState
  | .tick elapsed => some { s with now := s.now + elapsed }
  | .run q =>
    if q.sound then
      let jobs := q.writes settings s.now s.jobs
      some (if Valid jobs then { s with jobs := jobs } else s)
    else none

def jobsTable (settings : Settings) : Machine TableState TableAction where
  init := {}
  step := TableState.step settings

theorem reach_valid {ok : TableState → TableAction → Prop} {s : TableState} (h : (jobsTable settings).Reach ok s) :
    Valid s.jobs := by
  have hempty : Valid (jobsTable settings).init.jobs := (by decide : Valid (TableState.jobs {}))
  refine Machine.Reach.inv (I := fun s => Valid s.jobs) hempty (fun t a u _ hi _ hs => ?_) h
  cases a with
  | tick elapsed =>
    obtain rfl := Option.some.inj hs
    exact hi
  | run q =>
    simp only [jobsTable, TableState.step] at hs
    split at hs
    · obtain rfl := Option.some.inj hs
      split
      · assumption
      · exact hi
    · cases hs

/-- **A queue operation hits a constraint exactly where it resumes a job whose key is live again**, in every reachable
state. -/
theorem writes_valid_iff {s : TableState} (h : (jobsTable settings).Reach (fun _ _ => True) s) (q : Statement) :
    Valid (q.writes settings s.now s.jobs) ↔ q.resumesDuplicate s.jobs = false := by
  have hv := reach_valid h
  have fine {v : Prop} (hv : v) : v ↔ false = false := ⟨fun _ => rfl, fun _ => hv⟩
  cases q with
  | enqueue a => exact fine (hv.enqueue a)
  | claim limit locked l => exact fine (hv.claim limit locked l)
  | succeed id worker =>
    exact fine (hv.stops (fun j hj => (ownedBy_iff.1 hj).1) fun j => ⟨by simp [succeedRow], rfl, rfl, rfl, rfl⟩)
  | fail job worker errorClass detail retryAfter draw => exact fine (hv.fail job worker errorClass detail retryAfter draw)
  | requeue id =>
    exact fine (hv.stops (fun j hj => running_iff.1 hj) fun j => ⟨by simp [requeueRow], rfl, rfl, rfl, rfl⟩)
  | park id detail =>
    exact fine (hv.stops (fun j hj => running_iff.1 hj) fun j => ⟨by simp [parkRow], rfl, rfl, rfl, rfl⟩)
  | resolve id =>
    exact fine (hv.stops (fun j hj => running_iff.1 hj) fun j => ⟨by simp [succeedRow], rfl, rfl, rfl, rfl⟩)
  | operatorRetry id extraAttempts => exact valid_resume_iff hv id extraAttempts

/-- An adapter run's job, claimed and failed for good: its record is left, and its key is free. -/
def failedFor : List TableAction := [
  .run (.enqueue { kind := .adapterRun, refId := 0, dedupeKey := some "adapter_run:0" }),
  .run (.claim 5 (fun _ => false) ⟨"host:1", 90, 300⟩),
  .run (.fail ⟨0, .adapterRun, 0, 1, 6, none, some "adapter_run:0", some "host:1", some 90000000, some 0⟩ "host:1"
    .permanent "no such channel" none .least)]

theorem writes_valid_resumed :
    ∃ s, (jobsTable {}).exec {} failedFor = some s ∧
      (Valid ((Statement.operatorRetry 0 1).writes {} s.now s.jobs) ↔
        (Statement.operatorRetry 0 1).resumesDuplicate s.jobs = false) ∧
      (Statement.operatorRetry 0 1).resumesDuplicate s.jobs = false := by
  have hrun : ((jobsTable {}).exec (jobsTable {}).init failedFor).any (fun s =>
      (s.jobs.get 0).any resumable && !keyTaken s.jobs 0) = true := by decide +kernel
  obtain ⟨s, hs, hreach, hp⟩ := Machine.reach_of_exec hrun
  rw [Bool.and_eq_true, Bool.not_eq_true'] at hp
  exact ⟨s, hs, writes_valid_iff hreach (.operatorRetry 0 1), hp.2⟩

/-- The run planned again under its key, and the failed job resumed beside the new one: `jobs_dedupe_idx` refuses. -/
theorem resumed_beside_live :
    ¬ ∀ s (q : Statement), (jobsTable {}).Reach (fun _ _ => True) s → q.sound = true → Valid (q.writes {} s.now s.jobs) := by
  intro hclaim
  have hrun : ((jobsTable {}).exec (jobsTable {}).init (failedFor ++
      [.run (.enqueue { kind := .adapterRun, refId := 0, dedupeKey := some "adapter_run:0" })])).any (fun s =>
        !decide (Valid ((Statement.operatorRetry 0 1).writes {} s.now s.jobs))) = true := by decide +kernel
  obtain ⟨s, -, hreach, hp⟩ := Machine.reach_of_exec hrun
  rw [Bool.not_eq_true', decide_eq_false_iff_not] at hp
  exact hp (hclaim s (.operatorRetry 0 1) hreach rfl)

end Queue
end SafeSend
