import Mathlib.Data.List.Pairwise
import SafeSend.Jobs.Recovery
/-!
# How a job's row moves

Each queue statement, row by row: what it can change in one row, and what a claim picks.
-/
namespace SafeSend
namespace Queue

open Lib

/-- What no statement changes. -/
def JobRow.work (j : JobRow) : JobKind × Nat × Option String × Option String :=
  (j.kind, j.refId, j.partitionKey, j.dedupeKey)

theorem work_inj {j j' : JobRow} (h : j'.work = j.work) :
    j'.kind = j.kind ∧ j'.refId = j.refId ∧ j'.partitionKey = j.partitionKey := by
  simp only [JobRow.work, Prod.mk.injEq] at h
  exact ⟨h.1, h.2.1, h.2.2.1⟩

/-- The moves a job's row makes: it is booked, claimed, leaves its running state, or is resumed. -/
inductive Move : Option JobRow → Option JobRow → Prop
  | same (r : Option JobRow) : Move r r
  | booked (j : JobRow) (hs : j.state = .ready) (ha : j.attempts = 0) : Move none (some j)
  | claimed (j : JobRow) (now : Nat) (l : Lease) (hs : j.state = .ready) (ha : j.attempts < j.maxAttempts) :
    Move (some j) (some (claimRow now l j))
  | left (j j' : JobRow) (hs : j.state = .running) (hs' : j'.state ≠ .running) (hw : j'.work = j.work)
      (ha : j'.attempts = j.attempts) : Move (some j) (some j')
  | resumed (j : JobRow) (now grant : Nat) (hs : resumable j = true) : Move (some j) (some (resumeRow now grant j))

/-- **No move changes what the job is about**, takes an attempt back or forgets the row. -/
theorem Move.keeps {j : JobRow} {r : Option JobRow} (h : Move (some j) r) :
    ∃ j', r = some j' ∧ j'.work = j.work ∧ j.attempts ≤ j'.attempts := by
  cases h with
  | same => exact ⟨j, rfl, rfl, Nat.le_refl _⟩
  | claimed _ now l hs ha => exact ⟨_, rfl, rfl, Nat.le_succ _⟩
  | left _ j' hs hs' hw ha => exact ⟨j', rfl, hw, Nat.le_of_eq ha.symm⟩
  | resumed _ now grant hs => exact ⟨_, rfl, rfl, Nat.le_refl _⟩

/-- A move that neither claims a row nor finishes one. -/
inductive Quiet : Option JobRow → Option JobRow → Prop
  | same (r : Option JobRow) : Quiet r r
  | booked (j : JobRow) (hs : j.state = .ready) (ha : j.attempts = 0) : Quiet none (some j)
  | resumed (j : JobRow) (now grant : Nat) (hs : resumable j = true) : Quiet (some j) (some (resumeRow now grant j))

theorem Quiet.move {r r' : Option JobRow} (h : Quiet r r') : Move r r' := by
  cases h with
  | same => exact .same _
  | booked j hs ha => exact .booked j hs ha
  | resumed j now grant hs => exact .resumed j now grant hs

/-- A quiet move leaves a running row exactly as it is. -/
theorem Quiet.running {j : JobRow} {r : Option JobRow} (h : Quiet (some j) r) (hs : j.state = .running) : r = some j := by
  cases h with
  | same => rfl
  | resumed _ now grant hr => simp [resumable, hs] at hr

theorem Quiet.running_of {j : JobRow} {r : Option JobRow} (h : Quiet r (some j)) (hs : j.state = .running) :
    r = some j := by
  cases h with
  | same => rfl
  | booked _ hb ha => rw [hb] at hs; cases hs
  | resumed _ now grant hr => cases hs

theorem Quiet.ready {j : JobRow} {r : Option JobRow} (h : Quiet (some j) r) (hs : j.state = .ready) : r = some j := by
  cases h with
  | same => rfl
  | resumed _ now grant hr => simp [resumable, hs] at hr

/-! ## Booking and resuming -/

theorem enqueue_get (settings : Settings) (now : Nat) (jobs : Jobs) (a : EnqueueArgs) (n : Nat) :
    (enqueue settings now jobs a).2.get n = jobs.get n ∨
      n = jobs.next ∧ jobs.get n = none ∧ (enqueue settings now jobs a).2.get n = some (newRow settings now a) := by
  unfold enqueue
  split
  · exact .inl rfl
  · by_cases hn : n = jobs.next
    · subst hn
      exact .inr ⟨rfl, jobs.get_next, jobs.get_insert_self _⟩
    · exact .inl (jobs.get_insert_of_ne _ hn)

theorem enqueue_quiet (settings : Settings) (now : Nat) (jobs : Jobs) (a : EnqueueArgs) (n : Nat) :
    Quiet (jobs.get n) ((enqueue settings now jobs a).2.get n) := by
  rcases enqueue_get settings now jobs a n with h | ⟨-, hn, h⟩
  · rw [h]; exact .same _
  · rw [h, hn]; exact .booked _ rfl rfl

theorem operatorRetry_quiet {now : Nat} {jobs jobs' : Jobs} {id grant : Nat} {hit : Bool}
    (h : operatorRetry now jobs id grant = some (hit, jobs')) (n : Nat) : Quiet (jobs.get n) (jobs'.get n) := by
  unfold operatorRetry at h
  simp only at h
  split at h
  · cases h
  · simp only [Option.some.injEq, Prod.mk.injEq] at h
    obtain ⟨-, rfl⟩ := h
    rcases jobs.get_updateWhere_cases id resumable (resumeRow now grant) n with hs | ⟨-, j, hj, hr, hs⟩
    · rw [hs]; exact .same _
    · rw [hs, hj]; exact .resumed j now grant hr

theorem Quiet.trans_booked {settings : Settings} {now : Nat} {jobs jobs' : Jobs} {a : EnqueueArgs} {n : Nat}
    (h : Quiet (jobs.get n) (jobs'.get n)) (hnext : jobs'.next = jobs.next) :
    Quiet (jobs.get n) ((enqueue settings now jobs' a).2.get n) := by
  rcases enqueue_get settings now jobs' a n with hs | ⟨hn, -, hs⟩
  · rw [hs]; exact h
  · rw [hs, jobs.beyond n (by omega)]; exact .booked _ rfl rfl

theorem operatorRetry_next {now : Nat} {jobs jobs' : Jobs} {id grant : Nat} {hit : Bool}
    (h : operatorRetry now jobs id grant = some (hit, jobs')) : jobs'.next = jobs.next := by
  unfold operatorRetry at h
  simp only at h
  split at h
  · cases h
  · simp only [Option.some.injEq, Prod.mk.injEq] at h
    obtain ⟨-, rfl⟩ := h
    rfl

/-! ## Claiming -/

theorem picked_sublist : ∀ l : List (Nat × JobRow), (picked l).Sublist l
  | [] => List.Sublist.refl _
  | r :: l => ((List.filter_sublist).trans (picked_sublist l)).cons_cons r

/-- **A claim picks one row of each slot.** -/
theorem picked_slots : ∀ l : List (Nat × JobRow), (picked l).Pairwise fun a b => slot a ≠ slot b
  | [] => List.Pairwise.nil
  | r :: l => by
    refine List.Pairwise.cons (fun q hq => ?_) ((picked_slots l).filter _)
    have := (List.mem_filter.1 hq).2
    simp only [bne_iff_ne, ne_eq] at this
    exact fun h => this h.symm

theorem mem_candidates {now limit : Nat} {locked : Nat → Bool} {jobs : Jobs} {n : Nat} {j : JobRow}
    (h : (n, j) ∈ candidates now limit locked jobs) : jobs.get n = some j ∧ eligible now jobs j = true := by
  unfold candidates at h
  have hm := (List.perm_insertionSort claimsBefore _).mem_iff.1 (List.mem_of_mem_take h)
  obtain ⟨hrow, hp⟩ := List.mem_filter.1 hm
  rw [Bool.and_eq_true] at hp
  exact ⟨Table.mem_rows.1 hrow, hp.1⟩

theorem mem_claimIds {now limit : Nat} {locked : Nat → Bool} {jobs : Jobs} {n : Nat}
    (h : n ∈ claimIds now limit locked jobs) : ∃ j, jobs.get n = some j ∧ eligible now jobs j = true := by
  unfold claimIds at h
  rw [List.mem_map] at h
  obtain ⟨⟨m, j⟩, hm, rfl⟩ := h
  exact ⟨j, mem_candidates ((picked_sublist _).subset hm)⟩

/-- Two claimed rows of one partition are one row. -/
theorem claimIds_partition {now limit : Nat} {locked : Nat → Bool} {jobs : Jobs} {m n : Nat} {i j : JobRow} {p : String}
    (hm : m ∈ claimIds now limit locked jobs) (hn : n ∈ claimIds now limit locked jobs) (hi : jobs.get m = some i)
    (hj : jobs.get n = some j) (hip : i.partitionKey = some p) (hjp : j.partitionKey = some p) : m = n := by
  unfold claimIds at hm hn
  rw [List.mem_map] at hm hn
  obtain ⟨⟨m', i'⟩, hm', rfl⟩ := hm
  obtain ⟨⟨n', j'⟩, hn', rfl⟩ := hn
  obtain rfl : i' = i := Option.some.inj ((mem_candidates ((picked_sublist _).subset hm')).1.symm.trans hi)
  obtain rfl : j' = j := Option.some.inj ((mem_candidates ((picked_sublist _).subset hn')).1.symm.trans hj)
  by_contra hne
  have : Std.Symm fun a b : Nat × JobRow => slot a ≠ slot b := ⟨fun _ _ h h' => h h'.symm⟩
  have hslots := (picked_slots (candidates now limit locked jobs)).forall
  exact hslots hm' hn' (fun he => hne (congrArg Prod.fst he)) (by simp [slot, hip, hjp])

theorem rows_fst_nodup (jobs : Jobs) : (jobs.rows.map Prod.fst).Nodup := by
  have hs : (jobs.rows.map Prod.fst).Pairwise (· < ·) := List.pairwise_map.2 jobs.rows_sorted
  exact hs.imp Nat.ne_of_lt

theorem claimIds_nodup (now limit : Nat) (locked : Nat → Bool) (jobs : Jobs) : (claimIds now limit locked jobs).Nodup := by
  unfold claimIds candidates
  refine List.Nodup.sublist (((picked_sublist _).trans (List.take_sublist _ _)).map _) ?_
  refine ((List.perm_insertionSort claimsBefore _).map Prod.fst).nodup_iff.2 ?_
  exact (rows_fst_nodup jobs).sublist (List.filter_sublist.map _)

variable {now limit : Nat} {locked : Nat → Bool} {l : Lease} {jobs : Jobs}

theorem claim_get (n : Nat) :
    (claim now limit locked l jobs).2.get n =
      if n ∈ claimIds now limit locked jobs then (jobs.get n).map (claimRow now l) else jobs.get n := by
  unfold claim
  simp only [Table.get_updateAll, List.contains_iff_mem]

theorem claim_get_of_not_mem {n : Nat} (hn : n ∉ claimIds now limit locked jobs) :
    (claim now limit locked l jobs).2.get n = jobs.get n := by
  rw [claim_get, if_neg hn]

/-- A claimed row was eligible, and is now running under the lease. -/
theorem claim_get_of_mem {n : Nat} (hn : n ∈ claimIds now limit locked jobs) :
    ∃ j, jobs.get n = some j ∧ eligible now jobs j = true ∧
      (claim now limit locked l jobs).2.get n = some (claimRow now l j) := by
  obtain ⟨j, hj, he⟩ := mem_claimIds hn
  exact ⟨j, hj, he, by rw [claim_get, if_pos hn, hj]; rfl⟩

theorem eligible_iff {j : JobRow} :
    eligible now jobs j = true ↔
      j.state = .ready ∧ j.runAt ≤ now ∧ j.attempts < j.maxAttempts ∧ partitionBusy jobs j.partitionKey = false := by
  simp only [eligible, Bool.and_eq_true, beq_iff_eq, decide_eq_true_eq, Bool.not_eq_true', and_assoc]

theorem partitionBusy_eq_false {p : String} (h : partitionBusy jobs (some p) = false) {n : Nat} {r : JobRow}
    (hr : jobs.get n = some r) (hs : r.state = .running) : r.partitionKey ≠ some p := by
  intro hp
  unfold partitionBusy at h
  have := Table.any_eq_false.1 h n r hr
  simp [hs, hp] at this

theorem claim_move (n : Nat) : Move (jobs.get n) ((claim now limit locked l jobs).2.get n) := by
  by_cases hn : n ∈ claimIds now limit locked jobs
  · obtain ⟨j, hj, he, hc⟩ := claim_get_of_mem (l := l) hn
    rw [hc, hj]
    exact .claimed j now l (eligible_iff.1 he).1 (eligible_iff.1 he).2.2.1
  · rw [claim_get_of_not_mem hn]
    exact .same _

/-- At most one row of a partition runs. -/
def Exclusive (jobs : Jobs) : Prop :=
  ∀ m n i j p, jobs.get m = some i → jobs.get n = some j → i.state = .running → j.state = .running →
    i.partitionKey = some p → j.partitionKey = some p → m = n

/-- **A claim runs no second row of a partition.** -/
theorem Exclusive.claim (h : Exclusive jobs) : Exclusive (claim now limit locked l jobs).2 := by
  intro m n i j p hi hj his hjs hip hjp
  by_cases hm : m ∈ claimIds now limit locked jobs <;> by_cases hn : n ∈ claimIds now limit locked jobs
  · obtain ⟨i₀, hi₀, -, hci⟩ := claim_get_of_mem (l := l) hm
    obtain ⟨j₀, hj₀, -, hcj⟩ := claim_get_of_mem (l := l) hn
    obtain rfl := Option.some.inj (hi.symm.trans hci)
    obtain rfl := Option.some.inj (hj.symm.trans hcj)
    exact claimIds_partition hm hn hi₀ hj₀ hip hjp
  · obtain ⟨i₀, hi₀, he, hci⟩ := claim_get_of_mem (l := l) hm
    obtain rfl := Option.some.inj (hi.symm.trans hci)
    rw [claim_get_of_not_mem hn] at hj
    have hbusy := (eligible_iff.1 he).2.2.2
    rw [show i₀.partitionKey = some p from hip] at hbusy
    exact absurd hjp (partitionBusy_eq_false hbusy hj hjs)
  · obtain ⟨j₀, hj₀, he, hcj⟩ := claim_get_of_mem (l := l) hn
    obtain rfl := Option.some.inj (hj.symm.trans hcj)
    rw [claim_get_of_not_mem hm] at hi
    have hbusy := (eligible_iff.1 he).2.2.2
    rw [show j₀.partitionKey = some p from hjp] at hbusy
    exact absurd hip (partitionBusy_eq_false hbusy hi his)
  · rw [claim_get_of_not_mem hm] at hi
    rw [claim_get_of_not_mem hn] at hj
    exact h m n i j p hi hj his hjs hip hjp

/-- **What a claim hands out**: the row as it stands running, under the worker's lease. -/
theorem mem_claim {job : ClaimedJob} (h : job ∈ (claim now limit locked l jobs).1) :
    job.id ∈ claimIds now limit locked jobs ∧ ∃ j, jobs.get job.id = some j ∧ eligible now jobs j = true ∧
      (claim now limit locked l jobs).2.get job.id = some (claimRow now l j) ∧
      job = ClaimedJob.fromRow job.id (claimRow now l j) := by
  unfold claim at h
  simp only [List.mem_filterMap, Option.map_eq_some_iff] at h
  obtain ⟨n, hn, r, hr, rfl⟩ := h
  refine ⟨hn, ?_⟩
  obtain ⟨j, hj, he, hc⟩ := claim_get_of_mem (l := l) hn
  obtain rfl : claimRow now l j = r := Option.some.inj (hc.symm.trans hr)
  exact ⟨j, hj, he, hc, rfl⟩

theorem handedOut_ids (jobs : Jobs) : ∀ ids : List Nat,
    ((ids.filterMap fun n => (jobs.get n).map (ClaimedJob.fromRow n)).map ClaimedJob.id).Sublist ids
  | [] => List.Sublist.refl _
  | n :: ids => by
    cases h : jobs.get n with
    | none =>
      rw [List.filterMap_cons_none (by rw [h]; rfl)]
      exact (handedOut_ids jobs ids).cons n
    | some j =>
      rw [List.filterMap_cons_some (by rw [h]; rfl), List.map_cons]
      exact (handedOut_ids jobs ids).cons_cons n

/-- A claim hands out each row once. -/
theorem claim_ids_nodup : ((claim now limit locked l jobs).1.map ClaimedJob.id).Nodup :=
  (claimIds_nodup now limit locked jobs).sublist (handedOut_ids _ _)

/-! ## Finishing -/

/-- A statement that may only take one row, while it runs, out of its running state. -/
def Finishes (id : Nat) (jobs jobs' : Jobs) : Prop :=
  ∀ n, jobs'.get n = jobs.get n ∨
    n = id ∧ ∃ j j', jobs.get n = some j ∧ jobs'.get n = some j' ∧ j.state = .running ∧ j'.state ≠ .running ∧
      j'.work = j.work ∧ j'.attempts = j.attempts

theorem Finishes.refl (id : Nat) (jobs : Jobs) : Finishes id jobs jobs := fun _ => .inl rfl

theorem Finishes.move {id : Nat} {jobs jobs' : Jobs} (h : Finishes id jobs jobs') (n : Nat) :
    Move (jobs.get n) (jobs'.get n) := by
  rcases h n with hs | ⟨-, j, j', hj, hj', hr, hr', hw, ha⟩
  · rw [hs]; exact .same _
  · rw [hj, hj']; exact .left j j' hr hr' hw ha

theorem finishes_updateWhere (jobs : Jobs) (id : Nat) {p : JobRow → Bool} {f : JobRow → JobRow}
    (hp : ∀ j, p j = true → j.state = .running)
    (hf : ∀ j, (f j).state ≠ .running ∧ (f j).work = j.work ∧ (f j).attempts = j.attempts) :
    Finishes id jobs (jobs.updateWhere id p f) := by
  intro n
  rcases jobs.get_updateWhere_cases id p f n with h | ⟨rfl, j, hj, hpj, hn⟩
  · exact .inl h
  · exact .inr ⟨rfl, j, f j, hj, hn, hp j hpj, (hf j).1, (hf j).2.1, (hf j).2.2⟩

theorem ownedBy_iff {worker : String} {j : JobRow} :
    ownedBy worker j = true ↔ j.state = .running ∧ j.claimedBy = some worker := by
  simp only [ownedBy, Bool.and_eq_true, beq_iff_eq]

theorem running_iff {j : JobRow} : running j = true ↔ j.state = .running := by
  simp only [running, beq_iff_eq]

theorem succeed_finishes (now : Nat) (jobs : Jobs) (id : Nat) (worker : String) :
    Finishes id jobs (succeed now jobs id worker).2 :=
  finishes_updateWhere jobs id (fun _ h => (ownedBy_iff.1 h).1) fun _ => ⟨by simp [succeedRow], rfl, rfl⟩

/-- What a failure leaves, by its class and the attempt it was on. -/
theorem fail_cases {now : Nat} {jobs jobs' : Jobs} {job : ClaimedJob} {worker : String} {errorClass : ErrorClass}
    {detail : String} {retryAfter : Option Seconds} {draw : Draw} {out : FailOutcome}
    (h : fail now jobs job worker errorClass detail retryAfter draw = some (out, jobs')) :
    ((errorClass ≠ .transient ∨ job.maxAttempts ≤ job.attempts) ∧ ∃ state, (state = .failed ∨ state = .parked) ∧
        jobs' = jobs.updateWhere job.id (ownedBy worker) (terminalRow now state errorClass (cap detail))) ∨
      errorClass = .transient ∧ job.attempts < job.maxAttempts ∧ ∃ wait delay,
        jobs' = jobs.updateWhere job.id (ownedBy worker) (retryRow now wait delay errorClass (cap detail)) := by
  unfold fail at h
  simp only at h
  split at h
  · rename_i hc
    simp only [Option.some.injEq, Prod.mk.injEq] at h
    exact .inl ⟨.inl hc, .failed, .inl rfl, h.2.symm⟩
  · rename_i hc
    rw [not_not] at hc
    split at h
    · rename_i ha
      simp only [Option.some.injEq, Prod.mk.injEq] at h
      exact .inl ⟨.inr ha, .parked, .inr rfl, h.2.symm⟩
    · rename_i ha
      simp only [Option.map_eq_some_iff, Prod.mk.injEq] at h
      obtain ⟨wait, -, -, hj⟩ := h
      exact .inr ⟨hc, by omega, wait, _, hj.symm⟩

theorem fail_finishes {now : Nat} {jobs jobs' : Jobs} {job : ClaimedJob} {worker : String} {errorClass : ErrorClass}
    {detail : String} {retryAfter : Option Seconds} {draw : Draw} {out : FailOutcome}
    (h : fail now jobs job worker errorClass detail retryAfter draw = some (out, jobs')) :
    Finishes job.id jobs jobs' := by
  rcases fail_cases h with ⟨-, state, hs, rfl⟩ | ⟨-, -, wait, delay, rfl⟩
  · refine finishes_updateWhere jobs job.id (fun _ h => (ownedBy_iff.1 h).1) fun _ => ⟨?_, rfl, rfl⟩
    rcases hs with rfl | rfl <;> simp [terminalRow]
  · exact finishes_updateWhere jobs job.id (fun _ h => (ownedBy_iff.1 h).1) fun _ => ⟨by simp [retryRow], rfl, rfl⟩

def Recovery.row (now : Nat) : Recovery → JobRow → JobRow
  | .requeue => requeueRow now
  | .park detail => parkRow now detail
  | .resolve => succeedRow now

theorem Recovery.apply_eq (now : Nat) (jobs : Jobs) (id : Nat) (r : Recovery) :
    r.apply now jobs id = jobs.updateWhere id running (r.row now) := by cases r <;> rfl

theorem Recovery.row_keeps (now : Nat) (r : Recovery) (j : JobRow) :
    (r.row now j).state ≠ .running ∧ (r.row now j).work = j.work ∧ (r.row now j).attempts = j.attempts := by
  cases r <;> exact ⟨by simp [Recovery.row, requeueRow, parkRow, succeedRow], rfl, rfl⟩

theorem next_applyRecoveries (now : Nat) : ∀ (l : List (ClaimedJob × Recovery)) (jobs : Jobs),
    (applyRecoveries now jobs l).next = jobs.next
  | [], _ => rfl
  | (job, r) :: l, jobs => by
    rw [applyRecoveries, next_applyRecoveries now l, Recovery.apply_eq, Table.next_updateWhere]

/-- **What a sweep commits**: a row it does not name, or that no longer runs, stays; another is written as decided. -/
theorem applyRecoveries_get (now : Nat) : ∀ (l : List (ClaimedJob × Recovery)) (jobs : Jobs) (n : Nat),
    (applyRecoveries now jobs l).get n = jobs.get n ∧ (∀ d ∈ l, d.1.id = n → ∀ j, jobs.get n = some j → j.state ≠ .running) ∨
      ∃ d ∈ l, d.1.id = n ∧ ∃ j, jobs.get n = some j ∧ j.state = .running ∧
        (applyRecoveries now jobs l).get n = some (d.2.row now j)
  | [], jobs, n => .inl ⟨rfl, fun d hd => absurd hd List.not_mem_nil⟩
  | (job, r) :: l, jobs, n => by
    rw [applyRecoveries, Recovery.apply_eq]
    rcases jobs.get_updateWhere_cases job.id running (r.row now) n with hs | ⟨rfl, j, hj, hr, hs⟩
    · rcases applyRecoveries_get now l (jobs.updateWhere job.id running (r.row now)) n with ⟨h, hl⟩ | ⟨d, hd, hid, j, hj, hr, h⟩
      · rw [hs] at h hl
        by_cases hhit : ∃ j, jobs.get n = some j ∧ j.state = .running ∧ job.id = n
        · obtain ⟨j, hj, hr, rfl⟩ := hhit
          rw [Table.get_updateWhere_hit (r.row now) hj (running_iff.2 hr), hj, Option.some.injEq] at hs
          have hleft := (r.row_keeps now j).1
          rw [hs] at hleft
          exact absurd hr hleft
        · refine .inl ⟨h, fun d hd hid j hj hr => ?_⟩
          rcases List.mem_cons.1 hd with rfl | hd
          · exact hhit ⟨j, hj, hr, hid⟩
          · exact hl d hd hid j hj hr
      · exact .inr ⟨d, List.mem_cons_of_mem _ hd, hid, j, hs ▸ hj, hr, h⟩
    · refine .inr ⟨(job, r), List.mem_cons_self, rfl, j, hj, running_iff.1 hr, ?_⟩
      rcases applyRecoveries_get now l (jobs.updateWhere job.id running (r.row now)) job.id with
        ⟨h, -⟩ | ⟨d, -, -, j', hj', hr', -⟩
      · rw [h, hs]
      · rw [hs, Option.some.injEq] at hj'
        rw [← hj'] at hr'
        exact absurd hr' (r.row_keeps now j).1

theorem applyRecoveries_move (now : Nat) (l : List (ClaimedJob × Recovery)) (jobs : Jobs) (n : Nat) :
    Move (jobs.get n) ((applyRecoveries now jobs l).get n) := by
  rcases applyRecoveries_get now l jobs n with ⟨h, -⟩ | ⟨d, -, -, j, hj, hr, h⟩
  · rw [h]; exact .same _
  · rw [h, hj]
    exact .left j _ hr (d.2.row_keeps now j).1 (d.2.row_keeps now j).2.1 (d.2.row_keeps now j).2.2

/-! ## Holding -/

/-- The job runs, and its row is exactly what its holder was handed. -/
def RunsAs (jobs : Jobs) (job : ClaimedJob) : Prop :=
  ∃ j, jobs.get job.id = some j ∧ j.state = .running ∧ job = ClaimedJob.fromRow job.id j

theorem RunsAs.keep {jobs jobs' : Jobs} {job : ClaimedJob} (h : RunsAs jobs job)
    (hsame : ∀ j, jobs.get job.id = some j → j.state = .running → jobs'.get job.id = some j) : RunsAs jobs' job := by
  obtain ⟨j, hj, hr, he⟩ := h
  exact ⟨j, hsame j hj hr, hr, he⟩

theorem RunsAs.quiet {jobs jobs' : Jobs} {job : ClaimedJob} (h : RunsAs jobs job)
    (hq : ∀ n, Quiet (jobs.get n) (jobs'.get n)) : RunsAs jobs' job := by
  refine h.keep fun j hj hr => ?_
  have := hq job.id
  rw [hj] at this
  exact this.running hr

/-- A running row is not claimed. -/
theorem not_mem_claimIds_of_runsAs {job : ClaimedJob} (h : RunsAs jobs job) : job.id ∉ claimIds now limit locked jobs := by
  obtain ⟨j, hj, hr, -⟩ := h
  intro hm
  obtain ⟨j', hj', he⟩ := mem_claimIds hm
  obtain rfl := Option.some.inj (hj.symm.trans hj')
  rw [(eligible_iff.1 he).1] at hr
  cases hr

theorem RunsAs.claim {job : ClaimedJob} (h : RunsAs jobs job) : RunsAs (claim now limit locked l jobs).2 job :=
  h.keep fun _ hj _ => by rw [claim_get_of_not_mem (not_mem_claimIds_of_runsAs h), hj]

/-- **What a claim hands out runs.** -/
theorem runsAs_of_mem_claim {job : ClaimedJob} (h : job ∈ (claim now limit locked l jobs).1) :
    RunsAs (claim now limit locked l jobs).2 job := by
  obtain ⟨-, j, -, -, hc, he⟩ := mem_claim h
  exact ⟨_, hc, rfl, he⟩

theorem RunsAs.finishes {jobs jobs' : Jobs} {id : Nat} {job : ClaimedJob} (h : RunsAs jobs job)
    (hf : Finishes id jobs jobs') (hne : job.id ≠ id) : RunsAs jobs' job :=
  h.keep fun _ hj _ => ((hf job.id).resolve_right fun hid => hne hid.1).trans hj

theorem mem_selectStale {job : ClaimedJob} (h : job ∈ selectStale now limit locked jobs) :
    ∃ j, jobs.get job.id = some j ∧ expired now j = true ∧ job = ClaimedJob.fromRow job.id j := by
  unfold selectStale at h
  rw [List.mem_map] at h
  obtain ⟨⟨n, j⟩, hm, rfl⟩ := h
  have hrow := (List.perm_insertionSort expiresBefore _).mem_iff.1 (List.mem_of_mem_take hm)
  obtain ⟨hrow, hp⟩ := List.mem_filter.1 hrow
  rw [Bool.and_eq_true] at hp
  exact ⟨j, Table.mem_rows.1 hrow, hp.1, rfl⟩

/-- **What a sweep finds stale runs.** -/
theorem runsAs_of_mem_selectStale {job : ClaimedJob} (h : job ∈ selectStale now limit locked jobs) : RunsAs jobs job := by
  obtain ⟨j, hj, he, hjob⟩ := mem_selectStale h
  simp only [expired, Bool.and_eq_true, beq_iff_eq] at he
  exact ⟨j, hj, he.1, hjob⟩

theorem RunsAs.recovered {job : ClaimedJob} {ds : List (ClaimedJob × Recovery)} (h : RunsAs jobs job)
    (hne : ∀ d ∈ ds, d.1.id ≠ job.id) : RunsAs (applyRecoveries now jobs ds) job := by
  refine h.keep fun j hj _ => ?_
  rcases applyRecoveries_get now ds jobs job.id with ⟨he, -⟩ | ⟨d, hd, hid, -⟩
  · rw [he, hj]
  · exact absurd hid (hne d hd)

end Queue
end SafeSend
