import SafeSend.Jobs.Constraints
/-!
# What one claim takes

The limit cuts the sorted candidates and a row of each slot is kept of what is left.  The first eligible row survives
both, so a claim comes back empty only where there was nothing to claim.
-/
namespace SafeSend
namespace Queue

open Lib

instance : Std.Total claimsBefore where
  total a b := by
    unfold claimsBefore
    omega

instance : IsTrans (Nat × JobRow) claimsBefore where
  trans a b c hab hbc := by
    unfold claimsBefore at hab hbc ⊢
    omega

theorem claimsBefore_refl (r : Nat × JobRow) : claimsBefore r r := .inr ⟨rfl, .inr ⟨rfl, Nat.le_refl _⟩⟩

/-- Each before the other is one row. -/
theorem fst_eq_of_claimsBefore {a b : Nat × JobRow} (hab : claimsBefore a b) (hba : claimsBefore b a) : a.1 = b.1 := by
  unfold claimsBefore at hab hba
  omega

/-- **Every row of a sorted list has one of its slot picked** at or before it. -/
theorem exists_picked {rows : List (Nat × JobRow)} (hs : rows.Pairwise claimsBefore) :
    ∀ r ∈ rows, ∃ q ∈ picked rows, slot q = slot r ∧ claimsBefore q r := by
  induction rows with
  | nil =>
    intro r hr
    cases hr
  | cons first rest ih =>
    obtain ⟨hhead, htail⟩ := List.pairwise_cons.1 hs
    intro r hr
    rcases List.mem_cons.1 hr with rfl | hr
    · exact ⟨r, List.mem_cons_self, rfl, claimsBefore_refl r⟩
    · by_cases hslot : slot r = slot first
      · exact ⟨first, List.mem_cons_self, hslot.symm, hhead r hr⟩
      · obtain ⟨q, hq, hqs, hqr⟩ := ih htail r hr
        refine ⟨q, List.mem_cons_of_mem _ (List.mem_filter.2 ⟨hq, ?_⟩), hqs, hqr⟩
        rw [bne_iff_ne, hqs]
        exact hslot

/-- The rows a claim may lock, in the order it takes them. -/
def queued (now : Nat) (locked : Nat → Bool) (jobs : Jobs) : List (Nat × JobRow) :=
  (jobs.rows.filter fun r => eligible now jobs r.2 && !locked r.1).insertionSort claimsBefore

variable {now limit : Nat} {locked : Nat → Bool} {l : Lease} {jobs : Jobs}

theorem candidates_eq : candidates now limit locked jobs = (queued now locked jobs).take limit := rfl

theorem queued_sorted : (queued now locked jobs).Pairwise claimsBefore := List.pairwise_insertionSort claimsBefore _

theorem mem_queued {n : Nat} {j : JobRow} :
    (n, j) ∈ queued now locked jobs ↔ jobs.get n = some j ∧ eligible now jobs j = true ∧ locked n = false := by
  unfold queued
  rw [List.mem_insertionSort, List.mem_filter, Table.mem_rows, Bool.and_eq_true, Bool.not_eq_true']

theorem candidates_sorted : (candidates now limit locked jobs).Pairwise claimsBefore :=
  queued_sorted.sublist (List.take_sublist _ _)

theorem length_candidates_le : (candidates now limit locked jobs).length ≤ limit := List.length_take_le _ _

/-- **What the limit cuts comes after what it leaves.** -/
theorem candidates_before (limit : Nat) {r : Nat × JobRow} (hr : r ∈ queued now locked jobs) :
    r ∈ candidates now limit locked jobs ∨ ∀ q ∈ candidates now limit locked jobs, claimsBefore q r := by
  have hsorted : (queued now locked jobs).Pairwise claimsBefore := queued_sorted
  rw [← List.take_append_drop limit (queued now locked jobs)] at hr hsorted
  rcases List.mem_append.1 hr with hr | hr
  · exact .inl hr
  · exact .inr fun q hq => (List.pairwise_append.1 hsorted).2.2 q hq r hr

/-- **The head of the queue is picked**, whatever else is. -/
theorem head_claimed (hl : 1 ≤ limit) {r : Nat × JobRow} {rest : List (Nat × JobRow)}
    (hq : queued now locked jobs = r :: rest) : r.1 ∈ claimIds now limit locked jobs := by
  obtain ⟨k, rfl⟩ : ∃ k, limit = k + 1 := ⟨limit - 1, by omega⟩
  unfold claimIds
  rw [candidates_eq, hq, List.take_succ_cons]
  exact List.mem_cons_self

/-- **The first eligible row is the head of the queue.** -/
theorem first_claimed (hl : 1 ≤ limit) {r : Nat × JobRow} (hr : r ∈ queued now locked jobs)
    (hfirst : ∀ q ∈ queued now locked jobs, claimsBefore r q) : r.1 ∈ claimIds now limit locked jobs := by
  have hsorted : (queued now locked jobs).Pairwise claimsBefore := queued_sorted
  cases hq : queued now locked jobs with
  | nil =>
    rw [hq] at hr
    cases hr
  | cons head rest =>
    have hle : claimsBefore head r := by
      rw [hq] at hr hsorted
      rcases List.mem_cons.1 hr with heq | hr
      · rw [heq]
        exact claimsBefore_refl head
      · exact (List.pairwise_cons.1 hsorted).1 r hr
    have hge : claimsBefore r head := hfirst head (by rw [hq]; exact List.mem_cons_self)
    rw [fst_eq_of_claimsBefore hge hle]
    exact head_claimed hl hq

/-- The ids the claim answers with are those it picked. -/
theorem claim_ids : (claim now limit locked l jobs).1.map ClaimedJob.id = claimIds now limit locked jobs := by
  have handed (jobs' : Jobs) : ∀ ids : List Nat, (∀ n ∈ ids, (jobs'.get n).isSome = true) →
      (ids.filterMap fun n => (jobs'.get n).map (ClaimedJob.fromRow n)).map ClaimedJob.id = ids := by
    intro ids hids
    induction ids with
    | nil => rfl
    | cons n ids ih =>
      obtain ⟨j, hj⟩ := Option.isSome_iff_exists.1 (hids n List.mem_cons_self)
      rw [List.filterMap_cons_some (by rw [hj]; rfl), List.map_cons, ih fun m hm => hids m (List.mem_cons_of_mem _ hm)]
      rfl
  refine handed _ _ fun n hn => ?_
  obtain ⟨j, -, -, hc⟩ := claim_get_of_mem (l := l) hn
  exact Option.isSome_iff_exists.2 ⟨_, hc⟩

/-- What is asked of one batch, taken from one table and leaving another. -/
structure Batch (now limit : Nat) (l : Lease) (before : Jobs) (batch : List ClaimedJob) (after : Jobs) : Prop where
  atMost : batch.length ≤ limit
  once : (batch.map ClaimedJob.id).Nodup
  /-- Each was eligible, and its row is what the worker holds now. -/
  taken : ∀ job ∈ batch, ∃ j, before.get job.id = some j ∧ eligible now before j = true ∧
    after.get job.id = some (claimRow now l j) ∧ job = ClaimedJob.fromRow job.id (claimRow now l j)
  apart : batch.Pairwise fun a b => ∀ p, a.partitionKey = some p → b.partitionKey ≠ some p
  first : ∀ n j, before.get n = some j → eligible now before j = true →
    (∀ m i, before.get m = some i → eligible now before i = true → claimsBefore (n, j) (m, i)) →
      ∃ job ∈ batch, job.id = n
  empty : batch = [] ↔ ∀ n j, before.get n = some j → eligible now before j = false
  /-- Of a partition, no eligible row comes before the one taken. -/
  heads : ∀ job ∈ batch, ∀ j p, before.get job.id = some j → j.partitionKey = some p → ∀ m i, before.get m = some i →
    eligible now before i = true → i.partitionKey = some p → claimsBefore (job.id, j) (m, i)
  /-- Each of the first `limit` rows is taken, or one of its slot before it is. -/
  covers : ∀ r ∈ candidates now limit (fun _ => false) before, ∃ job ∈ batch, ∃ j, before.get job.id = some j ∧
    slot (job.id, j) = slot r ∧ claimsBefore (job.id, j) r
  valid : Valid after
  others : ∀ n, (∀ job ∈ batch, job.id ≠ n) → after.get n = before.get n

theorem claim_eq_nil_iff (hl : 1 ≤ limit) :
    (claim now limit locked l jobs).1 = [] ↔ queued now locked jobs = [] := by
  have hids : (claim now limit locked l jobs).1.map ClaimedJob.id = claimIds now limit locked jobs := claim_ids
  constructor
  · intro hnil
    rw [hnil, List.map_nil] at hids
    cases hq : queued now locked jobs with
    | nil => rfl
    | cons head rest =>
      have hhead := head_claimed hl hq
      rw [← hids] at hhead
      cases hhead
  · intro hq
    rw [← List.map_eq_nil_iff (f := ClaimedJob.id), hids]
    unfold claimIds
    rw [candidates_eq, hq, List.take_nil]
    rfl

/-- Of a slot, the row picked comes before every other in the queue. -/
theorem picked_before {r q : Nat × JobRow} (hr : r ∈ picked (candidates now limit locked jobs))
    (hq : q ∈ queued now locked jobs) (hslot : slot r = slot q) : claimsBefore r q := by
  rcases candidates_before limit hq with hc | hc
  · obtain ⟨p, hp, hps, hpq⟩ := exists_picked candidates_sorted q hc
    have : Std.Symm fun a b : Nat × JobRow => slot a ≠ slot b := ⟨fun _ _ h h' => h h'.symm⟩
    by_cases heq : p = r
    · rw [← heq]
      exact hpq
    · exact absurd (hps.trans hslot.symm) ((picked_slots _).forall hp hr heq)
  · exact hc r ((picked_sublist _).subset hr)

theorem mem_picked_of_mem_claim {job : ClaimedJob} (h : job ∈ (claim now limit locked l jobs).1) {j : JobRow}
    (hj : jobs.get job.id = some j) : (job.id, j) ∈ picked (candidates now limit locked jobs) := by
  obtain ⟨hn, -⟩ := mem_claim h
  unfold claimIds at hn
  obtain ⟨⟨n, i⟩, hm, rfl : n = job.id⟩ := List.mem_map.1 hn
  obtain rfl : i = j := Option.some.inj ((mem_candidates ((picked_sublist _).subset hm)).1.symm.trans hj)
  exact hm

/-- **A claim executed alone takes a correct batch**, of every table its constraints allow. -/
theorem claim_batch (hv : Valid jobs) (hl : 1 ≤ limit) :
    Batch now limit l jobs (claim now limit (fun _ => false) l jobs).1 (claim now limit (fun _ => false) l jobs).2 where
  atMost := by
    rw [← List.length_map (f := ClaimedJob.id), claim_ids]
    unfold claimIds
    rw [List.length_map]
    exact (picked_sublist _).length_le.trans length_candidates_le
  once := claim_ids_nodup
  taken job hjob := (mem_claim hjob).2
  apart := by
    have hnodup : ((claim now limit (fun _ => false) l jobs).1.map ClaimedJob.id).Nodup := claim_ids_nodup
    refine (List.pairwise_map.1 hnodup).imp_of_mem fun {a b} ha hb hne p hap hbp => hne ?_
    obtain ⟨ham, i, hi, -, -, hai⟩ := mem_claim ha
    obtain ⟨hbm, j, hj, -, -, hbj⟩ := mem_claim hb
    rw [hai] at hap
    rw [hbj] at hbp
    exact claimIds_partition ham hbm hi hj hap hbp
  first n j hj he hfirst := by
    have hn : n ∈ claimIds now limit (fun _ => false) jobs :=
      first_claimed hl (mem_queued.2 ⟨hj, he, rfl⟩) fun q hq =>
        hfirst q.1 q.2 (mem_queued.1 hq).1 (mem_queued.1 hq).2.1
    rw [← claim_ids (l := l)] at hn
    exact List.mem_map.1 hn
  empty := by
    rw [claim_eq_nil_iff hl, List.eq_nil_iff_forall_not_mem]
    constructor
    · intro hnone n j hj
      by_contra he
      exact hnone (n, j) (mem_queued.2 ⟨hj, Bool.not_eq_false _ ▸ he, rfl⟩)
    · intro hnone r hr
      obtain ⟨hj, he, -⟩ := mem_queued.1 hr
      rw [hnone r.1 r.2 hj] at he
      cases he
  heads job hjob j p hj hp m i hi he hip := by
    have hslot : slot (job.id, j) = slot (m, i) := by
      simp only [slot, hp, hip, Option.getD_some]
    exact picked_before (mem_picked_of_mem_claim hjob hj) (mem_queued.2 ⟨hi, he, rfl⟩) hslot
  covers r hr := by
    obtain ⟨q, hq, hslot, hqr⟩ := exists_picked candidates_sorted r hr
    have hn : q.1 ∈ claimIds now limit (fun _ => false) jobs := List.mem_map_of_mem hq
    rw [← claim_ids (l := l)] at hn
    obtain ⟨job, hjob, hid⟩ := List.mem_map.1 hn
    have hj : jobs.get q.1 = some q.2 := (mem_candidates ((picked_sublist _).subset hq)).1
    refine ⟨job, hjob, q.2, by rw [hid]; exact hj, ?_, ?_⟩
    · rw [hid]
      exact hslot
    · rw [hid]
      exact hqr
  valid := hv.claim limit _ l
  others n hn := by
    refine claim_get_of_not_mem fun hmem => ?_
    rw [← claim_ids (l := l)] at hmem
    obtain ⟨job, hjob, hid⟩ := List.mem_map.1 hmem
    exact hn job hjob hid

/-- Two sends of one mailbox, and a run queued behind them at a higher priority. -/
def backlog : Jobs :=
  let send (n : Nat) : EnqueueArgs :=
    { kind := .send, refId := n, dedupeKey := some s!"send:{n}", partitionKey := some "gmail:1" }
  let run : EnqueueArgs := { kind := .adapterRun, refId := 0, dedupeKey := some "adapter_run:0", priority := 1 }
  (enqueue {} 0 (enqueue {} 0 (enqueue {} 0 .empty (send 0)).2 (send 1)).2 run).2

theorem claim_batch_backlog :
    (claim 0 3 (fun _ => false) ⟨"host:1", 90, 300⟩ backlog).1.map ClaimedJob.id = [2, 0] ∧
      Batch 0 3 ⟨"host:1", 90, 300⟩ backlog (claim 0 3 (fun _ => false) ⟨"host:1", 90, 300⟩ backlog).1
        (claim 0 3 (fun _ => false) ⟨"host:1", 90, 300⟩ backlog).2 := by
  refine ⟨?_, claim_batch ?_ (by decide)⟩
  · decide +kernel
  · decide +kernel

end Queue
end SafeSend
