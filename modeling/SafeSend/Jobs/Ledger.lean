import Mathlib.Logic.Function.Basic
import SafeSend.Jobs.Batch
import SafeSend.Jobs.Passes
/-!
# How often a job is run

Beside the queue stand the ceilings jobs were booked with and the operator's retries.  A job has been handed out as often
as its row says, and never more often than its ceiling and those retries allow.
-/
namespace SafeSend
namespace Queue

open Lib

/-- The ceiling each job was booked with, and how often an operator's retry has resumed it. -/
structure Grants where
  booked : Nat → Nat := fun _ => 0
  resumed : Nat → Nat := fun _ => 0

def Grants.book (g : Grants) (n ceiling : Nat) : Grants := { g with booked := Function.update g.booked n ceiling }

def Grants.resume (g : Grants) (n : Nat) : Grants := { g with resumed := Function.update g.resumed n (g.resumed n + 1) }

/-- A booking that inserts a row, and an operator's retry that finds one parked or failed. -/
def noteGrant (settings : Settings) (s : QueueState) : QueueOp → Grants → Grants
  | .enqueue a, g => if duplicate s.jobs a.dedupeKey then g else g.book s.jobs.next (newRow settings s.now a).maxAttempts
  | .operatorRetry id, g => if s.jobs.affected id resumable then g.resume id else g
  | _, g => g

/-- The queue, with what was granted. -/
def granted (settings : Settings) : Machine (QueueState × Grants) QueueOp :=
  (queue settings).withHistory (noteGrant settings) {}

/-- How often the job was handed to a worker. -/
def claimsOf (handed : List ClaimedJob) (n : Nat) : Nat := handed.countP fun c => c.id == n

/-- **A job was handed out as often as its row says**, within its ceiling and the operator's retries. -/
structure Ledgered (handed : List ClaimedJob) (g : Grants) (n : Nat) (j : JobRow) : Prop where
  claims : claimsOf handed n = j.attempts
  below : j.attempts ≤ j.maxAttempts
  ceiling : j.maxAttempts ≤ g.booked n + g.resumed n

structure Books (s : QueueState) (g : Grants) : Prop where
  rows : ∀ n j, s.jobs.get n = some j → Ledgered s.handed g n j
  handed : ∀ c ∈ s.handed, (s.jobs.get c.id).isSome = true

variable {settings : Settings} {s t : QueueState} {g : Grants} {jobs : Jobs}

theorem Ledgered.left {handed : List ClaimedJob} {n : Nat} {j j' : JobRow} (h : Ledgered handed g n j)
    (ha : j'.attempts = j.attempts) (hm : j'.maxAttempts = j.maxAttempts) : Ledgered handed g n j' :=
  ⟨h.claims.trans ha.symm, by rw [ha, hm]; exact h.below, by rw [hm]; exact h.ceiling⟩

theorem Books.left (h : Books s g) (hleft : ∀ n, Left (s.jobs.get n) (jobs.get n)) : Books { s with jobs := jobs } g where
  rows n j' hj' := by
    have hl := hleft n
    rw [hj'] at hl
    cases hj : s.jobs.get n with
    | none =>
      rw [hj] at hl
      cases hl
    | some j =>
      rw [hj] at hl
      cases hl with
      | same => exact h.rows n j' hj
      | left _ _ hs hs' ha hm => exact (h.rows n j hj).left ha hm
  handed c hc := by
    have hl := hleft c.id
    have hsome := h.handed c hc
    cases hj : s.jobs.get c.id with
    | none =>
      rw [hj] at hsome
      cases hsome
    | some j =>
      rw [hj] at hl
      generalize jobs.get c.id = r at hl
      cases hl with
      | same => rfl
      | left => rfl

/-- A job that was never booked was never handed out. -/
theorem Books.unclaimed (h : Books s g) {n : Nat} (hn : s.jobs.get n = none) : claimsOf s.handed n = 0 := by
  unfold claimsOf
  rw [List.countP_eq_zero]
  intro c hc hid
  have hsome := h.handed c hc
  rw [beq_iff_eq.1 hid, hn] at hsome
  cases hsome

theorem Books.enqueue (h : Books s g) (a : EnqueueArgs) :
    Books { s with jobs := (Queue.enqueue settings s.now s.jobs a).2 }
      (if duplicate s.jobs a.dedupeKey then g else g.book s.jobs.next (newRow settings s.now a).maxAttempts) := by
  unfold Queue.enqueue
  by_cases hd : duplicate s.jobs a.dedupeKey = true
  · rw [if_pos hd, if_pos hd]
    exact h
  · rw [if_neg hd, if_neg hd]
    refine ⟨fun n j hj => ?_, fun c hc => ?_⟩
    · rcases Table.get_insert_cases hj with ⟨rfl, rfl⟩ | ⟨hn, hold⟩
      · refine ⟨h.unclaimed s.jobs.get_next, Nat.zero_le _, ?_⟩
        simp only [Grants.book, Function.update_self]
        exact Nat.le_add_right _ _
      · obtain ⟨hclaims, hbelow, hceiling⟩ := h.rows n j hold
        refine ⟨hclaims, hbelow, ?_⟩
        simp only [Grants.book, Function.update_of_ne hn]
        exact hceiling
    · obtain ⟨j, hj⟩ := Option.isSome_iff_exists.1 (h.handed c hc)
      rw [Table.get_insert_of_get _ hj]
      rfl

/-- A retry raises the ceiling of the job it resumes by one at the most, and runs nothing. -/
theorem Books.resume (h : Books s g) (id : Nat) :
    Books { s with jobs := ((Queue.operatorRetry s.now s.jobs id).map Prod.snd).getD s.jobs }
      (if s.jobs.affected id resumable then g.resume id else g) := by
  have more {n : Nat} {j : JobRow} (hl : Ledgered s.handed g n j) :
      Ledgered s.handed (if s.jobs.affected id resumable then g.resume id else g) n j := by
    split
    · refine ⟨hl.claims, hl.below, Nat.le_trans hl.ceiling (Nat.add_le_add_left ?_ _)⟩
      by_cases hn : n = id
      · subst hn
        simp [Grants.resume]
      · simp [Grants.resume, Function.update_of_ne hn]
    · exact hl
  unfold Queue.operatorRetry
  by_cases hd : (s.jobs.affected id resumable && duplicate s.jobs ((s.jobs.get id).bind JobRow.dedupeKey)) = true
  · simp only [if_pos hd]
    exact ⟨fun n j hj => more (h.rows n j hj), h.handed⟩
  · simp only [if_neg hd]
    refine ⟨fun n j hj => ?_, fun c hc => ?_⟩
    · have hrow := s.jobs.get_updateWhere_cases id resumable (resumeRow s.now 1) n
      simp only [Option.map_some, Option.getD_some] at hj
      rw [hj] at hrow
      rcases hrow with hsame | ⟨rfl, i, hi, hres, hnew⟩
      · exact more (h.rows n j hsame.symm)
      · obtain ⟨hclaims, hbelow, hceiling⟩ := h.rows n i hi
        obtain rfl := Option.some.inj hnew
        have hit : s.jobs.affected n resumable = true := (Option.any_eq_true _ _).2 ⟨i, hi, hres⟩
        refine ⟨hclaims, Nat.le_trans hbelow (Nat.le_max_left _ _), ?_⟩
        rw [if_pos hit]
        simp only [resumeRow, Grants.resume, Function.update_self]
        omega
    · obtain ⟨j, hj⟩ := Option.isSome_iff_exists.1 (h.handed c hc)
      simp only [Option.map_some, Option.getD_some, Table.updateWhere]
      rw [Table.isSome_get_modify, hj]
      rfl

theorem claimsOf_claim (now limit : Nat) (locked : Nat → Bool) (l : Lease) (n : Nat) :
    claimsOf (Queue.claim now limit locked l jobs).1 n = if n ∈ claimIds now limit locked jobs then 1 else 0 := by
  have hids : (Queue.claim now limit locked l jobs).1.map ClaimedJob.id = claimIds now limit locked jobs := claim_ids
  rw [← (claimIds_nodup now limit locked jobs).count, ← hids, claimsOf, List.count, List.countP_map]
  rfl

/-- **A claim is one more attempt of each job it hands out.** -/
theorem Books.claim (h : Books s g) (limit : Nat) (locked : Nat → Bool) (l : Lease) :
    Books { s with
      jobs := (Queue.claim s.now limit locked l s.jobs).2
      handed := (Queue.claim s.now limit locked l s.jobs).1 ++ s.handed } g where
  rows n j' hj' := by
    have hcount : claimsOf ((Queue.claim s.now limit locked l s.jobs).1 ++ s.handed) n =
        (if n ∈ claimIds s.now limit locked s.jobs then 1 else 0) + claimsOf s.handed n := by
      rw [← claimsOf_claim s.now limit locked l n, claimsOf, List.countP_append]
      rfl
    by_cases hn : n ∈ claimIds s.now limit locked s.jobs
    · obtain ⟨j, hj, he, hc⟩ := claim_get_of_mem (l := l) hn
      obtain rfl : claimRow s.now l j = j' := Option.some.inj (hc.symm.trans hj')
      obtain ⟨hclaims, -, hceiling⟩ := h.rows n j hj
      have hlt := (eligible_iff.1 he).2.2.1
      rw [if_pos hn] at hcount
      refine ⟨?_, hlt, hceiling⟩
      rw [hcount, hclaims]
      exact Nat.add_comm 1 _
    · rw [if_neg hn, Nat.zero_add] at hcount
      rw [claim_get_of_not_mem hn] at hj'
      obtain ⟨hclaims, hbelow, hceiling⟩ := h.rows n j' hj'
      exact ⟨hcount.trans hclaims, hbelow, hceiling⟩
  handed c hc := by
    rcases List.mem_append.1 hc with hnew | hold
    · obtain ⟨-, j, -, -, hget, -⟩ := mem_claim hnew
      rw [hget]
      rfl
    · obtain ⟨j, hj⟩ := Option.isSome_iff_exists.1 (h.handed c hold)
      have hm : Move (s.jobs.get c.id) ((Queue.claim s.now limit locked l s.jobs).2.get c.id) := claim_move c.id
      rw [hj] at hm
      obtain ⟨j', hj', -⟩ := hm.keeps
      rw [hj']
      rfl

theorem Books.step {o : QueueOp} (h : Books s g) (hs : QueueState.step settings s o = some t) :
    Books t (noteGrant settings s o g) := by
  cases o with
  | tick elapsed =>
    obtain rfl := Option.some.inj hs
    exact ⟨h.rows, h.handed⟩
  | enqueue a =>
    simp only [QueueState.step] at hs
    split at hs
    · cases hs
    · obtain rfl := Option.some.inj hs
      exact h.enqueue a
  | claim limit locked l =>
    obtain rfl := Option.some.inj hs
    exact h.claim limit locked l
  | succeed job worker =>
    simp only [QueueState.step] at hs
    split at hs
    · obtain rfl := Option.some.inj hs
      exact h.left (left_succeed job.id)
    · cases hs
  | fail job worker errorClass detail retryAfter draw =>
    simp only [QueueState.step] at hs
    split at hs
    · obtain rfl := Option.some.inj hs
      cases hf : Queue.fail s.now s.jobs job worker errorClass detail retryAfter draw with
      | none => exact h
      | some out => exact h.left (left_fail hf)
    · cases hs
  | sweep limit locked outcome =>
    obtain rfl := Option.some.inj hs
    exact h.left (left_recovered _)
  | operatorRetry id =>
    obtain rfl := Option.some.inj hs
    exact h.resume id

/-- **No job runs more often than it was granted**: in every run, whatever crashes, expires or is recovered, a job has been
handed to a worker exactly as often as its row says, and at most as often as the ceiling it was booked with and one more
for each operator's retry that found it parked or failed. -/
theorem attempts_ledgered (h : (granted settings).Reach (fun _ _ => True) (s, g)) {n : Nat} {j : JobRow}
    (hj : s.jobs.get n = some j) : claimsOf s.handed n = j.attempts ∧
      claimsOf s.handed n ≤ g.booked n + g.resumed n := by
  have hbooks : Books s g := by
    have hinit : Books (granted settings).init.1 (granted settings).init.2 := by
      refine ⟨fun n j hj => ?_, fun c hc => ?_⟩
      · cases hj
      · cases hc
    refine h.inv (I := fun p => Books p.1 p.2) hinit ?_
    rintro ⟨u, k⟩ o ⟨u', k'⟩ - hu - hstep
    obtain ⟨hstep, hnote⟩ := Machine.withHistory_step hstep
    simp only at hstep hnote hu ⊢
    rw [hnote]
    exact hu.step hstep
  obtain ⟨hclaims, hbelow, hceiling⟩ := hbooks.rows n j hj
  exact ⟨hclaims, by omega⟩

/-- Booked for two attempts, orphaned on the first and claimed again. -/
def claimedTwice : List QueueOp := orphaned 2 ++ [.claim 5 (fun _ => false) ⟨"host:2", 90, 300⟩]

theorem attempts_ledgered_twice : ∃ s g, (granted {}).exec (granted {}).init claimedTwice = some (s, g) ∧
    claimsOf s.handed 0 = 2 ∧ claimsOf s.handed 0 ≤ g.booked 0 + g.resumed 0 := by
  have hrun : ((granted {}).exec (granted {}).init claimedTwice).any
      (fun p => (p.1.jobs.get 0).any fun j => j.attempts == 2) = true := by decide +kernel
  obtain ⟨⟨s, g⟩, hexec, hreach, hp⟩ := Machine.reach_of_exec hrun
  rw [Option.any_eq_true] at hp
  obtain ⟨j, hj, hattempts⟩ := hp
  obtain ⟨hclaims, hle⟩ := attempts_ledgered hreach hj
  exact ⟨s, g, hexec, hclaims.trans (beq_iff_eq.1 hattempts), hle⟩

end Queue
end SafeSend
