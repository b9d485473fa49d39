import SafeSend.Jobs.Claimable
/-!
# Whose claim a finish ends

`succeed` and `fail` name the worker that claimed, not the claim: a process that claims a job again after losing it is
the same worker.  Every claim is logged, newest first, so a claim is the latest of its job where the log finds it first.
-/
namespace SafeSend
namespace Queue

open Lib

/-- No claim of the job has been handed out since. -/
def Latest (s : QueueState) (job : ClaimedJob) : Prop := s.handed.find? (fun c => c.id == job.id) = some job

/-- The statements that finish a claim, called on its behalf. -/
inductive Finishing (job : ClaimedJob) (worker : String) : QueueOp → Prop
  | succeed : Finishing job worker (.succeed job worker)
  | fail (errorClass : ErrorClass) (detail : String) (retryAfter : Option Seconds) (draw : Draw) :
    Finishing job worker (.fail job worker errorClass detail retryAfter draw)

/-- What is finished on behalf of a claim is the claim itself: it is the latest, and the job runs under it. -/
def EndsOwn (settings : Settings) (s : QueueState) (job : ClaimedJob) (worker : String) : Prop :=
  ∀ o t, Finishing job worker o → QueueState.step settings s o = some t → t.jobs.get job.id ≠ s.jobs.get job.id →
    Latest s job ∧ RunsAs s.jobs job

/-- The job runs under a later claim, made by the same worker. -/
def Reclaimed (s : QueueState) (job : ClaimedJob) : Prop :=
  ∃ later, later.id = job.id ∧ later ≠ job ∧ Latest s later ∧ RunsAs s.jobs later ∧ later.claimedBy = job.claimedBy

/-- The log tells who runs what: a running row is as its latest claim was handed it, and the claims of one job are told
apart by their attempts. -/
structure Logged (s : QueueState) : Prop where
  runs : ∀ n j, s.jobs.get n = some j → j.state = .running →
    s.handed.find? (fun c => c.id == n) = some (ClaimedJob.fromRow n j)
  counted : ∀ job ∈ s.handed, ∃ j, s.jobs.get job.id = some j ∧ job.attempts ≤ j.attempts
  ordered : s.handed.Pairwise fun a b => a.id = b.id → b.attempts < a.attempts

variable {settings : Settings} {s t : QueueState} {jobs : Jobs} {now limit : Nat} {locked : Nat → Bool} {l : Lease}

theorem Logged.moves (h : Logged s) (hmove : ∀ n, Move (s.jobs.get n) (jobs.get n))
    (hrun : ∀ n j, jobs.get n = some j → j.state = .running → s.jobs.get n = some j) : Logged { s with jobs := jobs } where
  runs n j hj hr := h.runs n j (hrun n j hj hr) hr
  counted job hjob := by
    obtain ⟨j, hj, hle⟩ := h.counted job hjob
    have hm := hmove job.id
    rw [hj] at hm
    obtain ⟨j', hj', -, hle'⟩ := hm.keeps
    exact ⟨j', hj', Nat.le_trans hle hle'⟩
  ordered := h.ordered

theorem Logged.quiet (h : Logged s) (hq : ∀ n, Quiet (s.jobs.get n) (jobs.get n)) : Logged { s with jobs := jobs } := by
  refine h.moves (fun n => (hq n).move) fun n j hj hr => ?_
  have hn := hq n
  rw [hj] at hn
  exact hn.running_of hr

theorem Logged.finishes (h : Logged s) {id : Nat} (hf : Finishes id s.jobs jobs) : Logged { s with jobs := jobs } := by
  refine h.moves hf.move fun n j hj hr => ?_
  rcases hf n with hs | ⟨-, -, j', -, hj', -, hleft, -⟩
  · rw [← hs, hj]
  · rw [hj, Option.some.injEq] at hj'
    rw [hj'] at hr
    exact absurd hr hleft

theorem Logged.recovered (h : Logged s) (ds : List (ClaimedJob × Recovery)) :
    Logged { s with jobs := applyRecoveries now s.jobs ds } := by
  refine h.moves (applyRecoveries_move now ds s.jobs) fun n j hj hr => ?_
  rcases applyRecoveries_get now ds s.jobs n with ⟨hs, -⟩ | ⟨d, -, -, i, -, -, hs⟩
  · rw [← hs, hj]
  · rw [hj, Option.some.injEq] at hs
    rw [hs] at hr
    exact absurd hr (d.2.row_keeps now i).1

/-- What a claim hands out of a row is in its batch once. -/
theorem find_claim {n : Nat} {j : JobRow} (hn : n ∈ claimIds now limit locked jobs) (hj : jobs.get n = some j) :
    (claim now limit locked l jobs).1.find? (fun c => c.id == n) = some (ClaimedJob.fromRow n (claimRow now l j)) := by
  obtain ⟨i, hi, -, hc⟩ := claim_get_of_mem (l := l) hn
  obtain rfl : j = i := Option.some.inj (hj.symm.trans hi)
  have hmem : ClaimedJob.fromRow n (claimRow now l j) ∈ (claim now limit locked l jobs).1 := by
    unfold claim at hc ⊢
    exact List.mem_filterMap.2 ⟨n, hn, by rw [hc]; rfl⟩
  cases hf : (claim now limit locked l jobs).1.find? (fun c => c.id == n) with
  | none =>
    have hno := List.find?_eq_none.1 hf _ hmem
    simp [ClaimedJob.fromRow] at hno
  | some c =>
    have hid : c.id = n := by simpa using List.find?_some hf
    obtain ⟨-, i, hi, -, -, he⟩ := mem_claim (List.mem_of_find?_eq_some hf)
    rw [hid] at hi he
    obtain rfl : j = i := Option.some.inj (hj.symm.trans hi)
    rw [he]

theorem find_claim_none {n : Nat} (hn : n ∉ claimIds now limit locked jobs) :
    (claim now limit locked l jobs).1.find? (fun c => c.id == n) = none := by
  rw [List.find?_eq_none]
  intro c hc hid
  obtain ⟨hmem, -⟩ := mem_claim hc
  rw [beq_iff_eq] at hid
  rw [hid] at hmem
  exact hn hmem

/-- A new claim of a job made more attempts than every claim before it. -/
theorem Logged.newer (h : Logged s) {a b : ClaimedJob} (ha : a ∈ (claim now limit locked l s.jobs).1) (hb : b ∈ s.handed)
    (hid : a.id = b.id) : b.attempts < a.attempts := by
  obtain ⟨-, i, hi, -, -, he⟩ := mem_claim ha
  obtain ⟨j, hj, hle⟩ := h.counted b hb
  rw [← hid, hi] at hj
  obtain rfl : i = j := Option.some.inj hj
  have hattempts : a.attempts = i.attempts + 1 := by rw [he]; rfl
  omega

theorem Logged.claim (h : Logged s) (limit : Nat) (locked : Nat → Bool) (l : Lease) :
    Logged { s with
      jobs := (Queue.claim s.now limit locked l s.jobs).2
      handed := (Queue.claim s.now limit locked l s.jobs).1 ++ s.handed } where
  runs n j hj hr := by
    rw [List.find?_append]
    by_cases hn : n ∈ claimIds s.now limit locked s.jobs
    · obtain ⟨i, hi, -, hc⟩ := claim_get_of_mem (l := l) hn
      obtain rfl : claimRow s.now l i = j := Option.some.inj (hc.symm.trans hj)
      rw [find_claim hn hi]
      rfl
    · rw [claim_get_of_not_mem hn] at hj
      rw [find_claim_none hn]
      exact h.runs n j hj hr
  counted job hjob := by
    rcases List.mem_append.1 hjob with hnew | hold
    · obtain ⟨-, i, -, -, hc, he⟩ := mem_claim hnew
      exact ⟨_, hc, by rw [he]; exact Nat.le_refl _⟩
    · obtain ⟨j, hj, hle⟩ := h.counted job hold
      have hm : Move (s.jobs.get job.id) ((Queue.claim s.now limit locked l s.jobs).2.get job.id) := claim_move job.id
      rw [hj] at hm
      obtain ⟨j', hj', -, hle'⟩ := hm.keeps
      exact ⟨j', hj', Nat.le_trans hle hle'⟩
  ordered := by
    refine List.pairwise_append.2 ⟨?_, h.ordered, fun a ha b hb hid => h.newer ha hb hid⟩
    have hnodup : ((Queue.claim s.now limit locked l s.jobs).1.map ClaimedJob.id).Nodup := claim_ids_nodup
    exact (List.pairwise_map.1 hnodup).imp fun hne hid => absurd hid hne

theorem Logged.step {o : QueueOp} (h : Logged s) (hs : QueueState.step settings s o = some t) : Logged t := by
  cases o with
  | tick elapsed =>
    obtain rfl := Option.some.inj hs
    exact ⟨h.runs, h.counted, h.ordered⟩
  | enqueue a =>
    simp only [QueueState.step] at hs
    split at hs
    · cases hs
    · obtain rfl := Option.some.inj hs
      exact h.quiet (enqueue_quiet settings s.now s.jobs a)
  | claim limit locked l =>
    obtain rfl := Option.some.inj hs
    exact h.claim limit locked l
  | succeed job worker =>
    simp only [QueueState.step] at hs
    split at hs
    · obtain rfl := Option.some.inj hs
      exact h.finishes (succeed_finishes s.now s.jobs job.id worker)
    · cases hs
  | fail job worker errorClass detail retryAfter draw =>
    simp only [QueueState.step] at hs
    split at hs
    · obtain rfl := Option.some.inj hs
      cases hf : Queue.fail s.now s.jobs job worker errorClass detail retryAfter draw with
      | none => exact h
      | some out => exact h.finishes (fail_finishes hf)
    · cases hs
  | sweep limit locked outcome =>
    obtain rfl := Option.some.inj hs
    exact h.recovered _
  | operatorRetry id =>
    obtain rfl := Option.some.inj hs
    cases hr : Queue.operatorRetry s.now s.jobs id with
    | none => exact h
    | some out => exact h.quiet (operatorRetry_quiet hr)

theorem reach_logged {ok : QueueState → QueueOp → Prop} (h : (queue settings).Reach ok s) : Logged s :=
  Machine.Reach.inv ⟨fun _ _ hj => (nomatch hj), fun _ hj => (nomatch hj), List.Pairwise.nil⟩
    (fun _ _ _ _ hi _ hs => hi.step hs) h

/-- A guarded write that changed the row found it running under the worker's name. -/
theorem owned_of_changed {id : Nat} {worker : String} {f : JobRow → JobRow}
    (h : (jobs.updateWhere id (ownedBy worker) f).get id ≠ jobs.get id) :
    ∃ j, jobs.get id = some j ∧ j.state = .running ∧ j.claimedBy = some worker := by
  rcases jobs.get_updateWhere_cases id (ownedBy worker) f id with hs | ⟨-, j, hj, hown, -⟩
  · exact absurd hs h
  · exact ⟨j, hj, ownedBy_iff.1 hown⟩

theorem owned_of_finishing {job : ClaimedJob} {worker : String} {o : QueueOp} (ho : Finishing job worker o)
    (hs : QueueState.step settings s o = some t) (hne : t.jobs.get job.id ≠ s.jobs.get job.id) :
    ∃ j, s.jobs.get job.id = some j ∧ j.state = .running ∧ j.claimedBy = some worker := by
  cases ho with
  | succeed =>
    simp only [QueueState.step] at hs
    split at hs
    · obtain rfl := Option.some.inj hs
      exact owned_of_changed hne
    · cases hs
  | fail errorClass detail retryAfter draw =>
    simp only [QueueState.step] at hs
    split at hs
    · obtain rfl := Option.some.inj hs
      cases hf : Queue.fail s.now s.jobs job worker errorClass detail retryAfter draw with
      | none =>
        rw [hf] at hne
        exact absurd rfl hne
      | some out =>
        rw [hf] at hne
        rcases fail_cases hf with ⟨-, state, -, he⟩ | ⟨-, -, wait, delay, he⟩ <;>
        · rw [Option.map_some, Option.getD_some, he] at hne
          exact owned_of_changed hne
    · cases hs

/-- **A stale worker finishes a newer claim exactly where that claim is its own worker's too**, in every reachable
state. -/
theorem ends_own_iff (h : (queue settings).Reach (fun _ _ => True) s) {job : ClaimedJob} {worker : String}
    (hjob : job ∈ s.handed) (hworker : job.claimedBy = some worker) :
    EndsOwn settings s job worker ↔ ¬ Reclaimed s job := by
  have hlog := reach_logged h
  constructor
  · rintro hown ⟨later, hid, hne, hlatest, ⟨j, hj, hrun, he⟩, hby⟩
    have hjby : j.claimedBy = some worker := by
      rw [← hworker, ← hby, he]
      rfl
    have hstep : QueueState.step settings s (.succeed job worker) =
        some { s with jobs := (Queue.succeed s.now s.jobs job.id worker).2 } := if_pos hjob
    have hj' : s.jobs.get job.id = some j := by rw [← hid, hj]
    have hchanged : (Queue.succeed s.now s.jobs job.id worker).2.get job.id ≠ s.jobs.get job.id := by
      unfold Queue.succeed
      rw [Table.get_updateWhere_hit (succeedRow s.now) hj' (ownedBy_iff.2 ⟨hrun, hjby⟩), hj']
      intro heq
      have hstate := congrArg JobRow.state (Option.some.inj heq)
      rw [hrun] at hstate
      cases hstate
    have hmine := (hown _ _ .succeed hstep hchanged).1
    unfold Latest at hmine hlatest
    rw [hid, hmine] at hlatest
    exact hne (Option.some.inj hlatest).symm
  · intro hfree o t ho hs hchanged
    obtain ⟨j, hj, hrun, hby⟩ := owned_of_finishing ho hs hchanged
    have hlatest := hlog.runs _ j hj hrun
    by_cases hmine : ClaimedJob.fromRow job.id j = job
    · rw [hmine] at hlatest
      exact ⟨hlatest, j, hj, hrun, hmine.symm⟩
    · exact absurd ⟨ClaimedJob.fromRow job.id j, rfl, hmine, hlatest, ⟨j, hj, hrun, rfl⟩, hby.trans hworker.symm⟩ hfree

/-- An adapter run's job, lost by one worker and claimed again by another (or the same). -/
def lostTo (worker : String) : List QueueOp := [
  .enqueue { kind := .adapterRun, refId := 0 },
  .claim 5 (fun _ => false) ⟨"host:1", 90, 300⟩,
  .tick 90000001,
  .sweep 20 (fun _ => false) fun _ => none,
  .claim 5 (fun _ => false) ⟨worker, 90, 300⟩]

theorem ends_own_lost :
    ∃ s job, (queue {}).exec {} (lostTo "host:2") = some s ∧ job ∈ s.handed ∧ job.attempts = 1 ∧
      job.claimedBy = some "host:1" ∧ EndsOwn {} s job "host:1" := by
  have hrun : ((queue {}).exec (queue {}).init (lostTo "host:2")).any (fun s =>
      (s.handed.any fun c => c.attempts == 1 && c.claimedBy == some "host:1" && c.id == 0) &&
        (s.handed.find? fun c => c.id == 0).all fun c => c.claimedBy == some "host:2") = true := by decide +kernel
  obtain ⟨s, hs, hreach, hp⟩ := Machine.reach_of_exec hrun
  simp only [Bool.and_eq_true, List.any_eq_true, beq_iff_eq] at hp
  obtain ⟨⟨job, hjob, ⟨hattempts, hby⟩, hid⟩, hlater⟩ := hp
  refine ⟨s, job, hs, hjob, hattempts, hby, (ends_own_iff hreach hjob hby).2 ?_⟩
  rintro ⟨later, hlid, -, hlatest, -, hlby⟩
  unfold Latest at hlatest
  rw [hlid, hid] at hlatest
  rw [hlatest, Option.all_some, beq_iff_eq, hlby, hby] at hlater
  exact absurd hlater (by decide)

/-- The job lost and claimed again in the same process: the first claim's success ends the second. -/
theorem reclaimed_ended : ¬ ∀ s job worker, (queue {}).Reach (fun _ _ => True) s → job ∈ s.handed →
    job.claimedBy = some worker → EndsOwn {} s job worker := by
  intro hclaim
  have hrun : ((queue {}).exec (queue {}).init (lostTo "host:1")).any (fun s =>
      (s.handed.any fun c => c.attempts == 1 && c.claimedBy == some "host:1" && c.id == 0) &&
        (s.jobs.get 0).any fun j => j.state == .running && j.claimedBy == some "host:1" && j.attempts == 2) = true := by
    decide +kernel
  obtain ⟨s, hs, hreach, hp⟩ := Machine.reach_of_exec hrun
  simp only [Bool.and_eq_true, List.any_eq_true, Option.any_eq_true, beq_iff_eq] at hp
  obtain ⟨⟨job, hjob, ⟨hattempts, hby⟩, hid⟩, j, hj, ⟨hstate, hjby⟩, hj2⟩ := hp
  refine (ends_own_iff hreach hjob hby).1 (hclaim s job "host:1" hreach hjob hby) ?_
  refine ⟨ClaimedJob.fromRow 0 j, hid.symm, fun he => ?_, (reach_logged hreach).runs 0 j hj hstate, ⟨j, hj, hstate, rfl⟩,
    hjby.trans hby.symm⟩
  have hsame := congrArg ClaimedJob.attempts he
  rw [hattempts] at hsame
  simp only [ClaimedJob.fromRow, hj2] at hsame
  cases hsame

end Queue
end SafeSend
