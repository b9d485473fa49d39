import SafeSend.Send.Tended
/-!
# No stranded send

A send in flight has a job ready or running.  The worker keeps it so but where an execution gives up without asking what
became of the send: a timeout of its last attempt, a reconciliation that could not tell, or a text of the provider's that
the database does not take.  `operator_retry` breaks it where it takes a send back in flight and finds no job it can resume,
and a worker where it finishes a claim that is no longer its own.
-/
namespace SafeSend
namespace Send

open Lib
open Lib.Prog (Safe)
open Queue (ClaimedJob Recovery JobRow)

/-- A job of the send is ready or running. -/
def Attended (sid : Nat) (w : Store) : Prop :=
  ∃ n j, w.jobs.get n = some j ∧ j.kind = .send ∧ j.refId = sid ∧ (j.state = .ready ∨ j.state = .running)

def NoneStranded (w : Store) : Prop := ∀ sid r, w.sends.get sid = some r → r.state = .inFlight → Attended sid w

/-! ## The steps that strand none -/

def readyFor (w : Store) (sid : Nat) : Bool :=
  w.jobs.any fun _ j => j.kind == .send && j.refId == sid && j.state == .ready

/-- The job's send is in flight, and no other job of it is ready. -/
def exposed (w : Store) (job : ClaimedJob) : Bool :=
  job.kind == .send && (w.sends.get job.refId).any inFlight && !readyFor w job.refId

def current (w : Store) (job : ClaimedJob) : Bool :=
  (w.jobs.get job.id).any fun j => j.state == .running && j.attempts == job.attempts

/-- The claim is on its last attempt with its send exposed. -/
def cornered (w : Store) (job : ClaimedJob) : Bool :=
  current w job && decide (job.maxAttempts ≤ job.attempts) && exposed w job

/-- The current claim comes to a write that the database refuses, with its send exposed: what that raises is no failure
that is retried, and nothing is written down of it. -/
def dismissed (w : Store) (job : ClaimedJob) (body : SendProg (Except Exn Unit)) : Bool :=
  refusedAt body && current w job && exposed w job

/-- `fail` will put the job back to `ready`. -/
def retried (job : ClaimedJob) : Except Exn Unit → Bool
  | .ok _ => false
  | .error exc => classify exc == .transient && decide (job.attempts < job.maxAttempts)

def couldNotTell : Except Exn Unit → Bool
  | .error (.provider e) => e.code == "reconciliation_inconclusive"
  | _ => false

/-- The worker ends the job's record with the send exposed: in place of a later claim under its name, or because a
reconciliation could not tell. -/
def mislaid (w : Store) (job : ClaimedJob) (worker : String) (r : Except Exn Unit) : Bool :=
  exposed w job && !retried job r &&
    (w.jobs.get job.id).any fun j => Queue.ownedBy worker j && (j.attempts != job.attempts || couldNotTell r)

/-- An operator's retry finds the send in flight already, a job ready, or none it cannot resume. -/
def backed (w : Store) (sid : Nat) : Bool :=
  (w.sends.get sid).all inFlight || readyFor w sid ||
    (Store.latestSendJob w.jobs sid).all fun n => (w.jobs.get n).any Queue.resumable

def strandless (w : World) : Action → Bool
  | .step pid _ =>
    (match w.nextOp pid with
      | some (.operatorRetryWrite id _ _) => backed w.store id
      | _ => true) &&
    match w.procs.get pid with
    | some (.exec job _ _ body) => !dismissed w.store job body
    | _ => true
  | .timeout pid =>
    match w.procs.get pid with
    | some (.exec job _ _ _) => !cornered w.store job
    | _ => true
  | .finish pid _ _ =>
    match w.procs.get pid with
    | some (.exec job worker _ (.ret r)) => !mislaid w.store job worker r
    | _ => true
  | _ => true

variable {settings : Settings} {w w' : Store} {sid : Nat} {job : ClaimedJob}

theorem ready_of_readyFor (h : readyFor w sid = true) : Ready sid w := by
  obtain ⟨n, j, hj, hp⟩ := Table.any_eq_true.1 h
  simp only [Bool.and_eq_true, beq_iff_eq] at hp
  exact ⟨n, j, hj, hp.1.1, hp.1.2, hp.2⟩

theorem Ready.attended (h : Ready sid w) : Attended sid w := by
  obtain ⟨n, j, hj, hk, hr, hs⟩ := h
  exact ⟨n, j, hj, hk, hr, .inl hs⟩

theorem current_iff : current w job = true ↔ Current job w := by
  simp only [current, Current, Option.any_eq_true, Bool.and_eq_true, beq_iff_eq]

/-- A send that is not exposed is covered. -/
theorem covered_of_not_exposed (hk : job.kind = .send) (h : exposed w job = false) : Covered job.refId w := by
  intro r hr hs
  simp only [exposed, hk, hr, Option.any_some, inFlight, hs, beq_self_eq_true, Bool.and_self, Bool.true_and,
    Bool.not_eq_false'] at h
  exact ready_of_readyFor h

/-- A claim that is not cornered has attempts left, or nothing left to look after. -/
theorem spared_of_not_cornered (hk : job.kind = .send) (h : cornered w job = false) :
    job.attempts < job.maxAttempts ∨ Done job w := by
  by_cases ha : job.attempts < job.maxAttempts
  · exact .inl ha
  · refine .inr fun hc => covered_of_not_exposed hk ?_
    simpa only [cornered, current_iff.2 hc, Nat.not_lt.1 ha, decide_true, Bool.and_self, Bool.true_and] using h

/-! ## The jobs booked -/

/-- A job enqueued with no live duplicate is ready. -/
theorem ready_of_enqueue {now : Nat} {jobs : Queue.Jobs} {a : Queue.EnqueueArgs} (hk : a.kind = .send) (hr : a.refId = sid)
    (hd : Queue.duplicate jobs a.dedupeKey = false) (hw : w.jobs = (Queue.enqueue settings now jobs a).2) : Ready sid w := by
  refine ⟨jobs.next, Queue.newRow settings now a, ?_, hk, hr, rfl⟩
  rw [hw, Queue.enqueue, if_neg (by rw [hd]; exact Bool.false_ne_true)]
  exact jobs.get_insert_self _

theorem latestSendJob_eq_some {jobs : Queue.Jobs} {n : Nat} (h : Store.latestSendJob jobs sid = some n) :
    ∃ j, jobs.get n = some j ∧ j.kind = .send ∧ j.refId = sid := by
  unfold Store.latestSendJob at h
  rw [Option.map_eq_some_iff] at h
  obtain ⟨⟨m, j⟩, hl, rfl⟩ := h
  obtain ⟨hj, hp, -⟩ := Table.latest_eq_some hl
  simp only [Bool.and_eq_true, beq_iff_eq] at hp
  exact ⟨j, hj, hp⟩

/-- A job resumed is ready. -/
theorem ready_of_resumed {now n grant : Nat} {jobs : Queue.Jobs} (hn : Store.latestSendJob jobs sid = some n) {hit : Bool}
    (h : Queue.operatorRetry now jobs n grant = some (hit, w.jobs)) (hres : (jobs.get n).any Queue.resumable = true) :
    Ready sid w := by
  obtain ⟨j, hj, hk, hr⟩ := latestSendJob_eq_some hn
  rw [hj, Option.any_some] at hres
  unfold Queue.operatorRetry at h
  simp only at h
  split at h
  · cases h
  · simp only [Option.some.injEq, Prod.mk.injEq] at h
    refine ⟨n, Queue.resumeRow now grant j, ?_, hk, hr, rfl⟩
    rw [← h.2]
    exact Table.get_updateWhere_hit _ hj hres

theorem ready_of_resent {now : Nat} {jobs : Queue.Jobs} {partition : String}
    (h : Store.resumeOrEnqueue settings now jobs sid partition = some w.jobs) : Ready sid w := by
  rcases resumeOrEnqueue_cases h with ⟨n, hn, hr⟩ | ⟨jobs₁, -, he⟩
  · refine ready_of_resumed hn hr ?_
    unfold Queue.operatorRetry at hr
    simp only at hr
    split at hr
    · cases hr
    · simp only [Option.some.injEq, Prod.mk.injEq] at hr
      exact hr.1
  · exact ready_of_enqueue rfl rfl rfl he

theorem Ready.quiet (h : Ready sid w) (hq : ∀ n, Queue.Quiet (w.jobs.get n) (w'.jobs.get n)) : Ready sid w' := by
  obtain ⟨n, j, hj, hk, hr, hs⟩ := h
  have := hq n
  rw [hj] at this
  exact ⟨n, j, this.ready hs, hk, hr, hs⟩

theorem Attended.quiet (h : Attended sid w) (hq : ∀ n, Queue.Quiet (w.jobs.get n) (w'.jobs.get n)) : Attended sid w' := by
  obtain ⟨n, j, hj, hk, hr, hs⟩ := h
  have := hq n
  rw [hj] at this
  rcases hs with hs | hs
  · exact ⟨n, j, this.ready hs, hk, hr, .inl hs⟩
  · exact ⟨n, j, this.running hs, hk, hr, .inr hs⟩

/-! ## What a step leaves of a flight -/

/-- The row in flight is as before but for its error and its counters, or it has a job ready. -/
def Flown (w w' : Store) (sid : Nat) : Prop :=
  ∀ r', w'.sends.get sid = some r' → r'.state = .inFlight → Ready sid w' ∨
    ∃ r, w.sends.get sid = some r ∧ r.state = .inFlight ∧ (r'.dispatchedAt = none → r.dispatchedAt = none)

theorem Flown.of_sends (h : w'.sends = w.sends) (sid : Nat) : Flown w w' sid :=
  fun r hr hs => .inr ⟨r, h ▸ hr, hs, fun hd => hd⟩

/-- A claimed send's key is named by no job yet. -/
theorem unnamed_next (hw : WellFormed w) : Queue.duplicate w.jobs (some (sendKey w.sends.next)) = false := by
  rw [Queue.duplicate, Option.isSome_some, Bool.true_and, Table.any_eq_false]
  intro n j hj
  refine Bool.eq_false_iff.2 fun h => ?_
  rw [Bool.and_eq_true, beq_iff_eq] at h
  obtain ⟨r, hr⟩ := hw.named n j _ hj h.1
  rw [w.sends.get_next] at hr
  cases hr

/-- **No operation takes a send in flight without a job**, where an operator's retry is backed. -/
theorem Did.flown {o : Op} (hw : WellFormed w) (h : Did settings w o w')
    (hback : ∀ id userId partition, o = .operatorRetryWrite id userId partition → backed w id = true) (sid : Nat) :
    Flown w w' sid := by
  intro r' hr' hs'
  have hm := h.send sid
  rw [hr'] at hm
  generalize hq : some r' = q at hm
  generalize w'.forced sid = n at hm
  cases hm with
  | same => exact .inr ⟨r', hq.symm, hs', fun hd => hd⟩
  | wrote u hr hg =>
    obtain rfl := Option.some.inj hq
    refine .inr ⟨_, hr, Write.inFlight_of_guard hg, fun hd => ?_⟩
    cases u with
    | dispatch draftId => cases hd
    | _ => exact hd
  | bumped hr =>
    obtain rfl := Option.some.inj hq
    exact .inr ⟨_, hr, hs', fun hd => hd⟩
  | claimed args hn hfree =>
    subst hn
    cases h with
    | same => cases hr'.symm.trans w.sends.get_next
    | connection => cases hr'.symm.trans w.sends.get_next
    | claimed => exact .inl (ready_of_enqueue rfl rfl (unnamed_next hw) rfl)
  | @retried r userId partition hr =>
    obtain rfl := Option.some.inj hq
    have hb := hback sid userId partition rfl
    simp only [backed, hr, Option.all_some, Bool.or_eq_true] at hb
    rcases hb with (hf | hready) | hlatest
    · exact .inr ⟨r, hr, beq_iff_eq.1 hf, fun hd => hd⟩
    · exact .inl ((ready_of_readyFor hready).quiet h.quiet)
    · cases h with
      | same => exact .inr ⟨_, hr'.symm ▸ rfl, hs', fun hd => hd⟩
      | connection => exact .inr ⟨_, hr'.symm ▸ rfl, hs', fun hd => hd⟩
      | retried _ _ _ jobs hrow hjobs =>
        rcases hjobs with ⟨-, rfl⟩ | ⟨job, hit, hjob, hres⟩
        · exact .inl (ready_of_enqueue rfl rfl rfl rfl)
        · rw [hjob, Option.all_some] at hlatest
          exact .inl (ready_of_resumed hjob hres hlatest)
  | attested => obtain rfl := Option.some.inj hq; cases hs'
  | resent userId note partition hr hd =>
    cases h with
    | same => exact .inr ⟨_, hr'.symm ▸ rfl, hs', fun hd => hd⟩
    | connection => exact .inr ⟨_, hr'.symm ▸ rfl, hs', fun hd => hd⟩
    | resent _ _ _ _ jobs hrow hjobs => exact .inl (ready_of_resent hjobs)

/-! ## The jobs handed out -/

/-- The job was handed out from this row, which is not on an earlier attempt. -/
def Known (job : ClaimedJob) (w : Store) : Prop :=
  ∃ j, w.jobs.get job.id = some j ∧ j.kind = job.kind ∧ j.refId = job.refId ∧ job.attempts ≤ j.attempts

theorem Known.moves (h : Known job w) (hm : ∀ n, Queue.Move (w.jobs.get n) (w'.jobs.get n)) : Known job w' := by
  obtain ⟨j, hj, hk, hr, ha⟩ := h
  have hmove := hm job.id
  rw [hj] at hmove
  obtain ⟨j', hj', hwork, ha'⟩ := hmove.keeps
  obtain ⟨hk', hr', -⟩ := Queue.work_inj hwork
  exact ⟨j', hj', hk'.trans hk, hr'.trans hr, ha.trans ha'⟩

theorem known_of_runsAs (h : Queue.RunsAs w.jobs job) : Known job w := by
  obtain ⟨j, hj, -, he⟩ := h
  refine ⟨j, hj, ?_, ?_, ?_⟩ <;> rw [he]
  · rfl
  · rfl
  · exact Nat.le_refl _

theorem current_of_runsAs (h : Queue.RunsAs w.jobs job) : Current job w := by
  obtain ⟨j, hj, hs, he⟩ := h
  exact ⟨j, hj, hs, by rw [he]; rfl⟩

/-- A claim that is no longer current never is again. -/
theorem Known.current_of (h : Known job w) (hm : ∀ n, Queue.Move (w.jobs.get n) (w'.jobs.get n)) (hc : Current job w') :
    Current job w := by
  obtain ⟨j, hj, -, -, ha⟩ := h
  obtain ⟨j', hj', hs', ha'⟩ := hc
  have hmove := hm job.id
  rw [hj, hj'] at hmove
  cases hmove with
  | same => exact ⟨j, hj, hs', ha'⟩
  | claimed _ now l hs hlt =>
    have : j.attempts + 1 = job.attempts := ha'
    omega
  | left _ _ hs hs'' => exact absurd hs' hs''
  | resumed _ now grant hs => cases hs'

/-- **What is ready stays ready** while a job of the send runs: both are of its partition. -/
theorem ready_of_moves (hw : WellFormed w) (hw' : WellFormed w') (hk : job.kind = .send) (h : Known job w)
    (hm : ∀ n, Queue.Move (w.jobs.get n) (w'.jobs.get n)) (hc : Current job w) (hc' : Current job w')
    (hr : Ready job.refId w) : Ready job.refId w' := by
  obtain ⟨n, i, hi, hik, hir, his⟩ := hr
  have hmove := hm n
  rw [hi] at hmove
  generalize hq : w'.jobs.get n = q at hmove
  cases hmove with
  | same => exact ⟨n, i, hq, hik, hir, his⟩
  | left _ _ hs => rw [his] at hs; cases hs
  | resumed _ now grant hs => simp only [Queue.resumable, his] at hs; cases hs
  | claimed _ now l hs hlt =>
    obtain ⟨j, hj, hrun, -⟩ := hc
    obtain ⟨j', hj', hs', -⟩ := hc'
    obtain ⟨j₀, hj₀, hjk, hjr, -⟩ := h
    obtain rfl := Option.some.inj (hj.symm.trans hj₀)
    have hmj := hm job.id
    rw [hj, hj'] at hmj
    obtain ⟨_, he, hwork, -⟩ := hmj.keeps
    obtain rfl := Option.some.inj he
    obtain ⟨r, hr, hp⟩ := hw.work n i hi hik
    obtain ⟨r', hr', hp'⟩ := hw.work job.id j hj (hjk.trans hk)
    rw [hir] at hr
    rw [hjr] at hr'
    obtain rfl := Option.some.inj (hr.symm.trans hr')
    have hsame : n = job.id := hw'.exclusive n job.id _ j' r.partition hq hj' rfl hs' hp
      (by rw [(Queue.work_inj hwork).2.2, hp'])
    rw [hsame, hj] at hi
    obtain rfl := Option.some.inj hi
    rw [hrun] at his
    cases his

/-- What a step does, seen by a program that looks after its jobs. -/
structure Follows (w w' : Store) : Prop where
  kept : Extends w w'
  moves : ∀ n, Queue.Move (w.jobs.get n) (w'.jobs.get n)
  flown : ∀ sid, Flown w w' sid

theorem Follows.tends (h : Follows w w') (hw : WellFormed w) (hw' : WellFormed w') (hk : job.kind = .send)
    (hknown : Known job w) : Tends job w w' where
  current hc := hknown.current_of h.moves hc
  ready hc hc' hr := ready_of_moves hw hw' hk hknown h.moves hc hc' hr
  flown _ := h.flown job.refId

theorem Follows.of_jobs {jobs : Queue.Jobs} (hm : ∀ n, Queue.Move (w.jobs.get n) (jobs.get n)) :
    Follows w { w with jobs := jobs } :=
  ⟨⟨fun _ r hr => ⟨r, hr, rfl⟩, fun _ d hd => ⟨d, hd, rfl⟩⟩, hm, .of_sends rfl⟩

/-- The sends in flight keep their jobs, where the jobs of those from before do. -/
theorem Follows.noneStranded (h : Follows w w') (hi : NoneStranded w)
    (hkeep : ∀ sid r, w.sends.get sid = some r → r.state = .inFlight → Attended sid w → Attended sid w') :
    NoneStranded w' := by
  intro sid r' hr' hs'
  rcases h.flown sid r' hr' hs' with hready | ⟨r, hr, hs, -⟩
  · exact hready.attended
  · exact hkeep sid r hr hs (hi sid r hr hs)

/-! ## The end of an execution -/

theorem couldNotTell_of_inconclusive (provider : ProviderKind) : couldNotTell (.error (inconclusive provider)) = true := rfl

theorem retried_eq_true {r : Except Exn Unit} (h : retried job r = true) :
    ∃ exc, r = .error exc ∧ classify exc = .transient ∧ job.attempts < job.maxAttempts := by
  cases r with
  | ok => cases h
  | error exc =>
    simp only [retried, Bool.and_eq_true, beq_iff_eq, decide_eq_true_eq] at h
    exact ⟨exc, rfl, h⟩

/-- **Where the worker's name finishes the job, it goes back to the queue or leaves its send covered.** -/
theorem spared_of_ended {worker : String} {r : Except Exn Unit} {j : JobRow} (hk : job.kind = .send) (he : Ended job r w)
    (hok : mislaid w job worker r = false) (hj : w.jobs.get job.id = some j) (how : Queue.ownedBy worker j = true) :
    retried job r = true ∨ Covered job.refId w := by
  by_cases hr : retried job r = true
  · exact .inl hr
  rw [Bool.not_eq_true] at hr
  simp only [mislaid, hr, hj, how, Option.any_some, Bool.not_false, Bool.and_true, Bool.true_and] at hok
  by_cases ha : j.attempts = job.attempts
  · have hc : Current job w := ⟨j, hj, (Queue.ownedBy_iff.1 how).1, ha⟩
    cases r with
    | ok => exact .inr (he hc)
    | error exc =>
      rcases he with ⟨provider, rfl⟩ | ⟨hclass, hleft⟩ | hd
      · rw [couldNotTell_of_inconclusive, Bool.or_true, Bool.and_true] at hok
        exact .inr (covered_of_not_exposed hk hok)
      · simp [retried, hclass, hleft] at hr
      · exact .inr (hd hc)
  · simp only [bne_iff_ne.2 ha, Bool.true_or, Bool.and_true] at hok
    exact .inr (covered_of_not_exposed hk hok)

theorem Ready.leaves {jobs : Queue.Jobs} (h : Ready sid w) (hl : Leaves w.jobs jobs) :
    Ready sid { w with jobs := jobs } := by
  obtain ⟨n, j, hj, hk, hr, hs⟩ := h
  rcases hl n with he | ⟨i, i', hi, -, hrun, -⟩
  · exact ⟨n, j, he.trans hj, hk, hr, hs⟩
  · obtain rfl := Option.some.inj (hj.symm.trans hi)
    rw [hs] at hrun
    cases hrun

/-- The statement that finishes a job is a compare-and-swap on its worker, and a retry is ready. -/
theorem finishJob_eq {worker trace : String} {began : Nat} {draw : Draw} {r : Except Exn Unit} {jobs : Queue.Jobs}
    (h : finishJob w job worker began trace draw r = some jobs) :
    ∃ f, jobs = w.jobs.updateWhere job.id (Queue.ownedBy worker) f ∧
      (retried job r = true → ∀ j, (f j).kind = j.kind ∧ (f j).refId = j.refId ∧ (f j).state = .ready) := by
  cases r with
  | ok => exact ⟨_, (Option.some.inj h).symm, fun hr => nomatch hr⟩
  | error exc =>
    simp only [finishJob, Option.ite_none_right_eq_some, Option.map_eq_some_iff] at h
    obtain ⟨-, ⟨out, jobs'⟩, hf, rfl⟩ := h
    rcases Queue.fail_cases hf with ⟨hend, state, -, he⟩ | ⟨-, -, wait, delay, he⟩
    · refine ⟨_, he, fun hr => ?_⟩
      obtain ⟨exc', hexc, hc, ha⟩ := retried_eq_true hr
      obtain rfl := Except.error.inj hexc
      rcases hend with hend | hend
      · exact absurd hc hend
      · omega
    · exact ⟨_, he, fun _ j => ⟨rfl, rfl, rfl⟩⟩

/-- **An execution that ends leaves its send attended.** -/
theorem attended_finish {worker trace : String} {began : Nat} {draw : Draw} {r : Except Exn Unit} {row : SendRow}
    (hknown : Known job w) (he : job.kind = .send → Ended job r w) (hok : mislaid w job worker r = false)
    (hrow : w.sends.get sid = some row) (hs : row.state = .inFlight)
    (h : Attended sid w) :
    Attended sid { w with jobs := (finishJob w job worker began trace draw r).getD w.jobs } := by
  have hleaves := leaves_of_finishes (finishJob_finishes w job worker began trace draw r)
  cases hf : finishJob w job worker began trace draw r with
  | none => exact h
  | some jobs =>
    rw [hf, Option.getD_some] at hleaves
    obtain ⟨f, hjobs, hretry⟩ := finishJob_eq hf
    obtain ⟨n, j, hj, hk, hr, hlive⟩ := h
    rcases w.jobs.get_updateWhere_cases job.id (Queue.ownedBy worker) f n with hsame | ⟨rfl, i, hi, hw, hnew⟩
    · exact ⟨n, j, by rw [Option.getD_some, hjobs, hsame, hj], hk, hr, hlive⟩
    · -- The job that ends is the one that attended the send.
      obtain rfl := Option.some.inj (hj.symm.trans hi)
      obtain ⟨j₀, hj₀, hjk, hjr, -⟩ := hknown
      obtain rfl := Option.some.inj (hj.symm.trans hj₀)
      have hsend : job.kind = .send := hjk.symm.trans hk
      have hid : job.refId = sid := hjr.symm.trans hr
      rcases spared_of_ended hsend (he hsend) hok hj hw with hre | hcov
      · obtain ⟨hk', hr', hs'⟩ := hretry hre j
        exact ⟨job.id, f j, by rw [Option.getD_some, hjobs, hnew], hk'.trans hk, hr'.trans hr, .inl hs'⟩
      · have hready : Ready sid w := hid ▸ hcov row (hid ▸ hrow) hs
        exact (hready.leaves hleaves).attended

/-- **A sweep that decided well leaves every send attended.** -/
theorem attended_recovered {now : Nat} {ds : List (ClaimedJob × Recovery)} {row : SendRow}
    (hruns : ∀ d ∈ ds, Queue.RunsAs w.jobs d.1) (hd : ∀ d ∈ ds, DecidedWell w d) (hrow : w.sends.get sid = some row)
    (hs : row.state = .inFlight) (h : Attended sid w) :
    Attended sid { w with jobs := Queue.applyRecoveries now w.jobs ds } := by
  obtain ⟨n, j, hj, hk, hr, hlive⟩ := h
  rcases Queue.applyRecoveries_get now ds w.jobs n with ⟨hsame, -⟩ | ⟨d, hmem, rfl, i, hi, -, hnew⟩
  · exact ⟨n, j, hsame.trans hj, hk, hr, hlive⟩
  · obtain rfl := Option.some.inj (hj.symm.trans hi)
    obtain ⟨j₀, hj₀, -, he⟩ := hruns d hmem
    obtain rfl := Option.some.inj (hj.symm.trans hj₀)
    have hsend : d.1.kind = .send := by rw [he]; exact hk
    have hid : d.1.refId = sid := by rw [he]; exact hr
    rcases hd d hmem hsend with hre | hdone
    · rw [hre] at hnew
      exact ⟨d.1.id, _, hnew, hk, hr, .inl rfl⟩
    · have hready : Ready sid w := hid ▸ hdone (current_of_runsAs (hruns d hmem)) row (hid ▸ hrow) hs
      exact (hready.leaves (leaves_applyRecoveries _ _ _)).attended

theorem Attended.claim {now limit : Nat} {locked : Nat → Bool} {l : Queue.Lease} (h : Attended sid w) :
    Attended sid { w with jobs := (Queue.claim now limit locked l w.jobs).2 } := by
  obtain ⟨n, j, hj, hk, hr, hlive⟩ := h
  by_cases hn : n ∈ Queue.claimIds now limit locked w.jobs
  · obtain ⟨i, hi, -, hc⟩ := Queue.claim_get_of_mem (l := l) hn
    obtain rfl := Option.some.inj (hj.symm.trans hi)
    exact ⟨n, _, hc, hk, hr, .inr rfl⟩
  · exact ⟨n, j, (Queue.claim_get_of_not_mem hn).trans hj, hk, hr, hlive⟩

/-! ## The system -/

/-- A process looks after the jobs it was handed. -/
def Proc.Tending (settings : Settings) (w : Store) : Proc → Prop
  | .exec job _ _ body =>
    Known job w ∧ Safe (tending settings [job]) (fun r t => job.kind = .send → Ended job r t) body w
  | .sweep stale _ body =>
    (∀ job ∈ stale, Known job w) ∧
      Safe (tending settings stale) (fun ds t => ∀ d ∈ ds, d.1 ∈ stale ∧ DecidedWell t d) body w
  | .adrift _ | .request _ => True

theorem Follows.rely (h : Follows w w') (hw : WellFormed w) (hw' : WellFormed w') {jobs : List ClaimedJob}
    (hknown : ∀ job ∈ jobs, Known job w) : (tending settings jobs).rely w w' :=
  ⟨h.kept, fun job hj hk => h.tends hw hw' hk (hknown job hj)⟩

/-- What the others do leaves a process looking after its jobs. -/
theorem Proc.Tending.follows {p : Proc} (hp : p.Tending settings w) (h : Follows w w') (hw : WellFormed w)
    (hw' : WellFormed w') : p.Tending settings w' := by
  cases p with
  | exec job worker began body =>
    have hknown : ∀ j ∈ [job], Known j w := fun j hj => List.mem_singleton.1 hj ▸ hp.1
    exact ⟨hp.1.moves h.moves, hp.2.rely (h.rely hw hw' hknown)⟩
  | sweep stale began body =>
    exact ⟨fun job hj => (hp.1 job hj).moves h.moves, hp.2.rely (h.rely hw hw' hp.1)⟩
  | adrift body | request body => trivial

/-- A process that carries an operation out goes on looking after its jobs. -/
theorem Proc.Tending.next {p p' : Proc} {o : Op} {x : o.Ans} {e : Env} (hp : p.Tending settings w) (hw : WellFormed w)
    (hn : p.Next o x p') (hs : sem settings o e w = some (x, w')) : p'.Tending settings w' := by
  have hm : ∀ n, Queue.Move (w.jobs.get n) (w'.jobs.get n) := fun n => ((did_of_sem hs).quiet n).move
  cases hn with
  | exec => exact ⟨hp.1.moves hm, (hp.2.answer hw trivial hs).2.2⟩
  | sweep => exact ⟨fun job hj => (hp.1 job hj).moves hm, (hp.2.answer hw trivial hs).2.2⟩
  | adrift | request => trivial

structure Tended (settings : Settings) (w : World) : Prop where
  store : NoneStranded w.store
  procs : ∀ pid p, w.procs.get pid = some p → p.Tending settings w.store

theorem tending_exec (job : ClaimedJob) (worker : String) (began : Nat) (hknown : Known job w) :
    (Proc.exec job worker began (handler job)).Tending settings w :=
  ⟨hknown, ended_handler List.mem_cons_self w⟩

theorem tending_sweep (stale : List ClaimedJob) (began : Nat) (hknown : ∀ job ∈ stale, Known job w) :
    (Proc.sweep stale began (sweepJobs stale)).Tending settings w :=
  ⟨hknown, decided_sweep stale w fun _ hj => hj⟩

theorem tending_ended {worker : String} {began : Nat} {r : Except Exn Unit} (hknown : Known job w)
    (he : job.kind = .send → Ended job r w) : (Proc.exec job worker began (.ret r)).Tending settings w :=
  ⟨hknown, Prog.Safe.ret (fun t u h hr hi hk => stable_ended List.mem_cons_self hk _ t u (h hk) hr hi) he⟩

/-- A timeout leaves a claim that is not cornered to be retried, or nothing to look after. -/
theorem ended_timedOut (hk : job.kind = .send) (hc : cornered w job = false) : Ended job (.error (.os "")) w :=
  .inr ((spared_of_not_cornered hk hc).imp_left fun ha => ⟨rfl, ha⟩)

/-- A write that is refused leaves nothing to look after, where it does not dismiss the claim. -/
theorem ended_refused {body : SendProg (Except Exn Unit)} (hk : job.kind = .send) (hr : refusedAt body = true)
    (hc : dismissed w job body = false) : Ended job (.error untranslatable) w := by
  refine .inr (.inr fun hcur => covered_of_not_exposed hk ?_)
  simpa only [dismissed, hr, current_iff.2 hcur, Bool.true_and] using hc

/-- **What is left of an execution that is cut off** leaves its send looked after, in a step that strands none. -/
theorem Proc.Tending.raised {u : World} {a : Action} {pid : Nat} {worker : String} {began : Nat}
    {body : SendProg (Except Exn Unit)} {exc : Exn} (h : (Proc.exec job worker began body).Tending settings u.store)
    (hw : WellFormed u.store) (hp : u.procs.get pid = some (.exec job worker began body)) (hwhy : Raises pid a body exc)
    (hok : strandless u a = true) : (Proc.exec job worker began (.ret (.error exc))).Tending settings u.store := by
  refine tending_ended h.1 fun hk => ?_
  cases hwhy with
  | timedOut o k =>
    simp only [strandless, hp, Bool.not_eq_true'] at hok
    exact ended_timedOut hk hok
  | refused e id v k hv =>
    simp only [strandless, hp, Bool.and_eq_true, Bool.not_eq_true'] at hok
    exact ended_refused hk (by simp only [refusedAt, hv, Bool.not_false]) hok.2
  | lost => exact .inr (.inr (h.2.post hw hk))

theorem Follows.of_quiet (hs : w'.sends = w.sends) (hd : w'.drafts = w.drafts)
    (hq : ∀ n, Queue.Quiet (w.jobs.get n) (w'.jobs.get n)) : Follows w w' where
  kept := ⟨fun _ r hr => ⟨r, hs ▸ hr, rfl⟩, fun _ d h => ⟨d, hd ▸ h, rfl⟩⟩
  moves n := (hq n).move
  flown := .of_sends hs

variable {u t : World} {a : Action}

/-- A process that ends leaves the others as they were, over the jobs it finished. -/
theorem Tended.without (h : Tended settings u) (hu : WellFormed u.store) {pid : Nat} {jobs : Queue.Jobs}
    (hleaves : Leaves u.store.jobs jobs)
    (hkeep : ∀ sid r, u.store.sends.get sid = some r → r.state = .inFlight → Attended sid u.store →
      Attended sid { u.store with jobs := jobs }) : Tended settings (u.without pid jobs) := by
  have hf : Follows u.store { u.store with jobs := jobs } := .of_jobs fun n => by
    rcases hleaves n with he | ⟨j, j', hj, hj', hr, hr', hw, ha⟩
    · rw [he]; exact .same _
    · rw [hj, hj']; exact .left j j' hr hr' hw ha
  refine ⟨hf.noneStranded h.store hkeep, fun n q hq => ?_⟩
  by_cases hn : n = pid
  · subst hn
    simp only [World.without, Table.get_erase_self, reduceCtorEq] at hq
  · simp only [World.without, Table.get_erase_of_ne _ hn] at hq
    exact (h.procs n q hq).follows hf hu (hu.leaves hleaves)

/-- One process changed, over a store that follows. -/
theorem Tended.withProc (h : Tended settings u) (hu : WellFormed u.store) {store : Store} (hstore : WellFormed store)
    (hf : Follows u.store store) (hns : NoneStranded store) {pid : Nat} {p : Proc} (hp : p.Tending settings store) :
    Tended settings (u.withProc pid p store) := by
  refine ⟨hns, fun n q hq => ?_⟩
  simp only [World.withProc] at hq
  rcases Table.get_modify_cases hq with ⟨rfl, _, -, rfl⟩ | ⟨-, hq⟩
  · exact hp
  · exact (h.procs n q hq).follows hf hu hstore

theorem Tended.insert (h : Tended settings u) {p : Proc} (hp : p.Tending settings u.store) :
    Tended settings { u with procs := u.procs.insert p } := by
  refine ⟨h.store, fun n q hq => ?_⟩
  rcases Table.get_insert_cases hq with ⟨-, rfl⟩ | ⟨-, hq⟩
  · exact hp
  · exact h.procs n q hq

/-- **A step that strands none leaves every process looking after its jobs.** -/
theorem Tended.moved (h : Tended settings u) (hc : Coherent settings u) (hc' : Coherent settings t) (hh : Held false u)
    (hok : strandless u a = true) (hm : Moved settings u a t) : Tended settings t := by
  cases hm with
  | outside _ store hout =>
    obtain ⟨hs, hd⟩ := Store.outside_eq hout
    have hq := Store.outside_quiet hout
    have hf := Follows.of_quiet hs hd hq
    exact ⟨hf.noneStranded h.store fun _ _ _ _ hat => hat.quiet hq,
      fun pid p hp => (h.procs pid p hp).follows hf hc.store hc'.store⟩
  | called r => exact h.insert trivial
  | claimed worker limit locked =>
    have hf : Follows u.store { u.store with jobs := (u.store.claimJobs settings worker limit locked).2 } :=
      .of_jobs Queue.claim_move
    refine ⟨hf.noneStranded h.store fun _ _ _ _ hat => hat.claim, fun pid p hp => ?_⟩
    rcases spawn_get hp with hp | ⟨job, hj, rfl⟩
    · exact (h.procs pid p hp).follows hf hc.store hc'.store
    · exact tending_exec job worker _ (known_of_runsAs (Queue.runsAs_of_mem_claim hj))
  | swept limit locked hidle stale hstale =>
    exact h.insert (tending_sweep stale _ fun job hj => known_of_runsAs (Queue.runsAs_of_mem_selectStale (hstale ▸ hj)))
  | @ran pid e _ _ o _ _ hp hn hs =>
    have hd := did_of_sem hs
    have hback (id userId : Nat) (partition : String) (ho : o = .operatorRetryWrite id userId partition) :
        backed u.store id = true := by
      simpa only [nextOp_of_next hp hn, ho] using (Bool.and_eq_true_iff.1 hok).1
    have hf : Follows u.store _ := ⟨hd.extends, fun n => (hd.quiet n).move, hd.flown hc.store hback⟩
    have hns := hf.noneStranded h.store fun _ _ _ _ hat => hat.quiet hd.quiet
    exact h.withProc hc.store hc'.store hf hns ((h.procs pid _ hp).next hc.store hn hs)
  | raised pid hp hwhy =>
    exact h.withProc hc.store hc.store (.of_quiet rfl rfl fun _ => .same _) h.store
      ((h.procs pid _ hp).raised hc.store hp hwhy hok)
  | lost pid hp => exact h.withProc hc.store hc.store (.of_quiet rfl rfl fun _ => .same _) h.store trivial
  | executed pid trace draw hp hfree =>
    simp only [strandless, hp, Bool.not_eq_true'] at hok
    obtain ⟨hknown, hsafe⟩ := h.procs pid _ hp
    exact h.without hc.store (leaves_of_finishes (finishJob_finishes _ _ _ _ _ _ _)) fun sid r hr hs hat =>
      attended_finish hknown (hsafe.post hc.store) hok hr hs hat
  | @recovered pid trace draw stale began decisions hp =>
    obtain ⟨-, hsafe⟩ := h.procs pid _ hp
    have hd := hsafe.post hc.store
    exact h.without hc.store (leaves_applyRecoveries _ _ _) fun sid r hr hs hat =>
      attended_recovered (fun d hm => hh.runs pid _ hp d.1 (hd d hm).1) (fun d hm => (hd d hm).2) hr hs hat
  | answered pid trace draw hp => exact h.without hc.store (.refl _) fun _ _ _ _ hat => hat
  | crashed pid hp | aborted pid e hp => exact h.without hc.store (.refl _) fun _ _ _ _ hat => hat

theorem reach_tended (h : (system settings).Reach (fun w a => strandless w a = true) u) : Tended settings u :=
  Machine.Reach.inv ⟨fun _ _ hr => (nomatch hr), fun _ _ hp => (nomatch hp)⟩
    (fun w _ _ hreach hi hok hs =>
      hi.moved (reach_coherent hreach)
        (reach_coherent (hreach.steps (.snoc (.refl w) hok hs)))
        (reach_held (fun he => nomatch he) hreach) hok (moved_of_step hs)) h

/-- **No stranded send** in any state of a run whose steps all strand none. -/
theorem none_stranded (h : (system settings).Reach (fun w a => strandless w a = true) u) : NoneStranded u.store :=
  (reach_tended h).store

/-- The sample's first attempt times out, and its job is put back. -/
theorem none_stranded_retried :
    ∃ w, (system {}).exec {} (sampleRun ++ [.step 2 .none, .timeout 2, .finish 2 "" noDraw]) = some w ∧
      stateOf w 0 = some .inFlight ∧ NoneStranded w.store := by
  have hrun : ((system {}).exec {} (sampleRun ++ [.step 2 .none, .timeout 2, .finish 2 "" noDraw])).any (fun w =>
      stateOf w 0 == some .inFlight &&
        (system {}).allowed strandless {} (sampleRun ++ [.step 2 .none, .timeout 2, .finish 2 "" noDraw])) = true := by
    decide +kernel
  rw [Option.any_eq_true] at hrun
  obtain ⟨w, hw, hp⟩ := hrun
  simp only [Bool.and_eq_true, beq_iff_eq] at hp
  exact ⟨w, hw, hp.1, none_stranded (Machine.Steps.of_exec (fun _ _ h => h) hw hp.2)⟩

/-- Every attempt of the sample times out. -/
def timeouts : List Action :=
  sampleRun ++ (List.range 6).flatMap fun i =>
    [.step (2 + i) .none, .timeout (2 + i), .finish (2 + i) "" noDraw, .tick 300000000, .claim "host:1" 5 (fun _ => false)]

/-- The last of the timeouts parks the job, and the send stays in flight. -/
theorem timeouts_strand : ¬ ∀ w, (system {}).Reach (fun _ _ => True) w → NoneStranded w.store := by
  intro hclaim
  have hrun : ((system {}).exec (system {}).init timeouts).any (fun w =>
      stateOf w 0 == some .inFlight && !w.store.jobs.any fun _ j => j.live) = true := by decide +kernel
  obtain ⟨w, -, hreach, hp⟩ := Machine.reach_of_exec hrun
  simp only [Bool.and_eq_true, beq_iff_eq, Bool.not_eq_true'] at hp
  obtain ⟨r, hr, hs⟩ := stateOf_eq_some hp.1
  obtain ⟨n, j, hj, -, -, hlive⟩ := hclaim w hreach 0 r hr hs
  have := Table.any_eq_false.1 hp.2 n j hj
  rcases hlive with hl | hl <;> simp [Queue.JobRow.live, hl] at this

end Send
end SafeSend
