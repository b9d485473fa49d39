import SafeSend.Send.WellFormed
/-!
# Who holds a job

An execution and a sweep hold the jobs they were handed, and while they do the jobs' rows run.  A sweep's hold is its row
locks, and is gone with its transaction.  An execution's is its lease: it lasts while no sweep takes a live execution's
job, which `reclaimsDead` says.
-/
namespace SafeSend
namespace Send

open Lib
open Lib.Prog (Ends)
open Queue (ClaimedJob Recovery RunsAs)

/-- The jobs a process holds; an execution's counts where `execs`. -/
def Proc.held (execs : Bool) : Proc → List ClaimedJob
  | .exec job _ _ _ => if execs then [job] else []
  | .sweep stale _ _ => stale
  | .adrift _ | .request _ => []

/-- A live execution has the job. -/
def World.executing (w : World) (id : Nat) : Bool :=
  w.procs.any fun _ p => match p with
    | .exec job _ _ _ => job.id == id
    | _ => false

/-- A sweep finds stale only jobs whose worker takes no more steps. -/
def reclaimsDead (w : World) : Action → Bool
  | .sweep limit locked =>
    (Queue.selectStale w.store.now limit locked w.store.jobs).all fun j => !w.executing j.id
  | _ => true

/-- Decisions on the jobs, one each. -/
def Decides (stale : List ClaimedJob) (ds : List (ClaimedJob × Recovery)) : Prop := ds.map Prod.fst = stale

structure Held (execs : Bool) (w : World) : Prop where
  runs : ∀ pid p, w.procs.get pid = some p → ∀ job ∈ p.held execs, RunsAs w.store.jobs job
  apart : ∀ pid pid' p p', w.procs.get pid = some p → w.procs.get pid' = some p' → ∀ job ∈ p.held execs,
    ∀ job' ∈ p'.held execs, job.id = job'.id → pid = pid'
  /-- A sweep decides on the jobs it holds. -/
  decided : ∀ pid stale began body, w.procs.get pid = some (.sweep stale began body) →
    Ends (Decides stale) body

theorem decided_sweepJobs : ∀ stale : List ClaimedJob, Ends (Decides stale) (sweepJobs stale)
  | [] => Ends.ret rfl
  | job :: l => by
    unfold sweepJobs
    refine Ends.bind (fun outcome => Ends.bind (fun _ => Ends.bind_of (fun rest hrest => ?_) (decided_sweepJobs l)) _) _
    refine Ends.ret ?_
    rw [Decides, List.map_cons, hrest]

theorem executing_eq_false {w : World} {id : Nat} (h : w.executing id = false) {pid : Nat} {job : ClaimedJob}
    {worker : String} {began : Nat} {body : SendProg (Except Exn Unit)}
    (hp : w.procs.get pid = some (.exec job worker began body)) : job.id ≠ id := by
  have := Table.any_eq_false.1 h pid _ hp
  simpa only [beq_eq_false_iff_ne] using this

theorem sweeping_eq_false {w : World} (h : w.sweeping = false) {pid : Nat} {stale : List ClaimedJob} {began : Nat}
    {body : SendProg (List (ClaimedJob × Recovery))} : w.procs.get pid ≠ some (.sweep stale began body) := by
  intro hp
  have := Table.any_eq_false.1 h pid _ hp
  cases this

theorem lockedBySweep_eq_false {w : World} {id : Nat} (h : w.lockedBySweep id = false) {pid : Nat}
    {stale : List ClaimedJob} {began : Nat} {body : SendProg (List (ClaimedJob × Recovery))}
    (hp : w.procs.get pid = some (.sweep stale began body)) : ∀ job ∈ stale, job.id ≠ id := by
  have := Table.any_eq_false.1 h pid _ hp
  simp only [List.any_eq_false, beq_iff_eq] at this
  exact this

variable {settings : Settings} {execs : Bool} {w t : World}

theorem Proc.Next.held {p p' : Proc} {o : Op} {x : o.Ans} (h : p.Next o x p') : p'.held execs = p.held execs := by
  cases h <;> rfl

/-- The processes are as before but for one, which holds no more than it held. -/
theorem Held.withProc (h : Held execs w) {pid : Nat} {p p' : Proc} {store : Store} (hp : w.procs.get pid = some p)
    (hheld : ∀ job ∈ p'.held execs, job ∈ p.held execs)
    (hbody : ∀ stale began body, p' = .sweep stale began body → Ends (Decides stale) body)
    (hruns : ∀ job, RunsAs w.store.jobs job → RunsAs store.jobs job) : Held execs (w.withProc pid p' store) := by
  have back {n : Nat} {q : Proc} (hq : (w.withProc pid p' store).procs.get n = some q) :
      ∃ q₀, w.procs.get n = some q₀ ∧ ∀ job ∈ q.held execs, job ∈ q₀.held execs := by
    simp only [World.withProc] at hq
    rcases Table.get_modify_cases hq with ⟨rfl, _, -, rfl⟩ | ⟨-, hq⟩
    · exact ⟨p, hp, hheld⟩
    · exact ⟨q, hq, fun _ hjob => hjob⟩
  refine ⟨fun n q hq job hjob => ?_, fun m n q r hq hr job hjob job' hjob' hid => ?_, fun n stale began body hq => ?_⟩
  · obtain ⟨q₀, hq₀, he⟩ := back hq
    exact hruns job (h.runs n q₀ hq₀ job (he job hjob))
  · obtain ⟨q₀, hq₀, he⟩ := back hq
    obtain ⟨r₀, hr₀, he'⟩ := back hr
    exact h.apart m n q₀ r₀ hq₀ hr₀ job (he job hjob) job' (he' job' hjob') hid
  · simp only [World.withProc] at hq
    rcases Table.get_modify_cases hq with ⟨rfl, _, -, he⟩ | ⟨-, hq⟩
    · exact hbody stale began body he.symm
    · exact h.decided n stale began body hq

/-- A process ends, and the jobs the others hold still run. -/
theorem Held.without (h : Held execs w) (pid : Nat) {jobs : Queue.Jobs}
    (hruns : ∀ n q, n ≠ pid → w.procs.get n = some q → ∀ job ∈ q.held execs, RunsAs w.store.jobs job → RunsAs jobs job) :
    Held execs (w.without pid jobs) := by
  have back {n : Nat} {q : Proc} (hq : (w.without pid jobs).procs.get n = some q) : n ≠ pid ∧ w.procs.get n = some q := by
    by_cases hn : n = pid
    · subst hn
      simp only [World.without, Table.get_erase_self, reduceCtorEq] at hq
    · simp only [World.without, Table.get_erase_of_ne _ hn] at hq
      exact ⟨hn, hq⟩
  refine ⟨fun n q hq job hjob => ?_, fun m n q r hq hr => ?_, fun n stale began body hq => ?_⟩
  · obtain ⟨hn, hq⟩ := back hq
    exact hruns n q hn hq job hjob (h.runs n q hq job hjob)
  · exact h.apart m n q r (back hq).2 (back hr).2
  · exact h.decided n stale began body (back hq).2

/-- A new process holds jobs that run and that no other holds. -/
theorem Held.insert (h : Held execs w) {p : Proc} (hruns : ∀ job ∈ p.held execs, RunsAs w.store.jobs job)
    (hbody : ∀ stale began body, p = .sweep stale began body → Ends (Decides stale) body)
    (hfresh : ∀ n q, w.procs.get n = some q → ∀ job' ∈ q.held execs, ∀ job ∈ p.held execs, job'.id ≠ job.id) :
    Held execs { w with procs := w.procs.insert p } := by
  refine ⟨fun n q hq => ?_, fun m n q r hq hr job hjob job' hjob' hid => ?_, fun n stale began body hq => ?_⟩
  · rcases Table.get_insert_cases hq with ⟨-, rfl⟩ | ⟨-, hq⟩
    · exact hruns
    · exact h.runs n q hq
  · rcases Table.get_insert_cases hq with ⟨hm, rfl⟩ | ⟨-, hq'⟩ <;> rcases Table.get_insert_cases hr with ⟨hn, rfl⟩ | ⟨-, hr'⟩
    · rw [hm, hn]
    · exact absurd hid.symm (hfresh n r hr' job' hjob' job hjob)
    · exact absurd hid (hfresh m q hq' job hjob job' hjob')
    · exact h.apart m n q r hq' hr' job hjob job' hjob' hid
  · rcases Table.get_insert_cases hq with ⟨-, he⟩ | ⟨-, hq⟩
    · exact hbody stale began body he.symm
    · exact h.decided n stale began body hq

/-- The jobs of a claim are handed out one by one. -/
theorem Held.spawn {worker : String} {now : Nat} : ∀ {l : List ClaimedJob} {w : World}, Held execs w →
    (∀ job ∈ l, RunsAs w.store.jobs job) → (l.map ClaimedJob.id).Nodup →
    (∀ n q, w.procs.get n = some q → ∀ job' ∈ q.held execs, ∀ job ∈ l, job'.id ≠ job.id) →
      Held execs { w with procs := World.spawn worker now w.procs l }
  | [], w, h, _, _, _ => h
  | job :: l, w, h, hruns, hnd, hfresh => by
    rw [List.map_cons, List.nodup_cons] at hnd
    have hself : ∀ j ∈ (Proc.exec job worker now (handler job)).held execs, j = job := by
      intro j hj
      cases execs with
      | true => exact List.mem_singleton.1 hj
      | false => cases hj
    have h1 : Held execs { w with procs := w.procs.insert (.exec job worker now (handler job)) } := by
      refine h.insert (fun j hj => ?_) (fun _ _ _ he => nomatch he) fun n q hq job' hjob' j hj => ?_
      · rw [hself j hj]
        exact hruns job List.mem_cons_self
      · rw [hself j hj]
        exact hfresh n q hq job' hjob' job List.mem_cons_self
    refine Held.spawn (w := { w with procs := w.procs.insert (.exec job worker now (handler job)) }) h1
      (fun j hj => hruns j (List.mem_cons_of_mem _ hj)) hnd.2 fun n q hq job' hjob' j hj => ?_
    rcases Table.get_insert_cases hq with ⟨-, rfl⟩ | ⟨-, hq⟩
    · rw [hself job' hjob']
      exact fun he => hnd.1 (he ▸ List.mem_map_of_mem hj)
    · exact hfresh n q hq job' hjob' j (List.mem_cons_of_mem _ hj)

theorem Store.outside_quiet {w w' : Store} {a : Action} (h : w.outside settings a = some w') (n : Nat) :
    Queue.Quiet (w.jobs.get n) (w'.jobs.get n) := by
  cases a <;> simp only [Store.outside, Option.some.injEq, reduceCtorEq] at h <;> subst h
  case planAdapterRun ref => exact Queue.enqueue_quiet _ _ _ _ n
  all_goals exact .same _

theorem Held.moved {a : Action} (h : Held execs w) (hok : execs = true → reclaimsDead w a = true)
    (hm : Moved settings w a t) : Held execs t := by
  cases hm with
  | outside _ store hout =>
    exact ⟨fun pid p hp job hjob => (h.runs pid p hp job hjob).quiet (Store.outside_quiet hout), h.apart, h.decided⟩
  | called r =>
    exact h.insert (fun _ hjob => nomatch hjob) (fun _ _ _ he => nomatch he) fun _ _ _ _ _ _ hjob => nomatch hjob
  | claimed worker limit locked =>
    have h1 : Held execs { w with store := { w.store with jobs := (w.store.claimJobs settings worker limit locked).2 } } :=
      ⟨fun pid p hp job hjob => (h.runs pid p hp job hjob).claim, h.apart, h.decided⟩
    refine h1.spawn (fun job hjob => Queue.runsAs_of_mem_claim hjob) Queue.claim_ids_nodup
      fun n q hq job' hjob' job hjob he => ?_
    exact Queue.not_mem_claimIds_of_runsAs (h.runs n q hq job' hjob') (he ▸ (Queue.mem_claim hjob).1)
  | swept limit locked hidle stale hstale =>
    subst hstale
    refine h.insert (fun job hjob => Queue.runsAs_of_mem_selectStale hjob) (fun stale began body he => ?_)
      fun n q hq job' hjob' job hjob => ?_
    · injection he with h1 h2 h3
      subst h1; subst h3
      exact decided_sweepJobs _
    · cases q with
      | exec job₀ worker began body =>
        cases execs with
        | false => cases hjob'
        | true =>
          obtain rfl := List.mem_singleton.1 hjob'
          have hdead := hok rfl
          simp only [reclaimsDead, List.all_eq_true, Bool.not_eq_true'] at hdead
          exact executing_eq_false (hdead job hjob) hq
      | sweep stale began body => exact absurd hq (sweeping_eq_false hidle)
      | adrift | request => cases hjob'
  | ran pid e hp hn hs =>
    refine h.withProc hp (fun _ hjob => hn.held ▸ hjob) (fun stale began body he => ?_)
      fun job hjob => hjob.quiet (did_of_sem hs).quiet
    cases hn with
    | exec | adrift | request => cases he
    | sweep stale' began' o k x =>
      injection he with h1 h2 h3
      subst h1; subst h3
      exact Ends.op_iff.1 (h.decided pid _ _ _ hp) _
  | raised pid hp => exact h.withProc hp (fun _ hjob => hjob) (fun _ _ _ he => nomatch he) fun _ hjob => hjob
  | lost pid hp => exact h.withProc hp (fun _ hjob => nomatch hjob) (fun _ _ _ he => nomatch he) fun _ hjob => hjob
  | aborted pid e hp => exact h.without pid fun _ _ _ _ _ _ hruns => hruns
  | @executed pid trace draw job worker began r hp hfree =>
    refine h.without pid fun n q hn hq job' hjob' hruns => hruns.finishes (finishJob_finishes _ _ _ _ _ _ _) ?_
    cases q with
    | exec job₀ worker₀ began₀ body =>
      cases execs with
      | false => cases hjob'
      | true => exact fun he => hn (h.apart n pid _ _ hq hp job' hjob' job List.mem_cons_self he)
    | sweep stale began₀ body => exact lockedBySweep_eq_false hfree hq job' hjob'
    | adrift | request => cases hjob'
  | @recovered pid trace draw stale began decisions hp =>
    refine h.without pid fun n q hn hq job' hjob' hruns => hruns.recovered fun d hd he => ?_
    have hds : Decides stale decisions := Ends.ret_iff.1 (h.decided pid _ _ _ hp)
    have hmem : d.1 ∈ stale := hds ▸ List.mem_map_of_mem hd
    exact hn (h.apart n pid _ _ hq hp job' hjob' d.1 hmem he.symm)
  | answered pid trace draw hp => exact h.without pid fun _ _ _ _ _ _ hruns => hruns
  | crashed pid hp => exact h.without pid fun _ _ _ _ _ _ hruns => hruns

/-- **A job runs while it is held, and one process holds it**: a sweep's whatever the steps, an execution's in every run
that reclaims only from the dead. -/
theorem reach_held {ok : World → Action → Prop} (hok : execs = true → ∀ w a, ok w a → reclaimsDead w a = true)
    (h : (system settings).Reach ok w) : Held execs w :=
  Machine.Reach.inv ⟨fun _ _ hp => (nomatch hp), fun _ _ _ _ hp => (nomatch hp), fun _ _ _ _ hp => (nomatch hp)⟩
    (fun w a _ _ hi ha hs => hi.moved (fun he => hok he w a ha) (moved_of_step hs)) h

end Send
end SafeSend
