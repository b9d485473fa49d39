import SafeSend.Search.Planned
/-!
# Where an execution stands

An execution is at a stage of its handler, over the run of its job.  While leases are taken from the dead alone, its job
runs and no other execution has it.
-/
namespace SafeSend
namespace Search

open Lib
open Queue (ClaimedJob JobRow RunsAs)

def Stage.run : Stage → Option LoadedRun
  | loading | ended _ => none
  | starting run | searching run | ranking run _ | deleting run _ _ | failing run _ | crediting run _ | closing run _ =>
    some run
  | landing l _ => some l.run

/-- What a stage holds besides its run. -/
def Stage.Holds (D : Deployment) (job : ClaimedJob) (w : Store) : Stage → Prop
  | landing l _ =>
    (∃ ranked : List Ranked, l.rows = ranked.map (resultRow D.arithmetic l.run)) ∧
      ∀ id ∈ l.deleted, id < w.results.next ∧ ∀ row, w.results.get id = some row → row.adapterRunId = l.run.id
  | closing _ r => concludes job r = true
  | _ => True

structure At (D : Deployment) (w : Store) (p : Proc) (st : Stage) : Prop where
  body : p.body = st.rest D p.job
  refId : p.job.refId = p.job.id
  row : ∃ j, w.jobs.get p.job.id = some j ∧ p.job.attempts ≤ j.attempts
  run : ∀ run, st.run = some run → run.id = p.job.id ∧ ∃ r, w.runs.get run.id = some r ∧ r.searchId = run.searchId
  holds : st.Holds D p.job w

structure Placed (D : Deployment) (w : World) : Prop where
  planned : Planned w.store
  at_stage : ∀ pid p, w.procs.get pid = some p → ∃ st, At D w.store p st

variable {settings : Settings} {D : Deployment} {w t : World} {u v : Store} {p : Proc} {st st' : Stage}

theorem At.extends (h : At D u p st) (hx : Extends u v) : At D v p st where
  body := h.body
  refId := h.refId
  row := by
    obtain ⟨j, hj, ha⟩ := h.row
    obtain ⟨j', hj', -, ha'⟩ := hx.jobs _ j hj
    exact ⟨j', hj', Nat.le_trans ha ha'⟩
  run run hr := by
    obtain ⟨hid, r, hget, hs⟩ := h.run run hr
    obtain ⟨r', hget', hs'⟩ := hx.runs _ r hget
    exact ⟨hid, r', hget', hs'.trans hs⟩
  holds := by
    have hh := h.holds
    cases st with
    | landing l count =>
      refine ⟨hh.1, fun id hid => ?_⟩
      obtain ⟨hlt, hrow⟩ := hh.2 id hid
      exact ⟨Nat.lt_of_lt_of_le hlt hx.next, fun row hget => hrow row (hx.results id row hlt hget)⟩
    | _ => exact hh

theorem load_eq_some {id : Nat} {run : LoadedRun} (h : u.load id = some run) :
    run.id = id ∧ ∃ r, u.runs.get id = some r ∧ r.searchId = run.searchId := by
  simp only [Store.load, Option.bind_eq_some_iff, Option.map_eq_some_iff] at h
  obtain ⟨r, hr, s, -, rfl⟩ := h
  exact ⟨rfl, r, hr, rfl⟩

theorem mem_resultIds {runId id : Nat} (h : id ∈ u.resultIds runId) :
    ∃ row, u.results.get id = some row ∧ row.adapterRunId = runId := by
  unfold Store.resultIds at h
  obtain ⟨⟨n, row⟩, hm, rfl⟩ := List.mem_map.1 h
  obtain ⟨hm, hrun⟩ := List.mem_filter.1 hm
  exact ⟨row, Table.mem_rows.1 hm, beq_iff_eq.1 hrun⟩

theorem run_succeeded (run : LoadedRun) : (Stage.succeeded run).run = some run := by
  unfold Stage.succeeded
  cases run.connectionId <;> rfl

/-- The stage an operation leads to is over the same run. -/
theorem Stage.Next.run {job : ClaimedJob} (h : Stage.Next D job u st st' v) {run : LoadedRun} (hr : st'.run = some run) :
    st.run = some run ∨ u.load job.refId = some run := by
  cases h with
  | gone | closed => cases hr
  | loaded hl => exact .inr (hl.trans hr)
  | landed l count => exact .inl ((run_succeeded l.run).symm.trans hr)
  | recordedFailure run₀ exc =>
    unfold Stage.recorded at hr
    split at hr
    · cases hr
    · exact .inl hr
  | _ => exact .inl hr

theorem Stage.Next.holds {job : ClaimedJob} (h : Stage.Next D job u st st' v) (hh : st.Holds D job u) :
    st'.Holds D job v := by
  cases h with
  | gone | loaded | started | unknown | failed | found | unranked | ranked | closed => trivial
  | deleted run ranked mode =>
    refine ⟨⟨ranked, rfl⟩, fun id hid => ?_⟩
    obtain ⟨row, hrow, hrun⟩ := mem_resultIds hid
    refine ⟨Table.lt_next_of_get hrow, fun row' hrow' => ?_⟩
    obtain rfl := Option.some.inj (hrow.symm.trans hrow')
    exact hrun
  | landed l count =>
    unfold Stage.succeeded
    cases l.run.connectionId with
    | none => rfl
    | some id => trivial
  | recordedFailure run exc =>
    unfold Stage.recorded
    split
    · trivial
    · rename_i hno
      show (!willRetry job exc) = true
      rw [Bool.not_eq_true] at hno
      rw [hno]
      rfl
  | credited run id connections => rfl

theorem At.next (h : At D u p st) (hn : Stage.Next D p.job u st st' v) : At D v { p with body := st'.rest D p.job } st' := by
  have hx := h.extends hn.extends
  refine ⟨rfl, hx.refId, hx.row, fun run hr => ?_, hn.holds h.holds⟩
  rcases hn.run hr with hrun | hl
  · exact hx.run run hrun
  · obtain ⟨hid, r, hr, hs⟩ := load_eq_some hl
    obtain ⟨r', hr', hs'⟩ := hn.extends.runs _ r hr
    exact ⟨hid.trans h.refId, r', hid ▸ hr', hs'.trans hs⟩

/-- An execution that is cut short is at its end. -/
theorem At.ended (h : At D u p st) (r : Except Exn Unit) : At D u { p with body := .ret r } (.ended r) :=
  ⟨rfl, h.refId, h.row, fun _ he => (nomatch he), trivial⟩

theorem Placed.of_stays (h : Placed D w) {store : Store} (hs : Stays w.store store) : Placed D { w with store := store } := by
  refine ⟨h.planned.stays hs, fun pid p hp => ?_⟩
  obtain ⟨st, hat⟩ := h.at_stage pid p hp
  exact ⟨st, hat.extends hs.toExtends⟩

theorem Placed.withBody (h : Placed D w) {pid : Nat} {p : Proc} (hp : w.procs.get pid = some p) {store : Store}
    {body : SearchProg (Except Exn Unit)} (hs : Stays w.store store)
    (hat : ∃ st, At D store { p with body := body } st) : Placed D (w.withBody pid body store) := by
  refine ⟨(h.of_stays hs).planned, fun n q hq => ?_⟩
  rcases Table.get_modify_cases hq with ⟨rfl, q₀, hq₀, rfl⟩ | ⟨-, hq⟩
  · obtain rfl := Option.some.inj (hp.symm.trans hq₀)
    exact hat
  · exact (h.of_stays hs).at_stage n q hq

theorem get_without {pid n : Nat} {jobs : Queue.Jobs} {q : Proc} (hq : (w.without pid jobs).procs.get n = some q) :
    n ≠ pid ∧ w.procs.get n = some q := by
  have hn : n ≠ pid := by
    rintro rfl
    rw [World.without, Table.get_erase_self] at hq
    cases hq
  rw [World.without, Table.get_erase_of_ne _ hn] at hq
  exact ⟨hn, hq⟩

theorem get_withBody {pid n : Nat} {body : SearchProg (Except Exn Unit)} {q : Proc} (hp : w.procs.get pid = some p)
    (hq : (w.withBody pid body u).procs.get n = some q) :
    n = pid ∧ q = { p with body := body } ∨ n ≠ pid ∧ w.procs.get n = some q := by
  rcases Table.get_modify_cases hq with ⟨rfl, q₀, hq₀, rfl⟩ | ⟨hne, hq⟩
  · obtain rfl := Option.some.inj (hp.symm.trans hq₀)
    exact .inl ⟨rfl, rfl⟩
  · exact .inr ⟨hne, hq⟩

theorem Placed.without (h : Placed D w) (pid : Nat) {jobs : Queue.Jobs} (hs : Stays w.store { w.store with jobs := jobs }) :
    Placed D (w.without pid jobs) :=
  ⟨(h.of_stays hs).planned, fun n q hq => (h.of_stays hs).at_stage n q (get_without hq).2⟩

/-- An execution at a stage takes its next operation to the next one. -/
theorem Placed.ran (h : Placed D w) {pid : Nat} {e : Env} {p : Proc} {body : SearchProg (Except Exn Unit)} {store : Store}
    (hp : w.procs.get pid = some p) (hs : p.body.step sem e w.store = some (body, store)) :
    ∃ st st', At D w.store p st ∧ body = st'.rest D p.job ∧ Stage.Next D p.job w.store st st' store := by
  obtain ⟨st, hat⟩ := h.at_stage pid p hp
  rw [hat.body] at hs
  obtain ⟨st', hbody, hn⟩ := Stage.next_of_step hs
  exact ⟨st, st', hat, hbody, hn⟩

/-- An execution begins by loading the run of the job it was handed. -/
theorem Placed.handed (h : Placed D w) {worker : String} {limit : Nat} {locked : Nat → Bool} {job : ClaimedJob}
    (hjob : job ∈ (w.store.claimJobs settings worker limit locked).1) (now : Nat) :
    At D { w.store with jobs := (w.store.claimJobs settings worker limit locked).2 }
      ⟨job, worker, now, runAdapter D job⟩ .loading := by
  obtain ⟨-, j, hj, -, hc, he⟩ := Queue.mem_claim hjob
  refine ⟨rfl, ?_, ⟨_, hc, ?_⟩, fun _ hr => (nomatch hr), trivial⟩
  · have href : job.refId = j.refId := congrArg ClaimedJob.refId he
    exact href.trans (h.planned.job_of_get hj).2.1
  · exact Nat.le_of_eq (congrArg ClaimedJob.attempts he)

theorem Placed.moved {a : Action} (h : Placed D w) (hm : Moved settings D w a t) : Placed D t := by
  cases hm with
  | outside _ store hout =>
    rcases h.planned.outside hout with ⟨hp, ho⟩ | hs
    · refine ⟨hp, fun pid p hp => ?_⟩
      obtain ⟨st, hat⟩ := h.at_stage pid p hp
      exact ⟨st, hat.extends (ho.extends h.planned)⟩
    · exact h.of_stays hs
  | claimed worker limit locked =>
    have hs : Stays w.store { w.store with jobs := (w.store.claimJobs settings worker limit locked).2 } :=
      stays_of_jobs Queue.claim_move rfl
    refine ⟨(h.of_stays hs).planned, fun pid p hp => ?_⟩
    rcases spawn_get hp with hp | ⟨-, job, hjob, rfl⟩
    · exact (h.of_stays hs).at_stage pid p hp
    · exact ⟨.loading, h.handed hjob _⟩
  | ran pid e hp hs =>
    obtain ⟨st, st', hat, rfl, hn⟩ := h.ran hp hs
    exact h.withBody hp hn.stays ⟨st', hat.next hn⟩
  | timedOut pid hp hbody =>
    obtain ⟨st, hat⟩ := h.at_stage pid _ hp
    exact h.withBody hp { Extends.refl _ with nextRun := rfl, nextJob := rfl } ⟨_, hat.ended _⟩
  | @finished pid trace draw p r hp hbody =>
    exact h.without pid (stays_of_jobs (finished_finishes w.store p trace draw r).move (next_finished _ _ _ _ _))
  | crashed pid hp => exact h.without pid (stays_of_jobs (fun n => .same _) rfl)

theorem reach_placed {ok : World → Action → Prop} (h : (system settings D).Reach ok w) : Placed D w := by
  refine Machine.Reach.inv ⟨⟨rfl, fun n hn => ?_, fun n hn => ?_⟩, fun _ _ hp => nomatch hp⟩
    (fun w a _ _ hi _ hs => hi.moved (moved_of_step hs)) h
  · exact absurd hn (Nat.not_lt_zero n)
  · exact absurd hn (Nat.not_lt_zero n)

/-! ## The outcome -/

/-- The execution has recorded its outcome, and closes the search. -/
def Proc.closes (p : Proc) : Bool :=
  match p.body with
  | .op (.recordSuccess _) _ | .op (.closeSearch _) _ => true
  | _ => false

/-- The execution is at an end after which its job is not run again. -/
def Proc.concluded (p : Proc) : Bool :=
  match p.body with
  | .ret r => concludes p.job r
  | .op _ _ => false

def Stage.closes : Stage → Bool
  | crediting _ _ | closing _ _ => true
  | _ => false

def Stage.concluded (job : ClaimedJob) : Stage → Bool
  | ended r => concludes job r
  | _ => false

theorem At.closes_eq (h : At D u p st) : p.closes = st.closes := by
  rw [Proc.closes, h.body]
  cases st <;> rfl

theorem At.concluded_eq (h : At D u p st) : p.concluded = st.concluded p.job := by
  rw [Proc.concluded, h.body]
  cases st <;> rfl

/-- An execution comes to its final end by closing its search, or by finding no run. -/
theorem Stage.Next.concluded {job : ClaimedJob} (h : Stage.Next D job u st st' v) (hc : st'.concluded job = true) :
    u.load job.refId = none ∨ ∃ run r, st = .closing run r ∧ v = u.closeSearch run.searchId := by
  cases h with
  | gone hl => exact .inl hl
  | landed l count =>
    unfold Stage.succeeded at hc
    cases hid : l.run.connectionId with
    | none => rw [hid] at hc; cases hc
    | some id => rw [hid] at hc; cases hc
  | recordedFailure run exc =>
    unfold Stage.recorded at hc
    split at hc
    · rename_i hw
      change (!willRetry job exc) = true at hc
      rw [hw] at hc
      cases hc
    · cases hc
  | closed run r => exact .inr ⟨run, r, rfl, rfl⟩
  | _ => cases hc

/-- Only closing writes a search. -/
theorem Stage.Next.searches {job : ClaimedJob} (h : Stage.Next D job u st st' v) :
    v.searches = u.searches ∨ ∃ run r, st = .closing run r ∧ v = u.closeSearch run.searchId := by
  cases h with
  | closed run r => exact .inr ⟨run, r, rfl, rfl⟩
  | _ => exact .inl rfl

/-- An execution writes no other run. -/
theorem At.others (h : At D u p st) (hn : Stage.Next D p.job u st st' v) {n : Nat} (hne : n ≠ p.job.id) :
    v.runs.get n = u.runs.get n := by
  have hid {run : LoadedRun} (hr : st.run = some run) : n ≠ run.id := by
    rw [(h.run run hr).1]
    exact hne
  cases hn with
  | started run | unknown run | recordedFailure run => exact Table.get_modify_of_ne _ _ (hid rfl)
  | landed l => exact Table.get_modify_of_ne _ _ (hid rfl)
  | _ => rfl

theorem outstanding_failedRow (now : Nat) (exc : Exn) (errorClass : ErrorClass) (detail : String) (r : AdapterRunRow) :
    outstanding (failedRow now (failureStatus exc) errorClass detail r) = false := by
  unfold failureStatus
  cases classify exc <;> rfl

/-- **What closes the search has recorded the outcome of its run.** -/
theorem At.outcome (h : At D u p st) (hn : Stage.Next D p.job u st st' v) (hc : st'.closes = true)
    (hu : st.closes = true → ∀ r, u.runs.get p.job.id = some r → outstanding r = false) {r : AdapterRunRow}
    (hr : v.runs.get p.job.id = some r) : outstanding r = false := by
  cases hn with
  | landed l count =>
    rcases Table.get_modify_cases hr with ⟨-, r₀, -, rfl⟩ | ⟨hne, -⟩
    · rfl
    · exact absurd (h.run l.run rfl).1.symm hne
  | recordedFailure run exc =>
    rcases Table.get_modify_cases hr with ⟨-, r₀, -, rfl⟩ | ⟨hne, -⟩
    · exact outstanding_failedRow _ _ _ _ _
    · exact absurd (h.run run rfl).1.symm hne
  | credited => exact hu rfl r hr
  | _ => cases hc

/-! ## Holding -/

/-- A live execution has the job. -/
def World.executing (w : World) (id : Nat) : Bool := w.procs.any fun _ p => p.job.id == id

/-- A sweep finds stale only jobs whose worker takes no more steps. -/
def reclaimsDead (w : World) : Action → Bool
  | .sweep began limit locked =>
    (Queue.selectStale began limit locked w.store.jobs).all fun j => !w.executing j.id
  | _ => true

structure Held (w : World) : Prop where
  runs : ∀ pid p, w.procs.get pid = some p → RunsAs w.store.jobs p.job ∧ p.job.claimedBy = some p.worker
  apart : ∀ pid pid' p p', w.procs.get pid = some p → w.procs.get pid' = some p' → p.job.id = p'.job.id → pid = pid'

theorem executing_eq_true {id : Nat} : w.executing id = true ↔ ∃ pid p, w.procs.get pid = some p ∧ p.job.id = id := by
  simp only [World.executing, Table.any_eq_true, beq_iff_eq]

theorem Held.of_jobs (h : Held w) {store : Store}
    (hr : ∀ job, RunsAs w.store.jobs job → w.executing job.id = true → RunsAs store.jobs job) :
    Held { w with store := store } := by
  refine ⟨fun pid p hp => ⟨hr p.job (h.runs pid p hp).1 ?_, (h.runs pid p hp).2⟩, h.apart⟩
  exact executing_eq_true.2 ⟨pid, p, hp, rfl⟩

theorem Held.withBody (h : Held w) {pid : Nat} {body : SearchProg (Except Exn Unit)} {store : Store}
    (hj : store.jobs = w.store.jobs) : Held (w.withBody pid body store) := by
  have back {n : Nat} {q : Proc} (hq : (w.withBody pid body store).procs.get n = some q) :
      ∃ q₀, w.procs.get n = some q₀ ∧ q.job = q₀.job ∧ q.worker = q₀.worker := by
    rcases Table.get_modify_cases hq with ⟨-, q₀, hq₀, rfl⟩ | ⟨-, hq⟩
    · exact ⟨q₀, hq₀, rfl, rfl⟩
    · exact ⟨q, hq, rfl, rfl⟩
  refine ⟨fun n q hq => ?_, fun m n q r hq hr hid => ?_⟩
  · obtain ⟨q₀, hq₀, hjob, hworker⟩ := back hq
    obtain ⟨hruns, hby⟩ := h.runs n q₀ hq₀
    rw [hjob, hworker]
    exact ⟨by show RunsAs store.jobs _; rw [hj]; exact hruns, hby⟩
  · obtain ⟨q₀, hq₀, hjob, -⟩ := back hq
    obtain ⟨r₀, hr₀, hjob', -⟩ := back hr
    exact h.apart m n q₀ r₀ hq₀ hr₀ (by rw [← hjob, ← hjob']; exact hid)

/-- An execution ends, and the jobs of the others still run. -/
theorem Held.without (h : Held w) (pid : Nat) {jobs : Queue.Jobs}
    (hr : ∀ n q, n ≠ pid → w.procs.get n = some q → RunsAs w.store.jobs q.job → RunsAs jobs q.job) :
    Held (w.without pid jobs) := by
  refine ⟨fun n q hq => ?_, fun m n q r hq hr => h.apart m n q r (get_without hq).2 (get_without hr).2⟩
  obtain ⟨hn, hq⟩ := get_without hq
  exact ⟨hr n q hn hq (h.runs n q hq).1, (h.runs n q hq).2⟩

/-- The jobs of a claim are handed out one by one. -/
theorem Held.spawn {worker : String} {now : Nat} : ∀ {l : List ClaimedJob} {w : World}, Held w →
    (∀ job ∈ l, RunsAs w.store.jobs job ∧ job.claimedBy = some worker) → (l.map ClaimedJob.id).Nodup →
    (∀ job ∈ l, w.executing job.id = false) → Held { w with procs := World.spawn D worker now w.procs l }
  | [], w, h, _, _, _ => h
  | job :: l, w, h, hruns, hnd, hfree => by
    rw [List.map_cons, List.nodup_cons] at hnd
    have hother : ∀ n q, w.procs.get n = some q → ∀ j ∈ job :: l, q.job.id ≠ j.id := by
      intro n q hq j hj he
      have := hfree j hj
      rw [executing_eq_true.2 ⟨n, q, hq, he⟩] at this
      cases this
    have h1 : Held { w with procs := w.procs.insert ⟨job, worker, now, runAdapter D job⟩ } := by
      refine ⟨fun n q hq => ?_, fun m n q r hq hr hid => ?_⟩
      · rcases Table.get_insert_cases hq with ⟨-, rfl⟩ | ⟨-, hq⟩
        · exact hruns job List.mem_cons_self
        · exact h.runs n q hq
      · rcases Table.get_insert_cases hq with ⟨hm, rfl⟩ | ⟨-, hq⟩ <;> rcases Table.get_insert_cases hr with ⟨hn, rfl⟩ | ⟨-, hr⟩
        · rw [hm, hn]
        · exact absurd hid.symm (hother n r hr job List.mem_cons_self)
        · exact absurd hid (hother m q hq job List.mem_cons_self)
        · exact h.apart m n q r hq hr hid
    refine Held.spawn (w := { w with procs := w.procs.insert ⟨job, worker, now, runAdapter D job⟩ }) h1
      (fun j hj => hruns j (List.mem_cons_of_mem _ hj)) hnd.2 fun j hj => ?_
    rw [World.executing, Table.any_eq_false]
    intro n q hq
    rw [beq_eq_false_iff_ne]
    rcases Table.get_insert_cases hq with ⟨-, rfl⟩ | ⟨-, hq⟩
    · exact fun he => hnd.1 (he ▸ List.mem_map_of_mem hj)
    · exact hother n q hq j (List.mem_cons_of_mem _ hj)

/-- What a sweep recovers: a job that is executed by no one, if it reclaims from the dead. -/
theorem swept_get {began limit : Nat} {locked : Nat → Bool} (hok : reclaimsDead w (.sweep began limit locked) = true)
    {n : Nat} (hn : w.executing n = true) :
    (Queue.applyRecoveries began w.store.jobs ((Queue.selectStale began limit locked w.store.jobs).map
      fun job => (job, Queue.recover job none))).get n = w.store.jobs.get n := by
  rcases Queue.applyRecoveries_get began ((Queue.selectStale began limit locked w.store.jobs).map
    fun job => (job, Queue.recover job none)) w.store.jobs n with ⟨he, -⟩ | ⟨d, hd, hid, -⟩
  · exact he
  · obtain ⟨job, hjob, rfl⟩ := List.mem_map.1 hd
    have hdead := List.all_eq_true.1 hok job hjob
    rw [show job.id = n from hid, hn] at hdead
    cases hdead

/-- The job of an execution is as it was, whatever happens outside. -/
theorem Held.outside (h : Held w) (hp : Planned w.store) {a : Action} (hok : reclaimsDead w a = true)
    (hs : w.store.outside settings D.registry a = some v) {n : Nat} (hn : w.executing n = true) :
    v.jobs.get n = w.store.jobs.get n := by
  cases a <;> simp only [Store.outside, Option.some.injEq, reduceCtorEq, Option.ite_none_right_eq_some] at hs
  case plan userId query sources =>
    subst hs
    rcases hp.planSearch D.registry userId query sources with he | ⟨-, ho⟩
    · rw [he]
    · obtain ⟨pid, p, hproc, rfl⟩ := executing_eq_true.1 hn
      obtain ⟨j, hj, -⟩ := (h.runs pid p hproc).1
      exact ho.grows.jobs _ (hp.level ▸ Table.lt_next_of_get hj)
  case sweep began limit locked =>
    obtain ⟨-, rfl⟩ := hs
    exact swept_get hok hn
  all_goals
    subst hs
    rfl

theorem Held.moved {a : Action} (h : Held w) (hp : Placed D w) (hok : reclaimsDead w a = true)
    (hm : Moved settings D w a t) : Held t := by
  cases hm with
  | outside _ store hout =>
    refine h.of_jobs fun job hruns hn => ?_
    obtain ⟨j, hj, hs, he⟩ := hruns
    exact ⟨j, (h.outside hp.planned hok hout hn).trans hj, hs, he⟩
  | claimed worker limit locked =>
    have h1 : Held { w with store := { w.store with jobs := (w.store.claimJobs settings worker limit locked).2 } } :=
      h.of_jobs fun job hruns _ => hruns.claim
    refine h1.spawn (fun job hjob => ⟨Queue.runsAs_of_mem_claim hjob, ?_⟩) Queue.claim_ids_nodup fun job hjob => ?_
    · obtain ⟨-, j, -, -, -, he⟩ := Queue.mem_claim hjob
      exact congrArg ClaimedJob.claimedBy he
    · rw [World.executing, Table.any_eq_false]
      intro n q hq
      rw [beq_eq_false_iff_ne]
      intro he
      exact Queue.not_mem_claimIds_of_runsAs (h.runs n q hq).1 (he ▸ (Queue.mem_claim hjob).1)
  | ran pid e hproc hs =>
    obtain ⟨st, st', -, -, hn⟩ := hp.ran hproc hs
    exact h.withBody hn.jobs
  | timedOut pid hproc hbody => exact h.withBody rfl
  | @finished pid trace draw p r hproc hbody =>
    refine h.without pid fun n q hn hq hruns => hruns.finishes (finished_finishes w.store p trace draw r) ?_
    exact fun he => hn (h.apart n pid q p hq hproc he)
  | crashed pid hproc => exact h.without pid fun _ _ _ _ hruns => hruns

/-- **A job runs while an execution has it, and one execution has it**, in every run that reclaims only from the dead. -/
theorem reach_held {ok : World → Action → Prop} (hok : ∀ w a, ok w a → reclaimsDead w a = true)
    (h : (system settings D).Reach ok w) : Placed D w ∧ Held w := by
  refine ⟨reach_placed h, ?_⟩
  refine Machine.Reach.inv ⟨fun _ _ hp => (nomatch hp), fun _ _ _ _ hp => (nomatch hp)⟩ (fun w a t hw hi ha hs => ?_) h
  exact hi.moved (reach_placed hw) (hok w a ha) (moved_of_step hs)

end Search
end SafeSend
