import SafeSend.Search.Held
/-!
# Every search closes

A run that has no outcome, and a search that is not finished, are in the charge of a job that is still to be executed, or
is being executed.
-/
namespace SafeSend
namespace Search

open Lib
open Queue (ClaimedJob JobRow RunsAs)

/-- The job is to be executed, or runs and no execution of it is at its final end. -/
def World.pending (w : World) (id : Nat) : Bool :=
  (w.store.jobs.get id).any fun j =>
    j.state == .ready || j.state == .running && !w.procs.any fun _ p => p.job.id == id && p.concluded

/-- The run has its outcome, and its search is finished or has another run to close it, one that is not cut off. -/
def World.dispensable (w : World) (cut : Nat → Bool) (id : Nat) : Bool :=
  (w.store.runs.get id).all fun r => !outstanding r &&
    ((w.store.searches.get r.searchId).all (fun s => s.finishedAt.isSome) ||
      w.store.runs.any fun n r' => r'.searchId == r.searchId && !cut n && w.pending n)

/-- The sweep parks the job. -/
def World.parks (w : World) (began limit : Nat) (locked : Nat → Bool) (id : Nat) : Bool :=
  (Queue.selectStale began limit locked w.store.jobs).any fun job => job.id == id && decide (job.maxAttempts ≤ job.attempts)

/-- The step reclaims from no live execution, and cuts off no last attempt that is still needed. -/
def keepsClosing (w : World) : Action → Bool
  | .sweep began limit locked =>
    reclaimsDead w (.sweep began limit locked) &&
      (Queue.selectStale began limit locked w.store.jobs).all fun job =>
        !w.parks began limit locked job.id || w.dispensable (w.parks began limit locked) job.id
  | .timeout pid =>
    (w.procs.get pid).all fun p => willRetry p.job (.os "") || w.dispensable (fun n => n == p.job.id) p.job.id
  | _ => true

/-- Every job of the search is terminal, and no worker executes one. -/
def AtRest (w : World) (searchId : Nat) : Prop :=
  ∀ n r, w.store.runs.get n = some r → r.searchId = searchId → ∀ m j, w.store.jobs.get m = some j → j.refId = n →
    j.live = false ∧ w.executing m = false

def SearchesClose (w : World) : Prop :=
  ∀ s row, w.store.searches.get s = some row → AtRest w s →
    (∀ n r, w.store.runs.get n = some r → r.searchId = s → outstanding r = false) ∧ row.finishedAt.isSome

structure Tended (w : World) : Prop where
  runs : ∀ n r, w.store.runs.get n = some r → outstanding r = true → w.pending n = true
  searches : ∀ s row, w.store.searches.get s = some row → row.finishedAt = none →
    ∃ n r, w.store.runs.get n = some r ∧ r.searchId = s ∧ w.pending n = true
  closing : ∀ pid p, w.procs.get pid = some p → p.closes = true → ∀ r, w.store.runs.get p.job.id = some r →
    outstanding r = false

variable {settings : Settings} {D : Deployment} {w t : World} {u v : Store} {p : Proc} {st st' : Stage} {id : Nat}

theorem pending_iff : w.pending id = true ↔ ∃ j, w.store.jobs.get id = some j ∧ (j.state = .ready ∨
    j.state = .running ∧ ∀ pid p, w.procs.get pid = some p → p.job.id = id → p.concluded = false) := by
  unfold World.pending
  simp only [Option.any_eq_true, Bool.or_eq_true, Bool.and_eq_true, beq_iff_eq, Bool.not_eq_true', Table.any_eq_false,
    Bool.and_eq_false_imp]

/-- A job that is as it was is pending as it was, if no execution of it has come to its end. -/
theorem pending_mono (h : w.pending id = true) (hj : t.store.jobs.get id = w.store.jobs.get id)
    (hp : ∀ pid p, t.procs.get pid = some p → p.job.id = id → p.concluded = true → w.procs.get pid = some p) :
    t.pending id = true := by
  rw [pending_iff] at h ⊢
  obtain ⟨j, hget, hs⟩ := h
  refine ⟨j, hj.trans hget, hs.imp_right fun ⟨hr, hnone⟩ => ⟨hr, fun pid p hq hid => ?_⟩⟩
  by_contra hc
  rw [Bool.not_eq_false] at hc
  have := hnone pid p (hp pid p hq hid hc) hid
  rw [hc] at this
  cases this

/-- The job of an execution that goes on is pending. -/
theorem Held.pending (h : Held w) {pid : Nat} (hp : w.procs.get pid = some p) (hc : p.concluded = false) :
    w.pending p.job.id = true := by
  obtain ⟨j, hj, hs, -⟩ := (h.runs pid p hp).1
  refine pending_iff.2 ⟨j, hj, .inr ⟨hs, fun pid' p' hp' hid => ?_⟩⟩
  obtain rfl := h.apart pid' pid p' p hp' hp hid
  obtain rfl := Option.some.inj (hp'.symm.trans hp)
  exact hc

/-- A step that writes neither runs nor searches, and cuts off what is dispensable alone. -/
theorem Tended.cut (h : Tended w) (cut : Nat → Bool) (hruns : t.store.runs = w.store.runs)
    (hsearches : t.store.searches = w.store.searches)
    (hkeep : ∀ n, w.pending n = true → cut n = false → t.pending n = true)
    (hcut : ∀ n, cut n = true → w.dispensable cut n = true)
    (hclosing : ∀ pid p, t.procs.get pid = some p → p.closes = true → w.procs.get pid = some p) : Tended t := by
  have hsaved {n : Nat} {r : AdapterRunRow} (hr : w.store.runs.get n = some r) (hc : cut n = true) :
      outstanding r = false ∧ ((w.store.searches.get r.searchId).all (fun s => s.finishedAt.isSome) = true ∨
        ∃ m r', w.store.runs.get m = some r' ∧ r'.searchId = r.searchId ∧ cut m = false ∧ w.pending m = true) := by
    have hd := hcut n hc
    simp only [World.dispensable, hr, Option.all_some, Bool.and_eq_true, Bool.not_eq_true', Bool.or_eq_true,
      Table.any_eq_true, beq_iff_eq, and_assoc] at hd
    exact hd
  refine ⟨fun n r hr ho => ?_, fun s row hs hnone => ?_, fun pid p hp hc r hr => ?_⟩
  · rw [hruns] at hr
    refine hkeep n (h.runs n r hr ho) ?_
    by_contra hc
    rw [(hsaved hr (Bool.not_eq_false _ ▸ hc)).1] at ho
    cases ho
  · rw [hsearches] at hs
    obtain ⟨n, r, hr, hsid, hpend⟩ := h.searches s row hs hnone
    rw [hruns]
    by_cases hc : cut n = true
    · rcases (hsaved hr hc).2 with hfin | ⟨m, r', hr', hsid', hm, hpend'⟩
      · rw [hsid, hs, Option.all_some, hnone] at hfin
        cases hfin
      · exact ⟨m, r', hr', hsid'.trans hsid, hkeep m hpend' hm⟩
    · exact ⟨n, r, hr, hsid, hkeep n hpend (Bool.not_eq_true _ ▸ hc)⟩
  · rw [hruns] at hr
    exact h.closing pid p (hclosing pid p hp hc) hc r hr

/-- What another execution does leaves a job pending. -/
theorem pending_withBody {pid : Nat} {body : SearchProg (Except Exn Unit)} (hp : w.procs.get pid = some p)
    (hj : u.jobs = w.store.jobs) (hne : id ≠ p.job.id) (h : w.pending id = true) :
    (w.withBody pid body u).pending id = true := by
  refine pending_mono h (congrArg (fun t => t.get id) hj) fun n q hq hid _ => ?_
  rcases get_withBody hp hq with ⟨-, rfl⟩ | ⟨-, hq⟩
  · exact absurd hid.symm hne
  · exact hq

/-- An operation after which the execution goes on, or waits for its retry. -/
theorem Tended.goes (h : Tended w) (hh : Held w) {pid : Nat} (hp : w.procs.get pid = some p) (hat : At D w.store p st)
    (hn : Stage.Next D p.job w.store st st' u) (hs : u.searches = w.store.searches)
    (hpend : (w.withBody pid (st'.rest D p.job) u).pending p.job.id = true) :
    Tended (w.withBody pid (st'.rest D p.job) u) := by
  have hkeep (n : Nat) (hpn : w.pending n = true) : (w.withBody pid (st'.rest D p.job) u).pending n = true := by
    by_cases hid : n = p.job.id
    · rw [hid]
      exact hpend
    · exact pending_withBody hp hn.jobs hid hpn
  refine ⟨fun n r hr ho => ?_, fun s row hrow hnone => ?_, fun n q hq hc r hr => ?_⟩
  · by_cases hid : n = p.job.id
    · rw [hid]
      exact hpend
    · exact hkeep n (h.runs n r ((hat.others hn hid).symm.trans hr) ho)
  · obtain ⟨n, r, hr, hsid, hpn⟩ := h.searches s row (hs ▸ hrow) hnone
    obtain ⟨r', hr', hsid'⟩ := hn.extends.runs n r hr
    exact ⟨n, r', hr', hsid'.trans hsid, hkeep n hpn⟩
  · rcases get_withBody hp hq with ⟨rfl, rfl⟩ | ⟨hne, hq⟩
    · have hnext := (hat.next hn).closes_eq
      refine hat.outcome hn (hnext.symm.trans hc) (fun hcl => h.closing n p hp ?_) hr
      exact hat.closes_eq.trans hcl
    · by_cases hid : q.job.id = p.job.id
      · exact absurd (hh.apart n pid q p hq hp hid) hne
      · exact h.closing n q hq hc r ((hat.others hn hid).symm.trans hr)

theorem unfinished_eq_true {searchId : Nat} : u.unfinished searchId = true ↔
    ∃ n r, u.runs.get n = some r ∧ r.searchId = searchId ∧ outstanding r = true := by
  simp only [Store.unfinished, Table.any_eq_true, Bool.and_eq_true, beq_iff_eq]

/-- **Closing leaves the search finished, or with a run that has no outcome.** -/
theorem closeSearch_get {searchId s : Nat} {row : SearchRow} (hs : (u.closeSearch searchId).searches.get s = some row)
    (hnone : row.finishedAt = none) :
    u.searches.get s = some row ∧ (s = searchId → u.unfinished searchId = true) := by
  simp only [Store.closeSearch] at hs
  rcases Table.get_updateWhere_cases u.searches searchId (fun s => s.finishedAt.isNone && !u.unfinished searchId)
    (fun s => { s with finishedAt := some u.now }) s with he | ⟨rfl, row₀, -, -, he⟩
  · rw [he] at hs
    refine ⟨hs, ?_⟩
    rintro rfl
    by_contra hu
    rw [Bool.not_eq_true] at hu
    rw [Table.get_updateWhere_hit _ hs (by rw [hnone, hu]; rfl), hs, Option.some.injEq] at he
    rw [← he] at hnone
    cases hnone
  · rw [he, Option.some.injEq] at hs
    rw [← hs] at hnone
    cases hnone

theorem Tended.closed (h : Tended w) {pid : Nat} {run : LoadedRun} {r : Except Exn Unit}
    (hp : w.procs.get pid = some p) (hat : At D w.store p (.closing run r)) :
    Tended (w.withBody pid (.ret r) (w.store.closeSearch run.searchId)) := by
  have hdone {r' : AdapterRunRow} (hr : w.store.runs.get p.job.id = some r') : outstanding r' = false :=
    h.closing pid p hp hat.closes_eq r' hr
  have hout {n : Nat} {r' : AdapterRunRow} (hr : w.store.runs.get n = some r') (ho : outstanding r' = true) :
      (w.withBody pid (.ret r) (w.store.closeSearch run.searchId)).pending n = true := by
    refine pending_withBody hp rfl ?_ (h.runs n r' hr ho)
    rintro rfl
    rw [hdone hr] at ho
    cases ho
  refine ⟨fun n r' hr ho => hout hr ho, fun s row hs hnone => ?_, fun n q hq hc r' hr => ?_⟩
  · obtain ⟨hrow, hopen⟩ := closeSearch_get hs hnone
    by_cases hsid : s = run.searchId
    · obtain ⟨n, r', hr, hid, ho⟩ := unfinished_eq_true.1 (hopen hsid)
      exact ⟨n, r', hr, hid.trans hsid.symm, hout hr ho⟩
    · obtain ⟨n, r', hr, hid, hpn⟩ := h.searches s row hrow hnone
      refine ⟨n, r', hr, hid, pending_withBody hp rfl ?_ hpn⟩
      rintro rfl
      obtain ⟨hrid, r₀, hr₀, hs₀⟩ := hat.run run rfl
      rw [hrid, hr, Option.some.injEq] at hr₀
      exact hsid (hid.symm.trans (hr₀ ▸ hs₀))
  · rcases get_withBody hp hq with ⟨rfl, rfl⟩ | ⟨hne, hq⟩
    · cases hc
    · exact h.closing n q hq hc r' hr

theorem Placed.load (h : Placed D w) (hat : At D w.store p st) : w.store.load p.job.refId ≠ none := by
  obtain ⟨j, hj, -⟩ := hat.row
  obtain ⟨r, hr, hs⟩ := h.planned.run _ (h.planned.level ▸ Table.lt_next_of_get hj)
  obtain ⟨s, hs⟩ := Option.isSome_iff_exists.1 hs
  rw [Store.load, hat.refId, hr, Option.bind_some, hs]
  exact Option.some_ne_none _

/-- **An operation of an execution.** -/
theorem Tended.ran (h : Tended w) (hpl : Placed D w) (hh : Held w) {pid : Nat} (hp : w.procs.get pid = some p)
    (hat : At D w.store p st) (hn : Stage.Next D p.job w.store st st' u)
    (hh' : Held (w.withBody pid (st'.rest D p.job) u)) : Tended (w.withBody pid (st'.rest D p.job) u) := by
  by_cases hclose : ∃ run r, st = .closing run r ∧ u = w.store.closeSearch run.searchId
  · obtain ⟨run, r, rfl, rfl⟩ := hclose
    cases hn with
    | closed => exact h.closed hp hat
  · have hget : (w.withBody pid (st'.rest D p.job) u).procs.get pid = some { p with body := st'.rest D p.job } := by
      rw [World.withBody, Table.get_modify_self, hp]
      rfl
    refine h.goes hh hp hat hn (hn.searches.resolve_right hclose) (hh'.pending (p := { p with body := st'.rest D p.job }) hget ?_)
    rw [(hat.next hn).concluded_eq]
    by_contra hc
    rw [Bool.not_eq_false] at hc
    rcases hn.concluded hc with hl | hcl
    · exact hpl.load hat hl
    · exact hclose hcl

theorem Tended.timedOut (h : Tended w) {pid : Nat} (hp : w.procs.get pid = some p)
    (hok : keepsClosing w (.timeout pid) = true) : Tended (w.withBody pid (.ret (.error (.os ""))) w.store) := by
  have hok' : willRetry p.job (.os "") = true ∨ w.dispensable (fun n => n == p.job.id) p.job.id = true := by
    simpa only [keepsClosing, hp, Option.all_some, Bool.or_eq_true] using hok
  have hclosing : ∀ n q, (w.withBody pid (.ret (.error (.os ""))) w.store).procs.get n = some q → q.closes = true →
      w.procs.get n = some q := by
    intro n q hq hc
    rcases get_withBody hp hq with ⟨rfl, rfl⟩ | ⟨-, hq⟩
    · cases hc
    · exact hq
  rcases hok' with hretry | hdis
  · refine h.cut (fun _ => false) rfl rfl (fun n hpn _ => ?_) (fun _ hc => nomatch hc) hclosing
    refine pending_mono hpn rfl fun m q hq _ hc => ?_
    rcases get_withBody hp hq with ⟨rfl, rfl⟩ | ⟨-, hq⟩
    · change (!willRetry p.job (.os "")) = true at hc
      rw [hretry] at hc
      cases hc
    · exact hq
  · refine h.cut (fun n => n == p.job.id) rfl rfl (fun n hpn hc => ?_) (fun n hc => ?_) hclosing
    · exact pending_withBody hp rfl (beq_eq_false_iff_ne.1 hc) hpn
    · rw [beq_iff_eq.1 hc]
      exact hdis

/-- An execution ends, and its job is to be executed again or is not pending any more. -/
theorem Tended.without (h : Tended w) (hh : Held w) {pid : Nat} (hp : w.procs.get pid = some p) {jobs : Queue.Jobs}
    (hf : Queue.Finishes p.job.id w.store.jobs jobs)
    (hown : p.concluded = false → ∃ j, jobs.get p.job.id = some j ∧ (j.state = .ready ∨ j.state = .running)) :
    Tended (w.without pid jobs) := by
  have hgone {n : Nat} {q : Proc} (hq : (w.without pid jobs).procs.get n = some q) : q.job.id ≠ p.job.id := by
    obtain ⟨hne, hq⟩ := get_without hq
    exact fun he => hne (hh.apart n pid q p hq hp he)
  refine h.cut (fun _ => false) rfl rfl (fun n hpn _ => ?_) (fun _ hc => nomatch hc) fun n q hq _ =>
    (get_without hq).2
  by_cases hid : n = p.job.id
  · subst hid
    have hc : p.concluded = false := by
      obtain ⟨j, hj, hs⟩ := pending_iff.1 hpn
      obtain ⟨j', hj', hr, -⟩ := (hh.runs pid p hp).1
      obtain rfl := Option.some.inj (hj.symm.trans hj')
      rcases hs with hs | ⟨-, hs⟩
      · rw [hr] at hs
        cases hs
      · exact hs pid p hp rfl
    obtain ⟨j, hj, hs⟩ := hown hc
    exact pending_iff.2 ⟨j, hj, hs.imp_right fun hr => ⟨hr, fun n q hq hid => absurd hid (hgone hq)⟩⟩
  · exact pending_mono hpn ((hf n).resolve_right fun hr => hid hr.1) fun m q hq _ _ => (get_without hq).2

/-- **A job that is finished**: it is ready again where its execution has not concluded. -/
theorem Tended.finished (h : Tended w) (hh : Held w) {pid : Nat} (hp : w.procs.get pid = some p) {r : Except Exn Unit}
    (hbody : p.body = .ret r) (trace : String) (draw : Draw) :
    Tended (w.without pid (finished w.store p trace draw r)) := by
  refine h.without hh hp (finished_finishes _ _ _ _ _) fun hc => ?_
  have hr : concludes p.job r = false := by
    rw [Proc.concluded, hbody] at hc
    exact hc
  obtain ⟨⟨j, hj, hs, he⟩, hby⟩ := hh.runs pid p hp
  rcases finished_cases w.store p trace draw r with ⟨hsame, -⟩ | ⟨f, hwrite, hf⟩
  · exact ⟨j, hsame ▸ hj, .inr hs⟩
  · have howned : Queue.ownedBy p.worker j = true :=
      Queue.ownedBy_iff.2 ⟨hs, (congrArg ClaimedJob.claimedBy he).symm.trans hby⟩
    exact ⟨f j, by rw [hwrite]; exact Table.get_updateWhere_hit f hj howned, .inl ((hf j).2.2.2.2 hr)⟩

theorem Tended.crashed (h : Tended w) (hh : Held w) {pid : Nat} (hp : w.procs.get pid = some p) :
    Tended (w.without pid w.store.jobs) := by
  refine h.without hh hp (.refl _ _) fun _ => ?_
  obtain ⟨j, hj, hs, -⟩ := (hh.runs pid p hp).1
  exact ⟨j, hj, .inr hs⟩

theorem Tended.claimed (h : Tended w) (hh : Held w) (worker : String) (limit : Nat) (locked : Nat → Bool) :
    Tended { store := { w.store with jobs := (w.store.claimJobs settings worker limit locked).2 }
             procs := World.spawn D worker w.store.now w.procs (w.store.claimJobs settings worker limit locked).1 } := by
  have hnew {n : Nat} {q : Proc} (hq : (World.spawn D worker w.store.now w.procs
      (w.store.claimJobs settings worker limit locked).1).get n = some q) :
      w.procs.get n = some q ∨ q.concluded = false ∧ q.closes = false := by
    rcases spawn_get hq with hq | ⟨-, job, -, rfl⟩
    · exact .inl hq
    · exact .inr ⟨rfl, rfl⟩
  refine h.cut (fun _ => false) rfl rfl (fun n hpn _ => ?_) (fun _ hc => nomatch hc) fun n q hq hc => ?_
  · by_cases hm : n ∈ Queue.claimIds w.store.now limit locked w.store.jobs
    · obtain ⟨j, hj, he, hget⟩ := Queue.claim_get_of_mem
        (l := ⟨worker, settings.jobLeaseSeconds, settings.sendLeaseSeconds⟩) hm
      refine pending_iff.2 ⟨_, hget, .inr ⟨rfl, fun m q hq hid => ?_⟩⟩
      rcases hnew hq with hq | hc
      · obtain ⟨j', hj', hr, -⟩ := (hh.runs m q hq).1
        rw [hid, hj, Option.some.injEq] at hj'
        rw [← hj', (Queue.eligible_iff.1 he).1] at hr
        cases hr
      · exact hc.1
    · refine pending_mono hpn (Queue.claim_get_of_not_mem hm) fun m q hq _ hc => ?_
      rcases hnew hq with hq | hc'
      · exact hq
      · rw [hc'.1] at hc
        cases hc
  · rcases hnew hq with hq | hc'
    · exact hq
    · rw [hc'.2] at hc
      cases hc

theorem parks_eq_true {began limit : Nat} {locked : Nat → Bool} {n : Nat} : w.parks began limit locked n = true ↔
    ∃ job ∈ Queue.selectStale began limit locked w.store.jobs, job.id = n ∧ job.maxAttempts ≤ job.attempts := by
  simp only [World.parks, List.any_eq_true, Bool.and_eq_true, beq_iff_eq, decide_eq_true_eq]

/-- What a sweep does not park it leaves, or makes ready. -/
theorem swept_cases (hpl : Planned w.store) {began limit : Nat} {locked : Nat → Bool} {n : Nat}
    (hpark : w.parks began limit locked n = false) {jobs : Queue.Jobs}
    (hjobs : jobs = Queue.applyRecoveries began w.store.jobs ((Queue.selectStale began limit locked w.store.jobs).map
      fun job => (job, Queue.recover job none))) :
    jobs.get n = w.store.jobs.get n ∨ ∃ j, jobs.get n = some j ∧ j.state = .ready := by
  subst hjobs
  rcases Queue.applyRecoveries_get began ((Queue.selectStale began limit locked w.store.jobs).map
    fun job => (job, Queue.recover job none)) w.store.jobs n with ⟨he, -⟩ | ⟨d, hd, hid, j, hj, -, he⟩
  · exact .inl he
  · right
    obtain ⟨job, hjob, rfl⟩ := List.mem_map.1 hd
    obtain ⟨j', hj', -, hrow⟩ := Queue.mem_selectStale hjob
    have hkind : job.kind = .adapterRun := (congrArg ClaimedJob.kind hrow).trans (hpl.job_of_get hj').1
    have hleft : ¬ job.attempts ≥ job.maxAttempts := by
      intro ha
      rw [parks_eq_true.2 ⟨job, hjob, hid, ha⟩] at hpark
      cases hpark
    have hrec : Queue.recover job none = .requeue := by
      unfold Queue.recover
      rw [hkind]
      show (if job.attempts ≥ job.maxAttempts then _ else _) = _
      rw [if_neg hleft]
    refine ⟨_, he, ?_⟩
    show ((Queue.recover job none).row began j).state = .ready
    rw [hrec]
    rfl

theorem Tended.swept (h : Tended w) (hpl : Planned w.store) {began limit : Nat} {locked : Nat → Bool}
    (hok : keepsClosing w (.sweep began limit locked) = true) {jobs : Queue.Jobs}
    (hjobs : jobs = Queue.applyRecoveries began w.store.jobs ((Queue.selectStale began limit locked w.store.jobs).map
      fun job => (job, Queue.recover job none))) : Tended { w with store := { w.store with jobs := jobs } } := by
  simp only [keepsClosing, Bool.and_eq_true, List.all_eq_true, Bool.or_eq_true, Bool.not_eq_true'] at hok
  refine h.cut (w.parks began limit locked) rfl rfl (fun n hpn hc => ?_) (fun n hc => ?_) fun _ _ hp _ => hp
  · rcases swept_cases hpl hc hjobs with hsame | ⟨j, hj, hs⟩
    · exact pending_mono hpn hsame fun _ _ hq _ _ => hq
    · exact pending_iff.2 ⟨j, hj, .inl hs⟩
  · obtain ⟨job, hjob, rfl, -⟩ := parks_eq_true.1 hc
    refine (hok.2 job hjob).resolve_left fun hno => ?_
    rw [hc] at hno
    cases hno

/-- **A search that opens** is in the charge of its jobs. -/
theorem Tended.opens (h : Tended w) (hpl : Planned w.store) (hh : Held w) (ho : Opens w.store u) :
    Tended { w with store := u } := by
  have hold {n : Nat} (hn : n < w.store.runs.next) (hpn : w.pending n = true) :
      World.pending { w with store := u } n = true :=
    pending_mono hpn (ho.grows.jobs n hn) fun _ _ hq _ _ => hq
  have hnew {n : Nat} (hn : w.store.runs.next ≤ n) (hlt : n < u.runs.next) :
      ∃ r, u.runs.get n = some r ∧ r.searchId = w.store.searches.next ∧
        World.pending { w with store := u } n = true := by
    obtain ⟨r, j, hr, hs, -, hj, hready⟩ := ho.grows.fresh n hn hlt
    exact ⟨r, hr, hs, pending_iff.2 ⟨j, hj, .inl hready⟩⟩
  refine ⟨fun n r hr hout => ?_, fun s row hs hnone => ?_, fun pid p hp hc r hr => ?_⟩
  · by_cases hn : n < w.store.runs.next
    · exact hold hn (h.runs n r ((ho.grows.runs n hn).symm.trans hr) hout)
    · obtain ⟨-, -, -, hpn⟩ := hnew (Nat.not_lt.1 hn) (Table.lt_next_of_get hr)
      exact hpn
  · obtain ⟨new, -, hins⟩ := ho.search
    change u.searches.get s = some row at hs
    rw [hins] at hs
    rcases Table.get_insert_cases hs with ⟨rfl, -⟩ | ⟨-, hs⟩
    · obtain ⟨r, hr, hsid, hpn⟩ := hnew (Nat.le_refl _) ho.runs
      exact ⟨_, r, hr, hsid, hpn⟩
    · obtain ⟨n, r, hr, hsid, hpn⟩ := h.searches s row hs hnone
      have hn := Table.lt_next_of_get hr
      exact ⟨n, r, (ho.grows.runs n hn).trans hr, hsid, hold hn hpn⟩
  · obtain ⟨j, hj, -⟩ := (hh.runs pid p hp).1
    have hn : p.job.id < w.store.runs.next := hpl.level ▸ Table.lt_next_of_get hj
    exact h.closing pid p hp hc r ((ho.grows.runs _ hn).symm.trans hr)

theorem Tended.outside (h : Tended w) (hpl : Planned w.store) (hh : Held w) {a : Action}
    (hok : keepsClosing w a = true) (hs : w.store.outside settings D.registry a = some u) :
    Tended { w with store := u } := by
  cases a <;> simp only [Store.outside, Option.some.injEq, reduceCtorEq, Option.ite_none_right_eq_some] at hs
  case plan userId query sources =>
    subst hs
    rcases hpl.planSearch D.registry userId query sources with he | ⟨-, ho⟩
    · rw [he]
      exact h
    · exact h.opens hpl hh ho
  case sweep began limit locked =>
    obtain ⟨-, rfl⟩ := hs
    exact h.swept hpl hok rfl
  all_goals
    subst hs
    exact ⟨h.runs, h.searches, h.closing⟩

theorem reclaimsDead_of_keepsClosing {a : Action} (h : keepsClosing w a = true) : reclaimsDead w a = true := by
  cases a with
  | sweep began limit locked =>
    rw [keepsClosing, Bool.and_eq_true] at h
    exact h.1
  | _ => rfl

theorem Tended.moved {a : Action} (h : Tended w) (hpl : Placed D w) (hh : Held w) (hh' : Held t)
    (hok : keepsClosing w a = true) (hm : Moved settings D w a t) : Tended t := by
  cases hm with
  | outside _ store hout => exact h.outside hpl.planned hh hok hout
  | claimed worker limit locked => exact h.claimed hh worker limit locked
  | ran pid e hp hs =>
    obtain ⟨st, st', hat, rfl, hn⟩ := hpl.ran hp hs
    exact h.ran hpl hh hp hat hn hh'
  | timedOut pid hp hbody => exact h.timedOut hp hok
  | finished pid trace draw hp hbody => exact h.finished hh hp hbody trace draw
  | crashed pid hp => exact h.crashed hh hp

theorem reach_tended (h : (system settings D).Reach (fun w a => keepsClosing w a = true) w) : Tended w := by
  have hreach {w : World} (hw : (system settings D).Reach (fun w a => keepsClosing w a = true) w) : Placed D w ∧ Held w :=
    reach_held (fun _ _ hok => reclaimsDead_of_keepsClosing hok) hw
  refine Machine.Reach.inv ⟨fun _ _ hr => (nomatch hr), fun _ _ hs => (nomatch hs), fun _ _ hp => (nomatch hp)⟩
    (fun w a t hw hi hok hs => ?_) h
  have ht := hw.steps (.snoc (.refl w) hok hs)
  exact hi.moved (hreach hw).1 (hreach hw).2 (hreach ht).2 hok (moved_of_step hs)

/-- **Every search closes** in every run that cuts off no last attempt that is still needed. -/
theorem searches_close (h : (system settings D).Reach (fun w a => keepsClosing w a = true) w) : SearchesClose w := by
  intro s row hs hrest
  have hi := reach_tended h
  have hpl := (reach_placed h).planned
  have hidle {n : Nat} {r : AdapterRunRow} (hr : w.store.runs.get n = some r) (hsid : r.searchId = s) :
      w.pending n ≠ true := by
    intro hp
    obtain ⟨j, hj, hstate⟩ := pending_iff.1 hp
    have hlive := (hrest n r hr hsid n j hj (hpl.job_of_get hj).2.1).1
    rcases hstate with hst | ⟨hst, -⟩ <;> simp [JobRow.live, hst] at hlive
  refine ⟨fun n r hr hsid => ?_, ?_⟩
  · by_contra ho
    exact hidle hr hsid (hi.runs n r hr (Bool.not_eq_false _ ▸ ho))
  · by_contra hnone
    obtain ⟨n, r, hr, hsid, hp⟩ := hi.searches s row hs (Option.not_isSome_iff_eq_none.1 hnone)
    exact hidle hr hsid hp

/-- The first attempt dies, and the second finishes the search. -/
theorem searches_close_reclaimed :
    ∃ w, (system {} sampleDeployment).exec {} (sampleSearch ++ sampleReclaim 0 ++ sampleExecution 1) = some w ∧
      (w.store.searches.get 0).any (fun s => s.finishedAt.isSome) = true ∧ SearchesClose w := by
  have hrun : ((system {} sampleDeployment).exec {} (sampleSearch ++ sampleReclaim 0 ++ sampleExecution 1)).any (fun w =>
      (w.store.searches.get 0).any (fun s => s.finishedAt.isSome) &&
        (system {} sampleDeployment).allowed keepsClosing {} (sampleSearch ++ sampleReclaim 0 ++ sampleExecution 1)) =
      true := by decide +kernel
  rw [Option.any_eq_true] at hrun
  obtain ⟨w, hw, hp⟩ := hrun
  rw [Bool.and_eq_true] at hp
  exact ⟨w, hw, hp.1, searches_close (Machine.Steps.of_exec (fun _ _ h => h) hw hp.2)⟩

/-- Every attempt dies, and the sweep parks the job after the last. -/
def deaths : List Action := sampleSearch ++ (List.range 6).flatMap fun pid => sampleReclaim pid

/-- The parked job's run stays pending, and its search open. -/
theorem deaths_leave_open : ¬ ∀ w, (system {} sampleDeployment).Reach (fun _ _ => True) w → SearchesClose w := by
  intro hclaim
  have hrun : ((system {} sampleDeployment).exec (system {} sampleDeployment).init deaths).any (fun w =>
      (w.store.searches.get 0).any (fun s => s.finishedAt.isNone) && !w.store.jobs.any (fun _ j => j.live) &&
        !w.procs.any fun _ _ => true) = true := by decide +kernel
  obtain ⟨w, -, hreach, hp⟩ := Machine.reach_of_exec hrun
  simp only [Bool.and_eq_true, Option.any_eq_true, Bool.not_eq_true'] at hp
  obtain ⟨⟨⟨row, hs, hnone⟩, hdone⟩, hidle⟩ := hp
  have hfin := (hclaim w hreach 0 row hs fun n r hr hsid m j hj href => ?_).2
  · rw [Option.isNone_iff_eq_none.1 hnone] at hfin
    cases hfin
  · refine ⟨Table.any_eq_false.1 hdone m j hj, ?_⟩
    rw [World.executing, Table.any_eq_false]
    intro pid p hproc
    have := Table.any_eq_false.1 hidle pid p hproc
    cases this

end Search
end SafeSend
