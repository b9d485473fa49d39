import SafeSend.Search.Rows
/-!
# A finished search stays as it is

A search is closed by the execution that recorded the last outcome, before its own job is finished.  From then on nothing
is left to do but that: no run of it is executed again, as long as none was to be executed again when it was closed and no
execution of it is cut off.
-/
namespace SafeSend
namespace Search

open Lib
open Queue (ClaimedJob JobRow RunsAs)

/-- The execution has recorded an outcome that stands: it credits its connection, closes the search, or finishes its job. -/
def Proc.settled (p : Proc) : Bool := p.closes || p.concluded

/-- The job is terminal, or runs under an execution that has recorded its outcome. -/
def World.quiet (w : World) (id : Nat) : Bool :=
  (w.store.jobs.get id).all fun j =>
    !j.live || j.state == .running && w.procs.any fun _ p => p.job.id == id && p.settled

/-- The run is a finished search's. -/
def World.ofFinished (w : World) (id : Nat) : Bool :=
  (w.store.runs.get id).any fun r => (w.store.searches.get r.searchId).any fun s => s.finishedAt.isSome

/-- The step reclaims from no live execution, finishes no search with a run that is to be executed again, and cuts off no
execution of a finished search. -/
def keepsFinished (w : World) : Action → Bool
  | .sweep began limit locked => reclaimsDead w (.sweep began limit locked)
  | .step pid _ =>
    (w.procs.get pid).all fun p =>
      match p.body with
      | .op (.closeSearch searchId) _ =>
        w.store.unfinished searchId || !w.store.runs.any fun n r => r.searchId == searchId && !w.quiet n
      | _ => true
  | .timeout pid | .crash pid => (w.procs.get pid).all fun p => !w.ofFinished p.job.id
  | _ => true

/-- No job of the search is to be executed. -/
def QuietSearch (w : World) (searchId : Nat) : Prop :=
  ∀ n r, w.store.runs.get n = some r → r.searchId = searchId → ∀ m j, w.store.jobs.get m = some j → j.refId = n →
    j.live = false ∨ j.state = .running ∧ ∃ pid p, w.procs.get pid = some p ∧ p.job.id = m ∧ p.settled = true

/-- The search's row, its runs and their stored results are the same. -/
structure Unchanged (searchId : Nat) (w t : Store) : Prop where
  search : t.searches.get searchId = w.searches.get searchId
  runs : ∀ n r, r.searchId = searchId → (t.runs.get n = some r ↔ w.runs.get n = some r)
  stored : ∀ n r, w.runs.get n = some r → r.searchId = searchId → t.stored n = w.stored n

/-- The runs of finished searches are quiet. -/
def Quieted (w : World) : Prop :=
  ∀ s row, w.store.searches.get s = some row → row.finishedAt.isSome → ∀ n r, w.store.runs.get n = some r →
    r.searchId = s → w.quiet n = true

variable {settings : Settings} {D : Deployment} {w t : World} {u v : Store} {p : Proc} {st st' : Stage} {s : Nat}

theorem Unchanged.of_eq (hs : v.searches.get s = u.searches.get s) (hr : v.runs = u.runs) (hres : v.results = u.results) :
    Unchanged s u v where
  search := hs
  runs n r _ := by rw [hr]
  stored n r _ _ := by rw [Store.stored, hres, Store.stored]

theorem Unchanged.trans {x : Store} (h : Unchanged s u v) (h' : Unchanged s v x) : Unchanged s u x where
  search := h'.search.trans h.search
  runs n r hs := (h'.runs n r hs).trans (h.runs n r hs)
  stored n r hr hs := (h'.stored n r ((h.runs n r hs).2 hr) hs).trans (h.stored n r hr hs)

theorem quiet_iff {n : Nat} : w.quiet n = true ↔ ∀ j, w.store.jobs.get n = some j → j.live = false ∨
    j.state = .running ∧ ∃ pid p, w.procs.get pid = some p ∧ p.job.id = n ∧ p.settled = true := by
  unfold World.quiet
  simp only [Option.all_eq_true, Bool.or_eq_true, Bool.not_eq_true', Bool.and_eq_true, beq_iff_eq, Table.any_eq_true]

/-- A job that is as it was is quiet as it was, if the execution that has it stays settled. -/
theorem quiet_mono {n : Nat} (h : w.quiet n = true) (hj : t.store.jobs.get n = w.store.jobs.get n)
    (hp : ∀ pid p, w.procs.get pid = some p → p.job.id = n → p.settled = true →
      ∃ p', t.procs.get pid = some p' ∧ p'.job.id = n ∧ p'.settled = true) : t.quiet n = true := by
  rw [quiet_iff] at h ⊢
  intro j hget
  refine (h j (hj ▸ hget)).imp_right fun ⟨hr, pid, p, hproc, hid, hs⟩ => ⟨hr, pid, ?_⟩
  exact hp pid p hproc hid hs

/-- An execution that goes on has no quiet job. -/
theorem Held.not_quiet (h : Held w) {pid : Nat} (hp : w.procs.get pid = some p) (hs : p.settled = false) :
    w.quiet p.job.id = false := by
  rw [← Bool.not_eq_true]
  intro hq
  obtain ⟨j, hj, hr, -⟩ := (h.runs pid p hp).1
  rcases quiet_iff.1 hq j hj with hl | ⟨-, pid', p', hp', hid, hs'⟩
  · simp [JobRow.live, hr] at hl
  · obtain rfl := h.apart pid' pid p' p hp' hp hid
    obtain rfl := Option.some.inj (hp'.symm.trans hp)
    rw [hs] at hs'
    cases hs'

theorem At.settled_eq (h : At D u p st) : p.settled = (st.closes || st.concluded p.job) := by
  rw [Proc.settled, h.closes_eq, h.concluded_eq]

/-- **A settled execution stays settled**, and writes no run and no result. -/
theorem At.settled_next (h : At D u p st) (hn : Stage.Next D p.job u st st' v) (hs : p.settled = true) :
    (st'.closes || st'.concluded p.job) = true ∧ v.runs = u.runs ∧ v.results = u.results := by
  rw [h.settled_eq] at hs
  cases hn with
  | credited run id connections => exact ⟨rfl, rfl, rfl⟩
  | closed run r => exact ⟨h.holds, rfl, rfl⟩
  | _ => cases hs

theorem closeSearch_get_of_finished {searchId : Nat} {row : SearchRow} (hs : u.searches.get s = some row)
    (hf : row.finishedAt.isSome) : (u.closeSearch searchId).searches.get s = some row := by
  rcases Table.get_updateWhere_cases u.searches searchId (fun s => s.finishedAt.isNone && !u.unfinished searchId)
    (fun s => { s with finishedAt := some u.now }) s with he | ⟨-, row₀, hrow, hguard, -⟩
  · exact he.trans hs
  · obtain rfl := Option.some.inj (hs.symm.trans hrow)
    rw [Bool.and_eq_true, Option.isNone_iff_eq_none] at hguard
    rw [hguard.1] at hf
    cases hf

/-- **No operation changes a finished search.** -/
theorem Quieted.unchanged (h : Quieted w) (hpl : Placed D w) (hh : Held w) {pid : Nat} (hp : w.procs.get pid = some p)
    (hat : At D w.store p st) (hn : Stage.Next D p.job w.store st st' u) {row : SearchRow}
    (hs : w.store.searches.get s = some row) (hf : row.finishedAt.isSome) : Unchanged s w.store u := by
  have hsearch : u.searches.get s = w.store.searches.get s := by
    rcases hn.searches with he | ⟨run, r, -, rfl⟩
    · rw [he]
    · rw [hs]
      exact closeSearch_get_of_finished hs hf
  by_cases hset : p.settled = true
  · obtain ⟨-, hruns, hresults⟩ := hat.settled_next hn hset
    exact .of_eq hsearch hruns hresults
  · have hother {n : Nat} {r : AdapterRunRow} (hr : w.store.runs.get n = some r) (hsid : r.searchId = s) :
        n ≠ p.job.id := by
      rintro rfl
      have hq := h s row hs hf _ r hr hsid
      rw [hh.not_quiet hp (Bool.not_eq_true _ ▸ hset)] at hq
      cases hq
    refine ⟨hsearch, fun n r hsid => ⟨fun hr => ?_, fun hr => ?_⟩, fun n r hr hsid => hat.stored hn (hother hr hsid)⟩
    · obtain ⟨r₀, hr₀, he⟩ := hn.stays.run_back hpl.planned hr
      exact (hat.others hn (hother hr₀ (he.symm.trans hsid))).symm.trans hr
    · exact (hat.others hn (hother hr hsid)).trans hr

theorem quiet_ran {pid n : Nat} (hp : w.procs.get pid = some p) (hat : At D w.store p st)
    (hn : Stage.Next D p.job w.store st st' u) (h : w.quiet n = true) :
    (w.withBody pid (st'.rest D p.job) u).quiet n = true := by
  refine quiet_mono h (congrArg (fun t => t.get n) hn.jobs) fun m q hq hid hs => ?_
  by_cases hm : m = pid
  · subst hm
    obtain rfl := Option.some.inj (hp.symm.trans hq)
    refine ⟨{ p with body := st'.rest D p.job }, ?_, hid, ?_⟩
    · rw [World.withBody, Table.get_modify_self, hp]
      rfl
    · rw [(hat.next hn).settled_eq]
      exact (hat.settled_next hn hs).1
  · exact ⟨q, (Table.get_modify_of_ne _ _ hm).trans hq, hid, hs⟩

theorem Quieted.ran (h : Quieted w) (hpl : Placed D w) {pid : Nat} {e : Env} (hp : w.procs.get pid = some p)
    (hat : At D w.store p st) (hn : Stage.Next D p.job w.store st st' u) (hok : keepsFinished w (.step pid e) = true) :
    Quieted (w.withBody pid (st'.rest D p.job) u) := by
  intro s row hs hf n r hr hsid
  refine quiet_ran hp hat hn ?_
  obtain ⟨r₀, hr₀, he⟩ := hn.stays.run_back hpl.planned hr
  have hsid₀ : r₀.searchId = s := he.symm.trans hsid
  by_cases hold : w.store.searches.get s = some row
  · exact h s row hold hf n r₀ hr₀ hsid₀
  · rcases hn.searches with hsame | ⟨run, ret, rfl, rfl⟩
    · exact absurd (hsame ▸ hs) hold
    · change (w.store.closeSearch run.searchId).searches.get s = some row at hs
      rcases Table.get_updateWhere_cases w.store.searches run.searchId
        (fun s => s.finishedAt.isNone && !w.store.unfinished run.searchId)
        (fun s => { s with finishedAt := some w.store.now }) s with he | ⟨rfl, row₀, -, hguard, -⟩
      · exact absurd (he.symm.trans hs) hold
      · simp only [keepsFinished, hp, Option.all_some, hat.body] at hok
        change (w.store.unfinished run.searchId ||
          !w.store.runs.any fun n r => r.searchId == run.searchId && !w.quiet n) = true at hok
        rw [Bool.and_eq_true, Bool.not_eq_true'] at hguard
        rw [hguard.2, Bool.false_or, Bool.not_eq_true', Table.any_eq_false] at hok
        have := hok n r₀ hr₀
        rw [hsid₀, beq_self_eq_true, Bool.true_and, Bool.not_eq_false'] at this
        exact this

/-- A step that writes neither runs nor searches, and disturbs no quiet job of a finished search. -/
theorem Quieted.keep (h : Quieted w) (hruns : t.store.runs = w.store.runs) (hsearches : t.store.searches = w.store.searches)
    (hkeep : ∀ n, w.quiet n = true → w.ofFinished n = true → t.quiet n = true) : Quieted t := by
  intro s row hs hf n r hr hsid
  rw [hsearches] at hs
  rw [hruns] at hr
  refine hkeep n (h s row hs hf n r hr hsid) ?_
  rw [World.ofFinished, hr, Option.any_some, hsid, hs, Option.any_some]
  exact hf

theorem quiet_swept {began limit : Nat} {locked : Nat → Bool} (hok : reclaimsDead w (.sweep began limit locked) = true)
    {n : Nat} (h : w.quiet n = true) : World.quiet { w with store := { w.store with
      jobs := Queue.applyRecoveries began w.store.jobs ((Queue.selectStale began limit locked w.store.jobs).map
        fun job => (job, Queue.recover job none)) } } n = true := by
  refine quiet_mono h ?_ fun pid p hp hid hs => ⟨p, hp, hid, hs⟩
  rcases Queue.applyRecoveries_get began ((Queue.selectStale began limit locked w.store.jobs).map
    fun job => (job, Queue.recover job none)) w.store.jobs n with ⟨he, -⟩ | ⟨-, -, -, j, hj, hr, -⟩
  · exact he
  · rcases quiet_iff.1 h j hj with hl | ⟨-, pid, p, hp, hid, -⟩
    · simp [JobRow.live, hr] at hl
    · exact swept_get hok (executing_eq_true.2 ⟨pid, p, hp, hid⟩)

theorem Quieted.opens (h : Quieted w) (ho : Opens w.store u) :
    Quieted { w with store := u } ∧ ∀ s row, w.store.searches.get s = some row → Unchanged s w.store u := by
  obtain ⟨new, hopen, hins⟩ := ho.search
  have hfresh {n : Nat} {r : AdapterRunRow} (hr : u.runs.get n = some r) :
      w.store.runs.get n = some r ∨ r.searchId = w.store.searches.next := by
    by_cases hn : n < w.store.runs.next
    · exact .inl ((ho.grows.runs n hn).symm.trans hr)
    · obtain ⟨r', -, hr', hsid, -⟩ := ho.grows.fresh n (Nat.not_lt.1 hn) (Table.lt_next_of_get hr)
      obtain rfl := Option.some.inj (hr.symm.trans hr')
      exact .inr hsid
  refine ⟨fun s row hs hf n r hr hsid => ?_, fun s row hs => ⟨?_, fun n r hsid => ⟨fun hr => ?_, fun hr => ?_⟩,
    fun n r _ _ => ?_⟩⟩
  · change u.searches.get s = some row at hs
    rw [hins] at hs
    rcases Table.get_insert_cases hs with ⟨-, rfl⟩ | ⟨hne, hs⟩
    · rw [hopen] at hf
      cases hf
    · have hr₀ := (hfresh hr).resolve_right fun he => hne (hsid.symm.trans he)
      refine quiet_mono (h s row hs hf n r hr₀ hsid) ?_ fun pid p hp hid hset => ⟨p, hp, hid, hset⟩
      exact ho.grows.jobs n (Table.lt_next_of_get hr₀)
  · rw [hins, Table.get_insert_of_get new hs, hs]
  · exact (hfresh hr).resolve_right fun he => Nat.ne_of_lt (Table.lt_next_of_get hs) (hsid.symm.trans he)
  · exact (ho.grows.runs n (Table.lt_next_of_get hr)).trans hr
  · rw [Store.stored, ho.grows.results]
    rfl

theorem Quieted.outside (h : Quieted w) (hpl : Planned w.store) {a : Action} (hok : keepsFinished w a = true)
    (hout : w.store.outside settings D.registry a = some u) :
    Quieted { w with store := u } ∧ ∀ s row, w.store.searches.get s = some row → Unchanged s w.store u := by
  cases a <;> simp only [Store.outside, Option.some.injEq, reduceCtorEq, Option.ite_none_right_eq_some] at hout
  case plan userId query sources =>
    subst hout
    rcases hpl.planSearch D.registry userId query sources with he | ⟨-, ho⟩
    · rw [he]
      exact ⟨h, fun s _ _ => .of_eq rfl rfl rfl⟩
    · exact h.opens ho
  case sweep began limit locked =>
    obtain ⟨-, rfl⟩ := hout
    exact ⟨h.keep rfl rfl fun n hq _ => quiet_swept hok hq, fun s _ _ => .of_eq rfl rfl rfl⟩
  all_goals
    subst hout
    exact ⟨h, fun s _ _ => .of_eq rfl rfl rfl⟩

theorem spawn_get_of_get {worker : String} {now : Nat} : ∀ {l : List ClaimedJob} {procs : Table Proc} {pid : Nat} {p : Proc},
    procs.get pid = some p → (World.spawn D worker now procs l).get pid = some p
  | [], _, _, _, h => h
  | _ :: l, _, _, _, h => spawn_get_of_get (l := l) (Table.get_insert_of_get _ h)

theorem Quieted.claimed (h : Quieted w) (worker : String) (limit : Nat) (locked : Nat → Bool) :
    Quieted { store := { w.store with jobs := (w.store.claimJobs settings worker limit locked).2 }
              procs := World.spawn D worker w.store.now w.procs (w.store.claimJobs settings worker limit locked).1 } := by
  refine h.keep rfl rfl fun n hq _ => ?_
  refine quiet_mono hq (Queue.claim_get_of_not_mem fun hm => ?_) fun pid p hp hid hs => ⟨p, spawn_get_of_get hp, hid, hs⟩
  obtain ⟨j, hj, he⟩ := Queue.mem_claimIds hm
  have hready := (Queue.eligible_iff.1 he).1
  rcases quiet_iff.1 hq j hj with hl | ⟨hr, -⟩
  · simp [JobRow.live, hready] at hl
  · rw [hready] at hr
    cases hr

/-- Another job's execution ends or is cut short. -/
theorem quiet_other {pid n : Nat} (hp : w.procs.get pid = some p) (hne : n ≠ p.job.id) (h : w.quiet n = true)
    (hj : t.store.jobs.get n = w.store.jobs.get n)
    (hprocs : ∀ m q, m ≠ pid → w.procs.get m = some q → t.procs.get m = some q) : t.quiet n = true := by
  refine quiet_mono h hj fun m q hq hid hs => ⟨q, hprocs m q ?_ hq, hid, hs⟩
  rintro rfl
  obtain rfl := Option.some.inj (hp.symm.trans hq)
  exact hne hid.symm

theorem Quieted.timedOut (h : Quieted w) {pid : Nat} (hp : w.procs.get pid = some p)
    (hok : keepsFinished w (.timeout pid) = true) : Quieted (w.withBody pid (.ret (.error (.os ""))) w.store) := by
  simp only [keepsFinished, hp, Option.all_some, Bool.not_eq_true'] at hok
  refine h.keep rfl rfl fun n hq hn => quiet_other hp ?_ hq rfl fun m q hm hq => ?_
  · rintro rfl
    rw [hok] at hn
    cases hn
  · exact (Table.get_modify_of_ne _ _ hm).trans hq

theorem Quieted.crashed (h : Quieted w) {pid : Nat} (hp : w.procs.get pid = some p)
    (hok : keepsFinished w (.crash pid) = true) : Quieted (w.without pid w.store.jobs) := by
  simp only [keepsFinished, hp, Option.all_some, Bool.not_eq_true'] at hok
  refine h.keep rfl rfl fun n hq hn => quiet_other hp ?_ hq rfl fun m q hm hq => ?_
  · rintro rfl
    rw [hok] at hn
    cases hn
  · exact (Table.get_erase_of_ne _ hm).trans hq

/-- **The job of a settled execution ends terminal.** -/
theorem Quieted.finishing (h : Quieted w) (hh : Held w) {pid : Nat} (hp : w.procs.get pid = some p) {r : Except Exn Unit}
    (hbody : p.body = .ret r) (trace : String) (draw : Draw) :
    Quieted (w.without pid (finished w.store p trace draw r)) := by
  refine h.keep rfl rfl fun n hq _ => ?_
  by_cases hid : n = p.job.id
  · subst hid
    have hset : p.settled = true := by
      by_contra hno
      rw [hh.not_quiet hp (Bool.not_eq_true _ ▸ hno)] at hq
      cases hq
    have hr : concludes p.job r = true := by
      rw [Proc.settled, Proc.closes, Proc.concluded, hbody] at hset
      exact hset
    obtain ⟨⟨j, hj, hs, he⟩, hby⟩ := hh.runs pid p hp
    rcases finished_cases w.store p trace draw r with ⟨-, hno⟩ | ⟨f, hwrite, hf⟩
    · rw [hr] at hno
      cases hno
    · have howned : Queue.ownedBy p.worker j = true :=
        Queue.ownedBy_iff.2 ⟨hs, (congrArg ClaimedJob.claimedBy he).symm.trans hby⟩
      have hget : (finished w.store p trace draw r).get p.job.id = some (f j) := by
        rw [hwrite]
        exact Table.get_updateWhere_hit f hj howned
      refine quiet_iff.2 fun j' hj' => .inl ?_
      obtain rfl := Option.some.inj (hget.symm.trans hj')
      have hready : (f j).state ≠ .ready := fun hst => by
        rw [(hf j).2.2.2.1 hst] at hr
        cases hr
      simp [JobRow.live, hready, (hf j).2.2.1]
  · refine quiet_other hp hid hq ?_ fun m q hm hq => (Table.get_erase_of_ne _ hm).trans hq
    exact (finished_finishes w.store p trace draw r n).resolve_right fun hr => hid hr.1

theorem reclaimsDead_of_keepsFinished {a : Action} (h : keepsFinished w a = true) : reclaimsDead w a = true := by
  cases a with
  | sweep began limit locked => exact h
  | _ => rfl

/-- **What one step keeps**: finished searches are quiet, and unchanged. -/
theorem Quieted.moved {a : Action} (h : Quieted w) (hpl : Placed D w) (hh : Held w) (hok : keepsFinished w a = true)
    (hm : Moved settings D w a t) : Quieted t ∧ ∀ s row, w.store.searches.get s = some row → row.finishedAt.isSome →
      Unchanged s w.store t.store := by
  cases hm with
  | outside _ store hout =>
    obtain ⟨hq, hu⟩ := h.outside hpl.planned hok hout
    exact ⟨hq, fun s row hs _ => hu s row hs⟩
  | claimed worker limit locked => exact ⟨h.claimed worker limit locked, fun _ _ _ _ => .of_eq rfl rfl rfl⟩
  | ran pid e hp hs =>
    obtain ⟨st, st', hat, rfl, hn⟩ := hpl.ran hp hs
    exact ⟨h.ran hpl hp hat hn hok, fun s row hs hf => h.unchanged hpl hh hp hat hn hs hf⟩
  | timedOut pid hp hbody => exact ⟨h.timedOut hp hok, fun _ _ _ _ => .of_eq rfl rfl rfl⟩
  | finished pid trace draw hp hbody => exact ⟨h.finishing hh hp hbody trace draw, fun _ _ _ _ => .of_eq rfl rfl rfl⟩
  | crashed pid hp => exact ⟨h.crashed hp hok, fun _ _ _ _ => .of_eq rfl rfl rfl⟩

theorem reach_quieted (h : (system settings D).Reach (fun w a => keepsFinished w a = true) w) :
    Quieted w ∧ Placed D w ∧ Held w := by
  have hheld {w : World} (hw : (system settings D).Reach (fun w a => keepsFinished w a = true) w) : Placed D w ∧ Held w :=
    reach_held (fun _ _ hok => reclaimsDead_of_keepsFinished hok) hw
  refine ⟨Machine.Reach.inv (fun _ _ hs => (nomatch hs)) (fun w a t hw hi hok hs => ?_) h, hheld h⟩
  exact (hi.moved (hheld hw).1 (hheld hw).2 hok (moved_of_step hs)).1

/-- **A finished search never changes again** in a run whose steps all let it be: no job of it is to be executed, and its
runs and their results stay as they are. -/
theorem finished_for_good (h : (system settings D).Reach (fun w a => keepsFinished w a = true) w) {row : SearchRow}
    (hs : w.store.searches.get s = some row) (hf : row.finishedAt.isSome)
    (hsteps : (system settings D).Steps (fun w a => keepsFinished w a = true) w t) :
    QuietSearch t s ∧ Unchanged s w.store t.store := by
  have hrun : (system settings D).Reach (fun w a => keepsFinished w a = true) t ∧ Unchanged s w.store t.store := by
    refine Machine.Steps.keep (I := fun t => (system settings D).Reach (fun w a => keepsFinished w a = true) t ∧
      Unchanged s w.store t.store) (fun u a v hi hok hstep => ?_) hsteps ⟨h, .of_eq rfl rfl rfl⟩
    obtain ⟨hq, hpl, hh⟩ := reach_quieted hi.1
    have hu := (hq.moved hpl hh hok (moved_of_step hstep)).2 s row (hi.2.search.trans hs) hf
    exact ⟨hi.1.steps (.snoc (.refl u) hok hstep), hi.2.trans hu⟩
  obtain ⟨ht, hu⟩ := hrun
  obtain ⟨hq, hpl, -⟩ := reach_quieted ht
  refine ⟨fun n r hr hsid m j hj href => ?_, hu⟩
  have hm : m = n := (hpl.planned.job_of_get hj).2.1.symm.trans href
  exact quiet_iff.1 (hq s row (hu.search.trans hs) hf m r (hm ▸ hr) hsid) j hj

/-- Two sources answer; the second closes the search, and its job is finished after that. -/
def sampleSources : List Action :=
  [.plan 1 "launch" [], .claim "host:1" 5 fun _ => false] ++ sampleExecution 0 ++ sampleAnswer 1 ++
    [.step 1 .none, .step 1 .none, .step 1 .none]

theorem finished_for_good_sources : ∃ w t, (system {} sampleDeployment).exec {} sampleSources = some w ∧
    (system {} sampleDeployment).exec w [.finish 1 "" Send.noDraw, .tick 91000000, .sweep 91000000 20 fun _ => false] =
      some t ∧ (t.store.jobs.any fun _ j => j.live) = false ∧ (t.store.stored 1).length = 1 ∧ QuietSearch t 0 ∧
        Unchanged 0 w.store t.store := by
  have hrun : ((system {} sampleDeployment).exec {} sampleSources).any (fun w =>
      (system {} sampleDeployment).allowed keepsFinished {} sampleSources &&
      ((w.store.searches.get 0).any fun s => s.finishedAt.isSome) &&
      ((system {} sampleDeployment).exec w [.finish 1 "" Send.noDraw, .tick 91000000, .sweep 91000000 20 fun _ => false]).any
        fun t => !(t.store.jobs.any fun _ j => j.live) && decide ((t.store.stored 1).length = 1) &&
          (system {} sampleDeployment).allowed keepsFinished w
            [.finish 1 "" Send.noDraw, .tick 91000000, .sweep 91000000 20 fun _ => false]) = true := by decide +kernel
  simp only [Option.any_eq_true, Bool.and_eq_true, Bool.not_eq_true', decide_eq_true_eq] at hrun
  obtain ⟨w, hw, ⟨hal, row, hs, hf⟩, t, ht, ⟨hdone, hlen⟩, hal'⟩ := hrun
  have hreach : (system {} sampleDeployment).Reach (fun w a => keepsFinished w a = true) w :=
    Machine.Steps.of_exec (fun _ _ h => h) hw hal
  exact ⟨w, t, hw, ht, hdone, hlen, finished_for_good hreach hs hf (Machine.Steps.of_exec (fun _ _ h => h) ht hal')⟩

/-- Once a search is finished, no job of it is ready or runs, and no status, count or result of it changes. -/
def FinishedStays (settings : Settings) (D : Deployment) : Prop :=
  ∀ w t s row, (system settings D).Reach (fun _ _ => True) w → w.store.searches.get s = some row → row.finishedAt.isSome →
    (system settings D).Steps (fun _ _ => True) w t →
      (∀ n r, t.store.runs.get n = some r → r.searchId = s → ∀ m j, t.store.jobs.get m = some j → j.refId = n →
        j.live = false) ∧
      ∀ n r r', w.store.runs.get n = some r → r.searchId = s → t.store.runs.get n = some r' →
        r'.status = r.status ∧ r'.resultCount = r.resultCount ∧ t.store.stored n = w.store.stored n

/-- The first source times out, which is to be retried, and the second one's success closes the search. -/
def sampleEarly : List Action :=
  [.plan 1 "launch" [], .claim "host:1" 5 fun _ => false] ++
    [.step 0 .none, .step 0 .none, .step 0 (.found (.error (.os "timed out"))), .step 0 .none, .finish 0 "" Send.noDraw] ++
    sampleExecution 1

/-- The first source's job is claimed again, and answers. -/
def sampleLate : List Action := [.tick 1000000000, .claim "host:1" 5 fun _ => false] ++ sampleExecution 2

/-- **A search is closed over a run that is still to be retried**: its job is ready, and its status and results change
afterwards. -/
theorem closed_early : ∃ w t row r r' j,
    (system {} sampleDeployment).Reach (fun _ _ => True) w ∧ (system {} sampleDeployment).Steps (fun _ _ => True) w t ∧
    (w.store.searches.get 0 = some row ∧ row.finishedAt.isSome) ∧ (w.store.jobs.get 0 = some j ∧ j.state = .ready) ∧
    (w.store.runs.get 0 = some r ∧ r.searchId = 0 ∧ r.status = .failed) ∧
    t.store.runs.get 0 = some r' ∧ r'.status = .done := by
  have hrun : ((system {} sampleDeployment).exec (system {} sampleDeployment).init sampleEarly).any (fun w =>
      ((w.store.searches.get 0).any fun s => s.finishedAt.isSome) && ((w.store.jobs.get 0).any fun j => j.state == .ready) &&
        ((w.store.runs.get 0).any fun r => r.searchId == 0 && r.status == .failed) &&
        ((system {} sampleDeployment).exec w sampleLate).any fun t =>
          (t.store.runs.get 0).any fun r => r.status == .done) = true := by decide +kernel
  obtain ⟨w, -, hreach, hp⟩ := Machine.reach_of_exec hrun
  simp only [Bool.and_eq_true, Option.any_eq_true, beq_iff_eq] at hp
  obtain ⟨⟨⟨⟨row, hs, hf⟩, j, hj, hready⟩, r, hr, hsid, hstatus⟩, t, ht, r', hr', hdone⟩ := hp
  exact ⟨w, t, row, r, r', j, hreach, Machine.Steps.of_exec_any ht, ⟨hs, hf⟩, ⟨hj, hready⟩, ⟨hr, hsid, hstatus⟩, hr', hdone⟩

theorem finished_changes : ¬ FinishedStays {} sampleDeployment := by
  intro hclaim
  obtain ⟨w, t, row, r, r', j, hreach, hsteps, ⟨hs, hf⟩, -, ⟨hr, hsid, hstatus⟩, hr', hdone⟩ := closed_early
  have hsame := ((hclaim w t 0 row hreach hs hf hsteps).2 0 r r' hr hsid hr').1
  rw [hdone, hstatus] at hsame
  cases hsame

end Search
end SafeSend
