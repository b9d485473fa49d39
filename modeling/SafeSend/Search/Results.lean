import SafeSend.Search.Rows
/-!
# Executing a run again

What the executions of a run write, in the order of their commits, beside the system; and what the run's row and its
stored results are then.  An execution is known by the attempt of its claim.
-/
namespace SafeSend
namespace Search

open Lib
open Queue (ClaimedJob JobRow)

/-- A write on a run's row. -/
inductive Entry
  | started (attempt : Nat)
  | landed (attempt : Nat) (rows : List ResultRow)
  | failed (attempt : Nat)

def Entry.attempt : Entry → Nat
  | started attempt | landed attempt _ | failed attempt => attempt

/-- What the executions of one run were answered and wrote, newest first. -/
structure Trail where
  answers : List (Nat × List Result) := []
  writes : List Entry := []

/-- What the source answers to an execution. -/
def Trail.answer (attempt : Nat) (e : Env) (trail : Trail) : Trail :=
  match e with
  | .found (.ok found) => { trail with answers := (attempt, found.raw) :: trail.answers }
  | _ => trail

/-- What an execution's next operation adds. -/
def Trail.add (p : Proc) (e : Env) (trail : Trail) : Trail :=
  match p.body with
  | .op (.markRunStarted _) _ => { trail with writes := .started p.job.attempts :: trail.writes }
  | .op (.search _ _ _) _ => trail.answer p.job.attempts e
  | .op (.commitResults l) _ => { trail with writes := .landed p.job.attempts l.rows :: trail.writes }
  | .op (.recordRunFailure _ _ _ _) _ => { trail with writes := .failed p.job.attempts :: trail.writes }
  | _ => trail

abbrev Log := Nat → Trail

def note (w : World) (a : Action) (log : Log) : Log :=
  match a with
  | .step pid e =>
    match w.procs.get pid with
    | some p => fun n => if n = p.job.refId then (log n).add p e else log n
    | none => log
  | _ => log

def recording (settings : Settings) (D : Deployment) : Machine (World × Log) Action :=
  (system settings D).withHistory note fun _ => {}

/-- The success that stands: the last write. -/
def standing : List Entry → Option (Nat × List ResultRow)
  | .landed attempt rows :: _ => some (attempt, rows)
  | _ => none

/-- The rows of the last success. -/
def latest : List Entry → List ResultRow
  | [] => []
  | .landed _ rows :: _ => rows
  | _ :: l => latest l

/-- No failure was written after the success of a newer execution. -/
def Upheld : List Entry → Prop
  | [] => True
  | .failed attempt :: l => (∀ a rows, .landed a rows ∈ l → a ≤ attempt) ∧ Upheld l
  | _ :: l => Upheld l

/-- The rows are the ranking of what the source answered to the execution. -/
def RankedFrom (D : Deployment) (trail : Trail) (runId attempt : Nat) (rows : List ResultRow) : Prop :=
  ∃ (run : LoadedRun) (raw : List Result) (now : Int) (ranked : List Ranked), run.id = runId ∧
    (attempt, raw) ∈ trail.answers ∧
    rankWithinSource D.arithmetic (raw.filter (normalized D.arithmetic)) now = .ok ranked ∧
    rows = ranked.map (resultRow D.arithmetic run)

/-- The stored results are those of one committed execution, and the row agrees with them. -/
structure Replayed (D : Deployment) (w : Store) (trail : Trail) (runId : Nat) : Prop where
  stored : (w.stored runId = [] ∧ ∀ attempt rows, .landed attempt rows ∉ trail.writes) ∨
    ∃ attempt rows, .landed attempt rows ∈ trail.writes ∧ RankedFrom D trail runId attempt rows ∧ w.stored runId = rows
  nodup : (w.stored runId).Nodup
  count : ∀ r, w.runs.get runId = some r → r.status = .done → r.resultCount = (w.stored runId).length
  upheld : Upheld trail.writes

/-- After all executions of a run have finished, its results are those of one of them. -/
def ReexecutionIdempotent (D : Deployment) (s : World × Log) : Prop :=
  ∀ n r, s.1.store.runs.get n = some r → (∀ pid p, s.1.procs.get pid = some p → p.job.refId ≠ n) →
    Replayed D s.1.store (s.2 n) n

/-- The step commits results only where every stored row of the run was there to be deleted, and records no failure once
the job was claimed again. -/
def keepsResults (w : World) : Action → Bool
  | .step pid _ =>
    (w.procs.get pid).all fun p =>
      match p.body with
      | .op (.commitResults l) _ => (w.store.resultIds l.run.id).all fun id => l.deleted.contains id
      | .op (.recordRunFailure _ _ _ _) _ => (w.store.jobs.get p.job.id).all fun j => j.attempts == p.job.attempts
      | _ => true
  | _ => true

variable {settings : Settings} {D : Deployment} {w t : World} {u v : Store} {p : Proc} {st st' : Stage} {e : Env}

theorem latest_cases : ∀ l : List Entry, (latest l = [] ∧ ∀ attempt rows, .landed attempt rows ∉ l) ∨
    ∃ attempt, .landed attempt (latest l) ∈ l
  | [] => .inl ⟨rfl, fun _ _ => List.not_mem_nil⟩
  | .landed attempt rows :: l => .inr ⟨attempt, List.mem_cons_self⟩
  | .started b :: l | .failed b :: l => by
    rcases latest_cases l with ⟨hnil, hnone⟩ | ⟨attempt, hm⟩
    · refine .inl ⟨hnil, fun a rows hm => ?_⟩
      rcases List.mem_cons.1 hm with he | hm
      · cases he
      · exact hnone a rows hm
    · exact .inr ⟨attempt, List.mem_cons_of_mem _ hm⟩

theorem latest_of_standing {l : List Entry} {a : Nat} {rows : List ResultRow} (h : standing l = some (a, rows)) :
    .landed a rows ∈ l ∧ latest l = rows := by
  cases l with
  | nil => cases h
  | cons entry l =>
    cases entry with
    | landed b rows' =>
      obtain ⟨rfl, rfl⟩ := Prod.mk.inj (Option.some.inj h)
      exact ⟨List.mem_cons_self, rfl⟩
    | started b | failed b => cases h

/-- Ranked rows are all different. -/
theorem RankedFrom.nodup {trail : Trail} {runId attempt : Nat} {rows : List ResultRow}
    (h : RankedFrom D trail runId attempt rows) : rows.Nodup := by
  obtain ⟨run, raw, now, ranked, -, -, hr, rfl⟩ := h
  rw [List.nodup_iff_pairwise_ne, List.pairwise_map]
  refine (rankFrom_sorted hr).1.imp fun {a b} hlt he => ?_
  have hrank : a.sourceRank = b.sourceRank := congrArg ResultRow.sourceRank he
  omega

theorem RankedFrom.mono {trail trail' : Trail} {runId attempt : Nat} {rows : List ResultRow}
    (h : RankedFrom D trail runId attempt rows) (hle : ∀ a ∈ trail.answers, a ∈ trail'.answers) :
    RankedFrom D trail' runId attempt rows := by
  obtain ⟨run, raw, now, ranked, hid, hm, hr, hrows⟩ := h
  exact ⟨run, raw, now, ranked, hid, hle _ hm, hr, hrows⟩

/-! ## One run -/

/-- The run's row and its results are what was written last. -/
structure Traced (D : Deployment) (w : Store) (trail : Trail) (runId : Nat) : Prop where
  stored : w.stored runId = latest trail.writes
  status : ∀ r, w.runs.get runId = some r → (r.status = .done ↔ (standing trail.writes).isSome)
  count : ∀ r a rows, w.runs.get runId = some r → standing trail.writes = some (a, rows) → r.resultCount = rows.length
  upheld : Upheld trail.writes
  ranked : ∀ a rows, .landed a rows ∈ trail.writes → RankedFrom D trail runId a rows
  attempts : ∀ entry ∈ trail.writes, ∃ j, w.jobs.get runId = some j ∧ entry.attempt ≤ j.attempts

/-- What an execution's next operation adds, by its stage. -/
def Stage.adds (job : ClaimedJob) (e : Env) (trail : Trail) : Stage → Trail
  | starting _ => { trail with writes := .started job.attempts :: trail.writes }
  | searching _ => trail.answer job.attempts e
  | landing l _ => { trail with writes := .landed job.attempts l.rows :: trail.writes }
  | failing _ _ => { trail with writes := .failed job.attempts :: trail.writes }
  | _ => trail

theorem At.add_eq (h : At D u p st) (trail : Trail) : trail.add p e = st.adds p.job e trail := by
  rw [Trail.add, h.body]
  cases st <;> rfl

theorem writes_answer (attempt : Nat) (e : Env) (trail : Trail) : (trail.answer attempt e).writes = trail.writes := by
  unfold Trail.answer
  split
  · rfl
  · rfl

theorem answers_adds (job : ClaimedJob) (e : Env) (trail : Trail) (st : Stage) :
    ∀ a ∈ trail.answers, a ∈ (st.adds job e trail).answers := by
  intro a ha
  cases st with
  | searching run =>
    show a ∈ (trail.answer job.attempts e).answers
    unfold Trail.answer
    split
    · exact List.mem_cons_of_mem _ ha
    · exact ha
  | _ => exact ha

variable {n : Nat} {trail trail' : Trail}

/-- Nothing is written, and the job does not lose an attempt. -/
theorem Traced.idle (h : Traced D u trail n) (hw : trail'.writes = trail.writes)
    (ha : ∀ a ∈ trail.answers, a ∈ trail'.answers) (hr : v.runs.get n = u.runs.get n) (hs : v.stored n = u.stored n)
    (hx : Extends u v) : Traced D v trail' n where
  stored := by rw [hs, hw, h.stored]
  status r hget := by
    rw [hw]
    exact h.status r (hr ▸ hget)
  count r a rows hget hst := h.count r a rows (hr ▸ hget) (hw ▸ hst)
  upheld := hw ▸ h.upheld
  ranked a rows hm := (h.ranked a rows (hw ▸ hm)).mono ha
  attempts entry hm := by
    obtain ⟨j, hj, hle⟩ := h.attempts entry (hw ▸ hm)
    obtain ⟨j', hj', -, hle'⟩ := hx.jobs n j hj
    exact ⟨j', hj', Nat.le_trans hle hle'⟩

/-- A write of the execution adds its attempt. -/
theorem Traced.attempts_cons (h : Traced D u trail n) (hx : Extends u v) {entry : Entry}
    (hnew : ∃ j, u.jobs.get n = some j ∧ entry.attempt ≤ j.attempts) :
    ∀ e ∈ entry :: trail.writes, ∃ j, v.jobs.get n = some j ∧ e.attempt ≤ j.attempts := by
  have hlift {e : Entry} (he : ∃ j, u.jobs.get n = some j ∧ e.attempt ≤ j.attempts) :
      ∃ j, v.jobs.get n = some j ∧ e.attempt ≤ j.attempts := by
    obtain ⟨j, hj, hle⟩ := he
    obtain ⟨j', hj', -, hle'⟩ := hx.jobs n j hj
    exact ⟨j', hj', Nat.le_trans hle hle'⟩
  intro e hm
  rcases List.mem_cons.1 hm with rfl | hm
  · exact hlift hnew
  · exact hlift (h.attempts e hm)

/-- The run is shown running: the results of the last success are still there. -/
theorem Traced.started (h : Traced D u trail n) {attempt : Nat} (hx : Extends u v) (hs : v.stored n = u.stored n)
    (hr : ∀ r, v.runs.get n = some r → r.status = .running) (ha : ∃ j, u.jobs.get n = some j ∧ attempt ≤ j.attempts) :
    Traced D v { trail with writes := .started attempt :: trail.writes } n where
  stored := hs.trans h.stored
  status r hget := by
    rw [hr r hget]
    exact ⟨fun he => (nomatch he), fun he => (nomatch he)⟩
  count _ _ _ _ hst := nomatch hst
  upheld := h.upheld
  ranked a rows hm := by
    rcases List.mem_cons.1 hm with he | hm
    · cases he
    · exact (h.ranked a rows hm).mono fun _ hm => hm
  attempts := h.attempts_cons hx ha

/-- **A failure of the latest claim comes after no success of a newer one.** -/
theorem Traced.failed (h : Traced D u trail n) {attempt : Nat} (hx : Extends u v) (hs : v.stored n = u.stored n)
    (hr : ∀ r, v.runs.get n = some r → r.status ≠ .done) (hlate : ∃ j, u.jobs.get n = some j ∧ j.attempts = attempt) :
    Traced D v { trail with writes := .failed attempt :: trail.writes } n where
  stored := hs.trans h.stored
  status r hget := ⟨fun he => absurd he (hr r hget), fun he => (nomatch he)⟩
  count _ _ _ _ hst := nomatch hst
  upheld := by
    refine ⟨fun a rows hm => ?_, h.upheld⟩
    obtain ⟨j, hj, he⟩ := hlate
    obtain ⟨j', hj', hle⟩ := h.attempts _ hm
    obtain rfl := Option.some.inj (hj.symm.trans hj')
    exact he ▸ hle
  ranked a rows hm := by
    rcases List.mem_cons.1 hm with he | hm
    · cases he
    · exact (h.ranked a rows hm).mono fun _ hm => hm
  attempts := by
    obtain ⟨j, hj, he⟩ := hlate
    exact h.attempts_cons hx ⟨j, hj, Nat.le_of_eq he.symm⟩

/-- **The results of an execution replace those before.** -/
theorem Traced.landed (h : Traced D u trail n) {attempt : Nat} {rows : List ResultRow} (hx : Extends u v)
    (hs : v.stored n = rows) (hr : ∀ r, v.runs.get n = some r → r.status = .done ∧ r.resultCount = rows.length)
    (ha : ∃ j, u.jobs.get n = some j ∧ attempt ≤ j.attempts) (hrank : RankedFrom D trail n attempt rows) :
    Traced D v { trail with writes := .landed attempt rows :: trail.writes } n where
  stored := hs
  status r hget := ⟨fun _ => rfl, fun _ => (hr r hget).1⟩
  count r a rows' hget hst := by
    obtain ⟨-, rfl⟩ := Prod.mk.inj (Option.some.inj hst)
    exact (hr r hget).2
  upheld := h.upheld
  ranked a rows' hm := by
    rcases List.mem_cons.1 hm with he | hm
    · obtain ⟨rfl, rfl⟩ := Entry.landed.inj he
      exact hrank.mono fun _ hm => hm
    · exact (h.ranked a rows' hm).mono fun _ hm => hm
  attempts := h.attempts_cons hx ha

/-! ## The executions -/

/-- What a stage has in hand is what its source answered. -/
def Stage.Answered (D : Deployment) (job : ClaimedJob) (trail : Trail) : Stage → Prop
  | ranking _ found => (job.attempts, found.raw) ∈ trail.answers
  | deleting _ ranked _ => ∃ (raw : List Result) (now : Int), (job.attempts, raw) ∈ trail.answers ∧
      rankWithinSource D.arithmetic (raw.filter (normalized D.arithmetic)) now = .ok ranked
  | landing l _ => RankedFrom D trail job.id job.attempts l.rows
  | _ => True

theorem Stage.Answered.mono {job : ClaimedJob} (h : st.Answered D job trail)
    (hle : ∀ a ∈ trail.answers, a ∈ trail'.answers) : st.Answered D job trail' := by
  cases st with
  | ranking run found => exact hle _ h
  | deleting run ranked mode =>
    obtain ⟨raw, now, hm, hr⟩ := h
    exact ⟨raw, now, hle _ hm, hr⟩
  | landing l count => exact RankedFrom.mono h hle
  | _ => trivial

theorem At.answered (h : At D u p st) (ha : st.Answered D p.job trail) (hn : Stage.Next D p.job u st st' v)
    (he : ∀ run found, st' = .ranking run found → e = .found (.ok found)) :
    st'.Answered D p.job (st.adds p.job e trail) := by
  cases hn with
  | found run found =>
    rw [he run found rfl]
    exact List.mem_cons_self
  | ranked run hr => exact ⟨_, _, ha, hr⟩
  | deleted run ranked mode =>
    obtain ⟨raw, now, hm, hr⟩ := ha
    exact ⟨run, raw, now, ranked, (h.run run rfl).1, hm, hr, rfl⟩
  | landed l count =>
    unfold Stage.succeeded
    cases l.run.connectionId with
    | none => trivial
    | some id => trivial
  | recordedFailure run exc =>
    unfold Stage.recorded
    split
    · trivial
    · trivial
  | _ => trivial

/-- What the condition says at a stage. -/
structure Stage.Kept (u : Store) (job : ClaimedJob) (st : Stage) : Prop where
  landing : ∀ l count, st = .landing l count → ∀ id ∈ u.resultIds l.run.id, id ∈ l.deleted
  failing : ∀ run exc, st = .failing run exc → ∀ j, u.jobs.get job.id = some j → j.attempts = job.attempts

theorem At.kept {pid : Nat} (h : At D w.store p st) (hp : w.procs.get pid = some p)
    (hok : keepsResults w (.step pid e) = true) : st.Kept w.store p.job := by
  simp only [keepsResults, hp, Option.all_some, h.body] at hok
  refine ⟨fun l count hst => ?_, fun run exc hst => ?_⟩
  · subst hst
    change ((w.store.resultIds l.run.id).all fun id => l.deleted.contains id) = true at hok
    intro id hid
    exact List.contains_iff_mem.1 (List.all_eq_true.1 hok id hid)
  · subst hst
    change ((w.store.jobs.get p.job.id).all fun j => j.attempts == p.job.attempts) = true at hok
    simp only [Option.all_eq_true, beq_iff_eq] at hok
    exact hok

/-- The run of the execution is the one its operations name. -/
theorem At.own_run (h : At D u p st) (run : LoadedRun) (hst : st.run = some run) {f : AdapterRunRow → AdapterRunRow}
    {r : AdapterRunRow} (hr : (u.runs.modify run.id f).get p.job.id = some r) :
    ∃ r₀, u.runs.get p.job.id = some r₀ ∧ r = f r₀ := by
  rcases Table.get_modify_cases hr with ⟨-, r₀, hr₀, rfl⟩ | ⟨hne, -⟩
  · exact ⟨r₀, hr₀, rfl⟩
  · exact absurd (h.run run hst).1.symm hne

/-- **An operation of an execution**, on its own run. -/
theorem Traced.ran (h : Traced D u trail p.job.id) (hat : At D u p st) (ha : st.Answered D p.job trail)
    (hn : Stage.Next D p.job u st st' v) (hk : st.Kept u p.job) : Traced D v (st.adds p.job e trail) p.job.id := by
  have hx := hn.extends
  have hstored := hn.stored
  cases hn with
  | started run | unknown run =>
    refine h.started hx (hstored (fun _ _ he => nomatch he) _) (fun r hr => ?_) hat.row
    obtain ⟨r₀, -, rfl⟩ := hat.own_run run rfl hr
    rfl
  | landed l count =>
    have hid : l.run.id = p.job.id := (hat.run l.run rfl).1
    refine h.landed hx ?_ (fun r hr => ?_) hat.row ha
    · rw [← hid]
      exact stored_commitResults_self (fun _ hrow => rows_landing hat hrow) (hk.landing l count rfl)
    · obtain ⟨r₀, -, rfl⟩ := hat.own_run l.run rfl hr
      exact ⟨rfl, rfl⟩
  | recordedFailure run exc =>
    refine h.failed hx (hstored (fun _ _ he => nomatch he) _) (fun r hr hdone => ?_) ?_
    · obtain ⟨r₀, -, rfl⟩ := hat.own_run run rfl hr
      change failureStatus exc = .done at hdone
      unfold failureStatus at hdone
      split at hdone
      · cases hdone
      · cases hdone
    · obtain ⟨j, hj, -⟩ := hat.row
      exact ⟨j, hj, hk.failing run exc rfl j hj⟩
  | failed run | found run =>
    exact h.idle (writes_answer _ _ _) (answers_adds p.job e trail (.searching run)) rfl rfl hx
  | _ => exact h.idle rfl (fun _ hm => hm) rfl rfl hx

/-! ## The system -/

structure Recorded (D : Deployment) (w : World) (log : Log) : Prop where
  runs : ∀ n, Traced D w.store (log n) n
  procs : ∀ pid p, w.procs.get pid = some p → ∃ st, At D w.store p st ∧ st.Answered D p.job (log p.job.id)

variable {log : Log}

/-- A step that writes no run and no result, and at which an execution may begin, end or be cut short. -/
theorem Recorded.still (h : Recorded D w log) (hx : Extends w.store t.store) (hr : t.store.runs = w.store.runs)
    (hres : t.store.results = w.store.results)
    (hprocs : ∀ pid p, t.procs.get pid = some p → w.procs.get pid = some p ∨
      ∃ st, At D t.store p st ∧ st.Answered D p.job (log p.job.id)) : Recorded D t log := by
  refine ⟨fun n => ?_, fun pid p hp => ?_⟩
  · refine (h.runs n).idle rfl (fun _ hm => hm) (by rw [hr]) ?_ hx
    rw [Store.stored, hres, Store.stored]
  · rcases hprocs pid p hp with hp | hnew
    · obtain ⟨st, hat, ha⟩ := h.procs pid p hp
      exact ⟨st, hat.extends hx, ha⟩
    · exact hnew

/-- A run that is planned has nothing written. -/
theorem Recorded.opens (h : Recorded D w log) (hpl : Planned w.store) (ho : Opens w.store u) :
    Recorded D { w with store := u } log := by
  have hx := ho.extends hpl
  have hstored (n : Nat) : u.stored n = w.store.stored n := by rw [Store.stored, ho.grows.results, Store.stored]
  refine ⟨fun n => ?_, fun pid p hp => ?_⟩
  · have htr := h.runs n
    by_cases hn : n < w.store.runs.next
    · exact htr.idle rfl (fun _ hm => hm) (ho.grows.runs n hn) (hstored n) hx
    · have hnil : (log n).writes = [] := by
        rw [List.eq_nil_iff_forall_not_mem]
        intro entry hm
        obtain ⟨j, hj, -⟩ := htr.attempts entry hm
        exact hn (hpl.level ▸ Table.lt_next_of_get hj)
      refine ⟨(hstored n).trans htr.stored, fun r hr => ?_, fun r a rows _ hst => ?_, htr.upheld, htr.ranked, ?_⟩
      · obtain ⟨r', -, hr', -, hpend, -⟩ := ho.grows.fresh n (Nat.not_lt.1 hn) (Table.lt_next_of_get hr)
        obtain rfl := Option.some.inj (hr.symm.trans hr')
        rw [hpend, hnil]
        exact ⟨fun he => (nomatch he), fun he => (nomatch he)⟩
      · rw [hnil] at hst
        cases hst
      · rw [hnil]
        exact fun _ hm => absurd hm List.not_mem_nil
  · obtain ⟨st, hat, ha⟩ := h.procs pid p hp
    exact ⟨st, hat.extends hx, ha⟩

theorem Recorded.outside (h : Recorded D w log) (hpl : Planned w.store) {a : Action}
    (hs : w.store.outside settings D.registry a = some u) : Recorded D { w with store := u } (note w a log) := by
  have hsame {v : Store} (hx : Extends w.store v) (hr : v.runs = w.store.runs) (hres : v.results = w.store.results) :
      Recorded D { w with store := v } log := h.still hx hr hres fun _ _ hp => .inl hp
  cases a <;> simp only [Store.outside, Option.some.injEq, reduceCtorEq, Option.ite_none_right_eq_some] at hs
  case plan userId query sources =>
    subst hs
    rcases hpl.planSearch D.registry userId query sources with he | ⟨-, ho⟩
    · rw [he]
      exact h
    · exact h.opens hpl ho
  case sweep began limit locked =>
    obtain ⟨-, rfl⟩ := hs
    exact hsame (extends_of_jobs (Queue.applyRecoveries_move _ _ _)) rfl rfl
  all_goals
    subst hs
    exact hsame { Extends.refl _ with } rfl rfl

theorem note_step {pid : Nat} (hp : w.procs.get pid = some p) :
    note w (.step pid e) log = fun n => if n = p.job.refId then (log n).add p e else log n := by
  unfold note
  simp only [hp]

theorem Recorded.ran (h : Recorded D w log) {pid : Nat} {body : SearchProg (Except Exn Unit)}
    (hp : w.procs.get pid = some p) (hs : p.body.step sem e w.store = some (body, u))
    (hok : keepsResults w (.step pid e) = true) : Recorded D (w.withBody pid body u) (note w (.step pid e) log) := by
  obtain ⟨st, hat, ha⟩ := h.procs pid p hp
  rw [hat.body] at hs
  obtain ⟨st', rfl, hn, hfound⟩ := Stage.next_answered hs
  have hlog (n : Nat) : note w (.step pid e) log n =
      if n = p.job.id then st.adds p.job e (log n) else log n := by
    rw [note_step hp, hat.refId, ← hat.add_eq]
  refine ⟨fun n => ?_, fun m q hq => ?_⟩
  · rw [hlog]
    by_cases hid : n = p.job.id
    · subst hid
      rw [if_pos rfl]
      exact (h.runs _).ran hat ha hn (hat.kept hp hok)
    · rw [if_neg hid]
      exact (h.runs n).idle rfl (fun _ hm => hm) (hat.others hn hid) (hat.stored hn hid) hn.extends
  · rw [hlog]
    rcases get_withBody hp hq with ⟨-, rfl⟩ | ⟨-, hq⟩
    · refine ⟨st', hat.next hn, ?_⟩
      rw [if_pos rfl]
      exact hat.answered ha hn hfound
    · obtain ⟨st₀, hat₀, ha₀⟩ := h.procs m q hq
      refine ⟨st₀, hat₀.extends hn.extends, ?_⟩
      split
      · exact ha₀.mono (answers_adds _ _ _ _)
      · exact ha₀

theorem Recorded.moved {a : Action} (h : Recorded D w log) (hpl : Placed D w) (hok : keepsResults w a = true)
    (hm : Moved settings D w a t) : Recorded D t (note w a log) := by
  cases hm with
  | outside _ store hout => exact h.outside hpl.planned hout
  | claimed worker limit locked =>
    refine h.still (extends_of_jobs Queue.claim_move) rfl rfl fun pid p hp => ?_
    rcases spawn_get hp with hp | ⟨-, job, hjob, rfl⟩
    · exact .inl hp
    · exact .inr ⟨.loading, hpl.handed hjob _, trivial⟩
  | ran pid e hp hs => exact h.ran hp hs hok
  | timedOut pid hp hbody =>
    refine h.still (.refl _) rfl rfl fun n q hq => ?_
    rcases get_withBody hp hq with ⟨-, rfl⟩ | ⟨-, hq⟩
    · obtain ⟨st, hat, -⟩ := h.procs pid _ hp
      exact .inr ⟨_, hat.ended _, trivial⟩
    · exact .inl hq
  | @finished pid trace draw p r hp hbody =>
    exact h.still (extends_of_jobs (finished_finishes w.store p trace draw r).move) rfl rfl fun n q hq =>
      .inl (get_without hq).2
  | crashed pid hp => exact h.still (.refl _) rfl rfl fun n q hq => .inl (get_without hq).2

theorem reach_recorded {s : World × Log} (h : (recording settings D).Reach (fun s a => keepsResults s.1 a = true) s) :
    Placed D s.1 ∧ Recorded D s.1 s.2 := by
  have hinit : (system settings D).Reach (fun _ _ => True) (system settings D).init := Machine.Reach.init
  refine Machine.Reach.inv (I := fun s => Placed D s.1 ∧ Recorded D s.1 s.2) ⟨reach_placed hinit, ?_⟩
    (fun s a t _ hi hok hs => ?_) h
  · refine ⟨fun n => ⟨rfl, fun r hr => (nomatch hr), fun r a rows hr => (nomatch hr), trivial, fun a rows hm => ?_,
      fun entry hm => ?_⟩, fun pid p hp => (nomatch hp)⟩
    · exact absurd hm List.not_mem_nil
    · exact absurd hm List.not_mem_nil
  · obtain ⟨hw, hlog⟩ := Machine.withHistory_step hs
    rw [hlog]
    exact ⟨hi.1.moved (moved_of_step hw), hi.2.moved hi.1 hok (moved_of_step hw)⟩

/-- **Executing a run again is idempotent** in every run whose executions' results do not overlap, and whose superseded
executions record no failure. -/
theorem reexecution_idempotent {s : World × Log}
    (h : (recording settings D).Reach (fun s a => keepsResults s.1 a = true) s) : ReexecutionIdempotent D s := by
  intro n r hr _
  obtain ⟨-, hrec⟩ := reach_recorded h
  have htr := hrec.runs n
  have hstored := htr.stored
  refine ⟨?_, ?_, fun r' hr' hdone => ?_, htr.upheld⟩
  · rcases latest_cases (s.2 n).writes with ⟨hnil, hnone⟩ | ⟨attempt, hm⟩
    · exact .inl ⟨hstored.trans hnil, hnone⟩
    · exact .inr ⟨attempt, _, hm, htr.ranked _ _ hm, hstored⟩
  · rw [hstored]
    rcases latest_cases (s.2 n).writes with ⟨hnil, -⟩ | ⟨attempt, hm⟩
    · rw [hnil]
      exact List.nodup_nil
    · exact (htr.ranked _ _ hm).nodup
  · obtain ⟨⟨attempt, rows⟩, hst⟩ := Option.isSome_iff_exists.1 ((htr.status r' hr').1 hdone)
    rw [hstored, (latest_of_standing hst).2]
    exact htr.count r' attempt rows hr' hst

/-- The first execution dies once its results are committed, and the second stores them again. -/
def sampleAgain : List Action :=
  sampleSearch ++ sampleAnswer 0 ++ [.step 0 .none, .step 0 .none] ++ sampleReclaim 0 ++ sampleExecution 1

theorem reexecution_idempotent_again :
    ∃ s, (recording {} sampleDeployment).exec (recording {} sampleDeployment).init sampleAgain = some s ∧
      (s.1.store.stored 0).length = 1 ∧ (s.2 0).writes.length = 4 ∧ ReexecutionIdempotent sampleDeployment s := by
  have hrun : ((recording {} sampleDeployment).exec (recording {} sampleDeployment).init sampleAgain).any (fun s =>
      decide ((s.1.store.stored 0).length = 1) && decide ((s.2 0).writes.length = 4) &&
        (recording {} sampleDeployment).allowed (fun s a => keepsResults s.1 a) (recording {} sampleDeployment).init
          sampleAgain) = true := by decide +kernel
  simp only [Option.any_eq_true, Bool.and_eq_true, decide_eq_true_eq] at hrun
  obtain ⟨s, hs, ⟨hlen, hwrites⟩, hal⟩ := hrun
  exact ⟨s, hs, hlen, hwrites, reexecution_idempotent (Machine.Steps.of_exec (fun _ _ h => h) hs hal)⟩

/-- The second execution looks for rows to delete before the first, whose lease it took, commits its own. -/
def sampleOverlap : List Action :=
  sampleSearch ++ sampleAnswer 0 ++ [.step 0 .none] ++
    [.tick 91000000, .sweep 91000000 20 fun _ => false, .claim "host:2" 5 fun _ => false] ++
    sampleAnswer 1 ++ [.step 1 .none] ++
    [.step 0 .none, .step 0 .none, .finish 0 "" Send.noDraw] ++ [.step 1 .none, .step 1 .none, .finish 1 "" Send.noDraw]

/-- Both executions' rows are stored. -/
theorem overlap_stores_twice : ¬ ∀ s, (recording {} sampleDeployment).Reach (fun _ _ => True) s →
    ReexecutionIdempotent sampleDeployment s := by
  intro hclaim
  have hrun : ((recording {} sampleDeployment).exec (recording {} sampleDeployment).init sampleOverlap).any (fun s =>
      (s.1.store.runs.get 0).isSome && !(s.1.procs.any fun _ _ => true) && !decide (s.1.store.stored 0).Nodup) = true := by
    decide +kernel
  obtain ⟨s, -, hreach, hp⟩ := Machine.reach_of_exec hrun
  simp only [Bool.and_eq_true, Bool.not_eq_true', decide_eq_false_iff_not, Option.isSome_iff_exists] at hp
  obtain ⟨⟨⟨r, hr⟩, hidle⟩, htwice⟩ := hp
  refine htwice (hclaim s hreach 0 r hr fun pid p hproc => ?_).nodup
  have := Table.any_eq_false.1 hidle pid p hproc
  cases this

end Search
end SafeSend
