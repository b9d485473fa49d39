import SafeSend.Jobs.Moves
import SafeSend.Search.System
/-!
# Moves of the search system

Where an execution stands in its handler, what its next operation does there, and what a step of the system can be.
-/
namespace SafeSend
namespace Search

open Lib
open Queue (ClaimedJob)

/-- Where an execution stands: before the operation it is about to carry out, or at its end. -/
inductive Stage
  | loading
  | starting (run : LoadedRun)
  | searching (run : LoadedRun)
  | ranking (run : LoadedRun) (found : Found)
  | deleting (run : LoadedRun) (ranked : List Ranked) (mode : Option SourceMode)
  | landing (l : Landing) (count : Nat)
  | failing (run : LoadedRun) (exc : Exn)
  | crediting (run : LoadedRun) (id : Nat)
  | closing (run : LoadedRun) (r : Except Exn Unit)
  | ended (r : Except Exn Unit)

namespace Stage

/-- The rest of the handler. -/
def rest (D : Deployment) (job : ClaimedJob) : Stage → SearchProg (Except Exn Unit)
  | loading => runAdapter D job
  | starting run => runLoaded D job run
  | searching run => do
    let answer ← perform (.search run.source run.connectionId run.query)
    let outcome ← storeFound D run answer
    concludeRun job run outcome
  | ranking run found => do
    let outcome ← storeFound D run (.ok found)
    concludeRun job run outcome
  | deleting run ranked mode => do
    let count ← storeResults D run ranked mode
    concludeRun job run (.ok count)
  | landing l count => do
    perform (.commitResults l)
    concludeRun job l.run (.ok count)
  | failing run exc => do
    recordRunFailure run exc job
    return .error exc
  | crediting run id => do
    perform (.recordSuccess id)
    closeSearchIfComplete run.searchId
    return .ok ()
  | closing run r => do
    closeSearchIfComplete run.searchId
    return r
  | ended r => return r

/-- After a success. -/
def succeeded (run : LoadedRun) : Stage :=
  match run.connectionId with
  | some id => crediting run id
  | none => closing run (.ok ())

theorem rest_succeeded (D : Deployment) (job : ClaimedJob) (run : LoadedRun) (count : Nat) :
    (succeeded run).rest D job = concludeRun job run (.ok count) := by
  unfold succeeded concludeRun creditConnection
  cases run.connectionId <;> rfl

/-- After a failure is recorded. -/
def recorded (job : ClaimedJob) (run : LoadedRun) (exc : Exn) : Stage :=
  if willRetry job exc then ended (.error exc) else closing run (.error exc)

theorem rest_recorded (D : Deployment) (job : ClaimedJob) (run : LoadedRun) (exc : Exn) :
    (recorded job run exc).rest D job =
      ((if willRetry job exc then return () else closeSearchIfComplete run.searchId) >>= fun _ => return .error exc) := by
  unfold recorded
  split <;> rfl

/-- **What the next operation does**: the stage it leads to, and the store it leaves. -/
inductive Next (D : Deployment) (job : ClaimedJob) (w : Store) : Stage → Stage → Store → Prop
  | gone (h : w.load job.refId = none) : Next D job w loading (ended (.ok ())) w
  | loaded {run : LoadedRun} (h : w.load job.refId = some run) : Next D job w loading (starting run) w
  | started (run : LoadedRun) {reg : Registration} (h : D.registry.registration run.source = .ok reg) :
    Next D job w (starting run) (searching run) (w.updateRun run.id (startRow w.now))
  | unknown (run : LoadedRun) {exc : Exn} (h : D.registry.registration run.source = .error exc) :
    Next D job w (starting run) (failing run exc) (w.updateRun run.id (startRow w.now))
  | failed (run : LoadedRun) (exc : Exn) : Next D job w (searching run) (failing run exc) w
  | found (run : LoadedRun) (found : Found) : Next D job w (searching run) (ranking run found) w
  | unranked (run : LoadedRun) {found : Found} {exc : Exn}
      (h : rankWithinSource D.arithmetic (found.raw.filter (normalized D.arithmetic)) w.now = .error exc) :
    Next D job w (ranking run found) (failing run exc) w
  | ranked (run : LoadedRun) {found : Found} {ranked : List Ranked}
      (h : rankWithinSource D.arithmetic (found.raw.filter (normalized D.arithmetic)) w.now = .ok ranked) :
    Next D job w (ranking run found) (deleting run ranked found.reportedMode) w
  | deleted (run : LoadedRun) (ranked : List Ranked) (mode : Option SourceMode) :
    Next D job w (deleting run ranked mode)
      (landing ⟨run, w.now, w.resultIds run.id, ranked.map (resultRow D.arithmetic run), mode⟩ ranked.length) w
  | landed (l : Landing) (count : Nat) : Next D job w (landing l count) (succeeded l.run) (w.commitResults l)
  | recordedFailure (run : LoadedRun) (exc : Exn) :
    Next D job w (failing run exc) (recorded job run exc)
      (w.updateRun run.id (failedRow w.now (failureStatus exc) (classify exc) exc.str))
  | credited (run : LoadedRun) (id : Nat) (connections : Table Send.ConnectionRow) :
    Next D job w (crediting run id) (closing run (.ok ())) { w with connections := connections }
  | closed (run : LoadedRun) (r : Except Exn Unit) : Next D job w (closing run r) (ended r) (w.closeSearch run.searchId)

variable {D : Deployment} {job : ClaimedJob} {w t : Store} {e : Env} {body : SearchProg (Except Exn Unit)}

/-- The next operation of a program that begins with `o`. -/
theorem step_perform {α : Type} {o : Op} {f : o.Ans → SearchProg α} {body : SearchProg α}
    (h : (perform o >>= f).step sem e w = some (body, t)) : ∃ x, sem o e w = some (x, t) ∧ body = f x := by
  obtain ⟨o', k, x, hp, hs, rfl⟩ := Prog.step_eq_some h
  obtain ⟨rfl, hk⟩ := Prog.op.inj hp
  obtain rfl := eq_of_heq hk
  exact ⟨x, hs, rfl⟩

theorem next_of_loading (h : (loading.rest D job).step sem e w = some (body, t)) :
    ∃ st, body = st.rest D job ∧ Next D job w loading st t := by
  obtain ⟨x, hs, rfl⟩ := step_perform h
  cases e <;> first | cases hs; done | skip
  obtain ⟨rfl, rfl⟩ := answer_of_some hs
  cases hl : t.load job.refId with
  | none => exact ⟨ended (.ok ()), rfl, .gone hl⟩
  | some run => exact ⟨starting run, rfl, .loaded hl⟩

theorem next_of_starting {run : LoadedRun} (h : ((starting run).rest D job).step sem e w = some (body, t)) :
    ∃ st, body = st.rest D job ∧ Next D job w (starting run) st t := by
  obtain ⟨x, hs, rfl⟩ := step_perform h
  cases e <;> first | cases hs; done | skip
  obtain ⟨rfl, rfl⟩ := answer_of_some hs
  unfold executeAdapterRun
  cases hr : D.registry.registration run.source with
  | error exc => exact ⟨failing run exc, rfl, .unknown run hr⟩
  | ok reg => exact ⟨searching run, rfl, .started run hr⟩

theorem next_of_searching {run : LoadedRun} (h : ((searching run).rest D job).step sem e w = some (body, t)) :
    ∃ st, body = st.rest D job ∧ Next D job w (searching run) st t := by
  obtain ⟨x, hs, rfl⟩ := step_perform h
  cases e <;> first | cases hs; done | skip
  obtain ⟨rfl, -⟩ := answer_of_some hs
  cases x with
  | error exc => exact ⟨failing run exc, rfl, .failed run exc⟩
  | ok found => exact ⟨ranking run found, rfl, .found run found⟩

theorem next_of_ranking {run : LoadedRun} {found : Found}
    (h : ((ranking run found).rest D job).step sem e w = some (body, t)) :
    ∃ st, body = st.rest D job ∧ Next D job w (ranking run found) st t := by
  obtain ⟨x, hs, rfl⟩ := step_perform h
  cases e <;> first | cases hs; done | skip
  obtain ⟨rfl, rfl⟩ := answer_of_some hs
  cases hr : rankWithinSource D.arithmetic (found.raw.filter (normalized D.arithmetic)) t.now with
  | error exc =>
    refine ⟨failing run exc, ?_, .unranked run hr⟩
    show (storeRanked D run found.reportedMode _ >>= concludeRun job run) = _
    rw [hr]
    rfl
  | ok ranked =>
    refine ⟨deleting run ranked found.reportedMode, ?_, .ranked run hr⟩
    show (storeRanked D run found.reportedMode _ >>= concludeRun job run) = _
    rw [hr]
    rfl

/-- **An execution is at a stage, and its next operation leads to the next one.** -/
theorem next_of_step {st : Stage} (h : (st.rest D job).step sem e w = some (body, t)) :
    ∃ st', body = st'.rest D job ∧ Next D job w st st' t := by
  cases st with
  | loading => exact next_of_loading h
  | starting run => exact next_of_starting h
  | searching run => exact next_of_searching h
  | ranking run found => exact next_of_ranking h
  | deleting run ranked mode =>
    obtain ⟨x, hs, rfl⟩ := step_perform h
    cases e <;> first | cases hs; done | skip
    obtain ⟨rfl, rfl⟩ := answer_of_some hs
    exact ⟨_, rfl, .deleted run ranked mode⟩
  | landing l count =>
    obtain ⟨x, hs, rfl⟩ := step_perform h
    cases e <;> first | cases hs; done | skip
    obtain ⟨rfl, -⟩ := answer_of_some hs
    exact ⟨_, (rest_succeeded D job l.run count).symm, .landed l count⟩
  | failing run exc =>
    obtain ⟨x, hs, rfl⟩ := step_perform h
    cases e <;> first | cases hs; done | skip
    obtain ⟨rfl, -⟩ := answer_of_some hs
    exact ⟨_, (rest_recorded D job run exc).symm, .recordedFailure run exc⟩
  | crediting run id =>
    obtain ⟨x, hs, rfl⟩ := step_perform h
    cases e <;> first | cases hs; done | skip
    obtain ⟨rfl, -⟩ := answer_of_some hs
    exact ⟨closing run (.ok ()), rfl, .credited run id _⟩
  | closing run r =>
    obtain ⟨x, hs, rfl⟩ := step_perform h
    cases e <;> first | cases hs; done | skip
    obtain ⟨rfl, -⟩ := answer_of_some hs
    exact ⟨ended r, rfl, .closed run r⟩
  | ended r => cases h

/-- What is ranked is what the source answered. -/
theorem next_answered {st : Stage} (h : (st.rest D job).step sem e w = some (body, t)) :
    ∃ st', body = st'.rest D job ∧ Next D job w st st' t ∧ ∀ run found, st' = ranking run found → e = .found (.ok found) := by
  by_cases hst : ∃ run, st = searching run
  · obtain ⟨run, rfl⟩ := hst
    obtain ⟨x, hs, rfl⟩ := step_perform h
    cases e <;> first | cases hs; done | skip
    obtain ⟨rfl, rfl⟩ := answer_of_some hs
    cases x with
    | error exc => exact ⟨failing run exc, rfl, .failed run exc, fun _ _ he => nomatch he⟩
    | ok found =>
      refine ⟨ranking run found, rfl, .found run found, fun run' found' he => ?_⟩
      obtain ⟨-, rfl⟩ := ranking.inj he
      rfl
  · obtain ⟨st', hbody, hn⟩ := next_of_step h
    refine ⟨st', hbody, hn, fun run found he => ?_⟩
    cases hn with
    | found run => exact absurd ⟨run, rfl⟩ hst
    | landed l count =>
      unfold succeeded at he
      cases hid : l.run.connectionId with
      | none => rw [hid] at he; cases he
      | some id => rw [hid] at he; cases he
    | recordedFailure run exc =>
      unfold recorded at he
      split at he
      · cases he
      · cases he
    | _ => cases he

end Stage

/-! ## Finishing -/

open Queue (JobRow)

theorem fail_eq_none {now : Nat} {jobs : Queue.Jobs} {job : ClaimedJob} {worker : String} {errorClass : ErrorClass}
    {detail : String} {retryAfter : Option Seconds} {draw : Draw}
    (h : Queue.fail now jobs job worker errorClass detail retryAfter draw = none) :
    errorClass = .transient ∧ job.attempts < job.maxAttempts := by
  unfold Queue.fail at h
  simp only at h
  split at h
  · cases h
  · rename_i hc
    split at h
    · cases h
    · exact ⟨not_not.1 hc, by omega⟩

/-- An end after which the job is not run again. -/
def concludes (job : ClaimedJob) : Except Exn Unit → Bool
  | .ok _ => true
  | .error exc => !willRetry job exc

/-- What finishing leaves of the jobs; a retry whose delay is no interval is not written. -/
def finished (w : Store) (p : Proc) (trace : String) (draw : Draw) (r : Except Exn Unit) : Queue.Jobs :=
  (w.finishJob p trace draw r).getD w.jobs

theorem willRetry_iff {job : ClaimedJob} {exc : Exn} :
    willRetry job exc = true ↔ classify exc = .transient ∧ job.attempts < job.maxAttempts := by
  simp only [willRetry, Bool.and_eq_true, beq_iff_eq, decide_eq_true_eq]

/-- **What finishing a job writes**: the row, while the worker owns it, is ready again if the job is to be retried, and
terminal otherwise. -/
theorem finished_cases (w : Store) (p : Proc) (trace : String) (draw : Draw) (r : Except Exn Unit) :
    finished w p trace draw r = w.jobs ∧ concludes p.job r = false ∨
      ∃ f : JobRow → JobRow, finished w p trace draw r = w.jobs.updateWhere p.job.id (Queue.ownedBy p.worker) f ∧
        ∀ j, (f j).work = j.work ∧ (f j).attempts = j.attempts ∧ (f j).state ≠ .running ∧
          ((f j).state = .ready ↔ concludes p.job r = false) := by
  cases r with
  | ok u =>
    exact .inr ⟨Queue.succeedRow p.began, rfl, fun j =>
      ⟨rfl, rfl, by simp [Queue.succeedRow], by simp [Queue.succeedRow, concludes]⟩⟩
  | error exc =>
    have hdef : finished w p trace draw (.error exc) = ((Queue.fail w.now w.jobs p.job p.worker (classify exc)
        (Send.detailOf exc trace) (Send.retryAfterOf exc) draw).map Prod.snd).getD w.jobs := rfl
    have hretry : concludes p.job (.error exc) = false ↔ classify exc = .transient ∧ p.job.attempts < p.job.maxAttempts := by
      rw [concludes, Bool.not_eq_false', willRetry_iff]
    rw [hdef]
    cases hf : Queue.fail w.now w.jobs p.job p.worker (classify exc) (Send.detailOf exc trace) (Send.retryAfterOf exc)
        draw with
    | none => exact .inl ⟨rfl, hretry.2 (fail_eq_none hf)⟩
    | some res =>
      obtain ⟨out, jobs⟩ := res
      rcases Queue.fail_cases hf with ⟨hc, state, hs, rfl⟩ | ⟨hc, ha, wait, delay, rfl⟩
      · refine .inr ⟨_, rfl, fun j => ⟨rfl, rfl, ?_, ?_⟩⟩
        · rcases hs with rfl | rfl <;> simp [Queue.terminalRow]
        · rw [hretry]
          constructor
          · intro hready
            rcases hs with rfl | rfl <;> cases hready
          · rintro ⟨hc', ha'⟩
            rcases hc with hc | hc
            · exact absurd hc' hc
            · omega
      · refine .inr ⟨_, rfl, fun j => ⟨rfl, rfl, by simp [Queue.retryRow], ?_⟩⟩
        rw [hretry]
        exact ⟨fun _ => ⟨hc, ha⟩, fun _ => rfl⟩

theorem next_finished (w : Store) (p : Proc) (trace : String) (draw : Draw) (r : Except Exn Unit) :
    (finished w p trace draw r).next = w.jobs.next := by
  rcases finished_cases w p trace draw r with ⟨he, -⟩ | ⟨f, he, -⟩
  · rw [he]
  · rw [he, Table.next_updateWhere]

theorem finished_finishes (w : Store) (p : Proc) (trace : String) (draw : Draw) (r : Except Exn Unit) :
    Queue.Finishes p.job.id w.jobs (finished w p trace draw r) := by
  rcases finished_cases w p trace draw r with ⟨he, -⟩ | ⟨f, he, hf⟩
  · rw [he]
    exact Queue.Finishes.refl _ _
  · rw [he]
    exact Queue.finishes_updateWhere _ _ (fun j hj => (Queue.ownedBy_iff.1 hj).1) fun j => ⟨(hf j).2.2.1, (hf j).1, (hf j).2.1⟩

/-! ## The system -/

variable {settings : Settings} {D : Deployment}

/-- The moves of the system. -/
inductive Moved (settings : Settings) (D : Deployment) (w : World) : Action → World → Prop
  | outside (a : Action) (store : Store) (h : w.store.outside settings D.registry a = some store) :
    Moved settings D w a { w with store := store }
  | claimed (worker : String) (limit : Nat) (locked : Nat → Bool) :
    Moved settings D w (.claim worker limit locked)
      { store := { w.store with jobs := (w.store.claimJobs settings worker limit locked).2 }
        procs := World.spawn D worker w.store.now w.procs (w.store.claimJobs settings worker limit locked).1 }
  | ran (pid : Nat) (e : Env) {p : Proc} {body : SearchProg (Except Exn Unit)} {store : Store}
      (hp : w.procs.get pid = some p) (hs : p.body.step sem e w.store = some (body, store)) :
    Moved settings D w (.step pid e) (w.withBody pid body store)
  | timedOut (pid : Nat) {p : Proc} {o : Op} {k : o.Ans → SearchProg (Except Exn Unit)} (hp : w.procs.get pid = some p)
      (hbody : p.body = .op o k) :
    Moved settings D w (.timeout pid) (w.withBody pid (.ret (.error (.os ""))) w.store)
  | finished (pid : Nat) (trace : String) (draw : Draw) {p : Proc} {r : Except Exn Unit}
      (hp : w.procs.get pid = some p) (hbody : p.body = .ret r) :
    Moved settings D w (.finish pid trace draw)
      (w.without pid ((w.store.finishJob p trace draw r).getD w.store.jobs))
  | crashed (pid : Nat) {p : Proc} (hp : w.procs.get pid = some p) :
    Moved settings D w (.crash pid) (w.without pid w.store.jobs)

/-- **Every step is one of these moves.** -/
theorem moved_of_step {a : Action} {w t : World} (h : World.step settings D w a = some t) : Moved settings D w a t := by
  cases a with
  | claim worker limit locked =>
    obtain rfl := Option.some.inj h
    exact .claimed worker limit locked
  | step pid e =>
    simp only [World.step, Option.bind_eq_some_iff, Option.map_eq_some_iff] at h
    obtain ⟨p, hp, ⟨body, store⟩, hs, rfl⟩ := h
    exact .ran pid e hp hs
  | timeout pid =>
    simp only [World.step, Option.bind_eq_some_iff] at h
    obtain ⟨p, hp, h⟩ := h
    unfold World.timeoutProc at h
    split at h
    · rename_i hbody
      obtain rfl := Option.some.inj h
      exact .timedOut pid hp hbody
    · cases h
  | finish pid trace draw =>
    simp only [World.step, Option.bind_eq_some_iff] at h
    obtain ⟨p, hp, h⟩ := h
    unfold World.finishProc at h
    split at h
    · rename_i hbody
      obtain rfl := Option.some.inj h
      exact .finished pid trace draw hp hbody
    · cases h
  | crash pid =>
    simp only [World.step, Option.map_eq_some_iff] at h
    obtain ⟨p, hp, rfl⟩ := h
    exact .crashed pid hp
  | _ =>
    simp only [World.step, Option.map_eq_some_iff] at h
    obtain ⟨store, hs, rfl⟩ := h
    exact .outside _ store hs

theorem spawn_get {worker : String} {now : Nat} : ∀ {l : List ClaimedJob} {procs : Table Proc} {pid : Nat} {p : Proc},
    (World.spawn D worker now procs l).get pid = some p →
      procs.get pid = some p ∨ procs.next ≤ pid ∧ ∃ job ∈ l, p = ⟨job, worker, now, runAdapter D job⟩
  | [], _, _, _, h => .inl h
  | job :: l, procs, pid, p, h => by
    rw [World.spawn] at h
    rcases spawn_get h with h | ⟨hle, job', hm, rfl⟩
    · rcases Table.get_insert_cases h with ⟨hpid, rfl⟩ | ⟨-, h⟩
      · exact .inr ⟨by omega, job, List.mem_cons_self, rfl⟩
      · exact .inl h
    · exact .inr ⟨by rw [Table.next_insert] at hle; omega, job', List.mem_cons_of_mem _ hm, rfl⟩

end Search
end SafeSend
