import SafeSend.Send.Attempts
/-!
# The reconcile budget

The trials of a job: its attempts, each executed to its end or cut off by a crash or the wall clock, and between them the
reconciliations of sweeps, cut off or not.  A probe is counted when it is begun, whatever it answers, so that those which
find nothing use up the budget of those which cannot tell.
-/
namespace SafeSend
namespace Send
namespace Budget

open Lib
open Lib.Prog (Uses Safe Contract Among Cut Live)
open Queue (ClaimedJob)

def attempt (job : ClaimedJob) (k : Nat) : ClaimedJob := { job with attempts := k }

def unfinished {α : Type} : SendProg α → Bool
  | .op _ _ => true
  | .ret _ => false

def dispatches (sid : Nat) (s : State) : Nat := ((s.store.sends.get sid).map SendRow.attempts).getD 0

/-- Whether an attempt was cut off before it committed a dispatch. -/
def missed {α : Type} (sid : Nat) (t : State) (p : SendProg α) (u : State) : Nat :=
  if unfinished p && dispatches sid u == dispatches sid t then 1 else 0

/-- The trials of the job: `k` of its attempts, `n` of which were cut off before they dispatched, and any number of
reconciliations by sweeps, each trial ending in a state that is `ok`.  What has come to its end has only nothing left. -/
inductive Trials (c : Contract Op Op.Ans Env State) (ok : State → Prop) (sid : Nat) (job : ClaimedJob) (s : State) :
    Nat → Nat → State → Prop
  | none : Trials c ok sid job s 0 0 s
  | attempt {k n : Nat} {t u : State} {p : SendProg (Except Exn Unit)} (h : Trials c ok sid job s k n t)
      (hlt : k < job.maxAttempts) (hrun : Cut c (handler (attempt job (k + 1))) t p u) (hok : ok u) :
      Trials c ok sid job s (k + 1) (n + missed sid t p u) u
  | sweep {k n : Nat} {t u : State} {p : SendProg Queue.ReconcileOutcome} (h : Trials c ok sid job s k n t)
      (hrun : Cut c (reconcileSendJob (attempt job k)) t p u) (hok : ok u) : Trials c ok sid job s k n u

variable {settings : Settings} {sid : Nat} {key : String} {answers : Op → Env → Prop} {c lo hi : Nat} {final : Bool}
  {q r : SendRow} {l : List Probe} {s t u : State} {e : Env} {job : ClaimedJob} {k n : Nat}

/-! ## A send that is not in flight -/

/-- The row stays as it is throughout. -/
def resting (settings : Settings) (sid : Nat) (key : String) (answers : Op → Env → Prop) (r : SendRow) (l : List Probe) :
    Contract Op Op.Ans Env State :=
  { alone settings sid key answers with inv := Stands sid r l }

variable (settings key answers) in
/-- A reconciliation that has nothing to ask parks nothing. -/
theorem settled_reconcileSend (note : String) (s : State)
    (hr : r.state ≠ .inFlight ∨ r.dispatchedAt.isSome = false) :
    Safe (resting settings sid key answers r l) (fun x _ => x ≠ .parkedUncertain) (reconcileSend sid note) s := by
  unfold reconcileSend
  refine Safe.perform (P := fun _ => True) (fun _ _ _ _ _ => trivial) trivial fun t e x u _ hi _ hs => ?_
  obtain ⟨w, hw, rfl⟩ := State.sem_eq_some hs
  obtain ⟨rfl, rfl⟩ := sem_loadSend hw
  have hstands : Stands sid r l t := hi
  refine ⟨hstands.store, trivial, ?_⟩
  rw [hstands.row]
  dsimp only
  split
  · exact Safe.ret (fun _ _ h _ _ => h) ReconcileVerdict.noConfusion
  · rename_i hflying
    rw [if_pos (by simpa using hr.resolve_left hflying)]
    exact Safe.ret (fun _ _ h _ _ => h) ReconcileVerdict.noConfusion

variable (settings key answers) in
theorem settled_reconcileSendJob (job : ClaimedJob) (s : State) (hsid : job.refId = sid)
    (hr : r.state ≠ .inFlight ∨ r.dispatchedAt.isSome = false) :
    Safe (resting settings sid key answers r l) (fun _ _ => True) (reconcileSendJob job) s := by
  unfold reconcileSendJob
  rw [hsid]
  refine Safe.bind (Safe.mono (fun v t _ _ => ?_) (settled_reconcileSend settings key answers "" s hr))
  cases v <;> exact Safe.done

variable (settings key answers) in
theorem settled_handler (job : ClaimedJob) (s : State) (hk : job.kind = .send) (hsid : job.refId = sid)
    (hr : r.state ≠ .inFlight) :
    Safe (resting settings sid key answers r l) (fun a _ => a = .ok ()) (handler job) s := by
  unfold handler
  rw [hk]
  unfold runSend
  rw [hsid]
  refine Safe.perform (P := fun _ => True) (fun _ _ _ _ _ => trivial) trivial fun t e x u _ hi _ hs => ?_
  obtain ⟨w, hw, rfl⟩ := State.sem_eq_some hs
  obtain ⟨rfl, rfl⟩ := sem_loadSend hw
  have hstands : Stands sid r l t := hi
  refine ⟨hstands.store, trivial, ?_⟩
  rw [hstands.row]
  dsimp only
  rw [if_pos hr]
  exact Safe.ret (fun _ _ h _ _ => h) rfl

/-! ## The course of a send whose dispatches fail -/

/-- How the send stands after `k` attempts, `n` of which did not come to dispatch it: the probes are counted, and it is in
flight, in doubt with its budget spent, or over with the last attempt. -/
structure Course (sid : Nat) (q : SendRow) (job : ClaimedJob) (k n : Nat) (r : SendRow) (l : List Probe) (t : State) :
    Prop where
  row : Stands sid r l t
  counted : r.reconcileAttempts = q.reconcileAttempts + l.length
  stands : (r.state = .inFlight ∧ r.attempts + n = q.attempts + k) ∨
    (r.state = .uncertain ∧ MAX_RECONCILE_ATTEMPTS ≤ r.reconcileAttempts) ∨
      r.state = .failedTransient ∧ job.maxAttempts ≤ k

theorem dispatches_eq (h : Stands sid r l s) : dispatches sid s = r.attempts := by
  simp only [dispatches, h.row, Option.map_some, Option.getD_some]

/-- An attempt that left the send in flight has dispatched it, unless it was cut off before. -/
theorem attempts_add_missed {p : SendProg (Except Exn Unit)} (h : Stands sid r l t) {r' : SendRow} {l' : List Probe}
    (h' : Stands sid r' l' u) (hr' : r'.state = .inFlight) (htried : r.attempts ≤ r'.attempts ∧ r'.attempts ≤ r.attempts + 1)
    (hended : ∀ a, p = .ret a → Attempted sid r final a u) : r'.attempts + missed sid t p u = r.attempts + 1 := by
  have same {state : SendState} {attempts reconciles : Nat} {l₁ : List Probe}
      (ht : Tally sid r.draftId state attempts reconciles l₁ u) : r'.state = state ∧ r'.attempts = attempts := by
    obtain ⟨r'', hr'', -, hstate, -, hatt, -⟩ := ht
    rw [h'.row.symm.trans hr''.row |> Option.some.inj]
    exact ⟨hstate, hatt⟩
  unfold missed
  cases p with
  | op o k =>
    rw [dispatches_eq h, dispatches_eq h']
    simp only [unfinished, Bool.true_and, beq_iff_eq]
    split <;> omega
  | ret a =>
    simp only [unfinished, Bool.false_and, Bool.false_eq_true, if_false, Nat.add_zero]
    cases hended a rfl with
    | exhausted _ _ ht => cases hr'.symm.trans (same ht).1
    | raised _ ht =>
      cases ht.2 with
      | again _ ht => exact (same ht).2
      | ended _ _ ht => cases hr'.symm.trans (same ht).1
      | doubted _ _ ht => cases hr'.symm.trans (same ht).1

variable (settings key) in
/-- A sweep's reconciliation of a send in flight dispatches nothing. -/
theorem steady_reconcileSendJob (job : ClaimedJob) (hsid : job.refId = sid) (h : Stands sid q l s)
    (hf : Fine c lo hi final l.length q) (hq : q.state = .inFlight) :
    Safe (steady settings sid key Fails c lo hi final) (fun _ _ => True) (reconcileSendJob job) s := by
  unfold reconcileSendJob
  rw [hsid]
  by_cases hd : q.dispatchedAt.isSome = true
  · refine Safe.bind (Safe.mono (fun v t _ _ => ?_) (steady_reconcileSend settings key within_fails "" h hf hq hd))
    cases v <;> exact Safe.done
  · unfold reconcileSend
    refine Safe.bind (Safe.perform (stable_stands q l) h fun t e x u ht _ _ hs => ?_)
    obtain ⟨w, hw, rfl⟩ := State.sem_eq_some hs
    obtain ⟨rfl, rfl⟩ := sem_loadSend hw
    refine ⟨ht.store.stays hf, trivial, ?_⟩
    rw [ht.row]
    dsimp only
    rw [if_neg (not_not.2 hq), if_pos (by simpa using hd)]
    exact Safe.of_rely fun _ _ _ => Safe.ret (fun _ _ h hl _ => h.rely hl) Safe.done

/-- One attempt more. -/
theorem Course.attempt {p : SendProg (Except Exn Unit)} (hk : job.kind = .send) (hsid : job.refId = sid)
    (h : Course sid q job k n r l t) (hlt : k < job.maxAttempts)
    (hrun : Cut (alone settings sid key Fails) (handler (attempt job (k + 1))) t p u) :
    ∃ r' l', Course sid q job (k + 1) (n + missed sid t p u) r' l' u := by
  by_cases hr : r.state = .inFlight
  · have hfine : Fine q.reconcileAttempts r.attempts (r.attempts + 1) (last (Budget.attempt job (k + 1))) l.length r :=
      ⟨h.counted, ⟨Nat.le_refl _, Nat.le_succ _⟩, .inl hr⟩
    have hsafe := steady_handler settings key (Budget.attempt job (k + 1)) hk hsid h.row hfine hr (Nat.lt_succ_self _)
    obtain ⟨⟨r', l', hr', hf⟩, hrest⟩ := Prog.Safe.cut (fun _ _ hi hl => hi.leaves hl) hrun (h.row.stays hfine) hsafe
    refine ⟨r', l', hr', hf.counted, ?_⟩
    rcases hf.stands with hs | hs | ⟨hs, hlast⟩
    · have hatt := attempts_add_missed (p := p) h.row hr' hs hf.tried fun a ha => by
        subst ha
        exact hrest.post (hr'.stays hf)
      rcases h.stands with ⟨-, hcount⟩ | ⟨hs', -⟩ | ⟨hs', -⟩
      · exact .inl ⟨hs, by omega⟩
      · cases hr.symm.trans hs'
      · cases hr.symm.trans hs'
    · exact .inr (.inl hs)
    · exact .inr (.inr ⟨hs, of_decide_eq_true hlast⟩)
  · have hsafe := settled_handler settings key Fails (l := l) (Budget.attempt job (k + 1)) t hk hsid hr
    obtain ⟨hrow, -⟩ := Prog.Safe.cut (fun _ _ hi hl => hi.leaves hl) hrun h.row hsafe
    refine ⟨r, l, hrow, h.counted, ?_⟩
    rcases h.stands with ⟨hs, -⟩ | hs | ⟨-, hle⟩
    · exact absurd hs hr
    · exact .inr (.inl hs)
    · omega

/-- One sweep more. -/
theorem Course.sweep {p : SendProg Queue.ReconcileOutcome} (hsid : job.refId = sid) (h : Course sid q job k n r l t)
    (hrun : Cut (alone settings sid key Fails) (reconcileSendJob (Budget.attempt job k)) t p u) :
    ∃ r' l', Course sid q job k n r' l' u := by
  by_cases hr : r.state = .inFlight
  · have hfine : Fine q.reconcileAttempts r.attempts r.attempts false l.length r :=
      ⟨h.counted, ⟨Nat.le_refl _, Nat.le_refl _⟩, .inl hr⟩
    have hsafe := steady_reconcileSendJob settings key (Budget.attempt job k) hsid h.row hfine hr
    obtain ⟨⟨r', l', hr', hf⟩, -⟩ := Prog.Safe.cut (fun _ _ hi hl => hi.leaves hl) hrun (h.row.stays hfine) hsafe
    refine ⟨r', l', hr', hf.counted, ?_⟩
    have hatt : r'.attempts = r.attempts := Nat.le_antisymm hf.tried.2 hf.tried.1
    rcases hf.stands with hs | hs | ⟨-, hlast⟩
    · rcases h.stands with ⟨-, hcount⟩ | ⟨hs', -⟩ | ⟨hs', -⟩
      · exact .inl ⟨hs, by omega⟩
      · cases hr.symm.trans hs'
      · cases hr.symm.trans hs'
    · exact .inr (.inl hs)
    · cases hlast
  · have hsafe := settled_reconcileSendJob settings key Fails (l := l) (Budget.attempt job k) t hsid (.inl hr)
    obtain ⟨hrow, -⟩ := Prog.Safe.cut (fun _ _ hi hl => hi.leaves hl) hrun h.row hsafe
    refine ⟨r, l, hrow, h.counted, ?_⟩
    rcases h.stands with ⟨hs, -⟩ | hs | hs
    · exact absurd hs hr
    · exact .inr (.inl hs)
    · exact .inr (.inr hs)

/-- **What the trials of a job leave**, wherever they are cut off. -/
theorem course_of_trials (hk : job.kind = .send) (hsid : job.refId = sid) (h : Stands sid q [] s) (hq : q.state = .inFlight)
    {ok : State → Prop} (hrun : Trials (alone settings sid key Fails) ok sid job s k n t) :
    ∃ r l, Course sid q job k n r l t := by
  induction hrun with
  | none => exact ⟨q, [], h, rfl, .inl ⟨hq, rfl⟩⟩
  | attempt _ hlt hrun _ ih =>
    obtain ⟨r, l, hc⟩ := ih
    exact hc.attempt hk hsid hlt hrun
  | sweep _ hrun _ ih =>
    obtain ⟨r, l, hc⟩ := ih
    exact hc.sweep hsid hrun

theorem attempted_of_among (hk : job.kind = .send) (hsid : job.refId = sid) {a : Except Exn Unit}
    (h : Course sid q job k n r l t) (hr : r.state = .inFlight)
    (hrun : Among (alone settings sid key Fails) (handler (attempt job (k + 1))) t a u) :
    Attempted sid r (last (attempt job (k + 1))) a u := by
  have hfine : Fine q.reconcileAttempts r.attempts (r.attempts + 1) (last (attempt job (k + 1))) l.length r :=
    ⟨h.counted, ⟨Nat.le_refl _, Nat.le_succ _⟩, .inl hr⟩
  have hsafe := steady_handler settings key (attempt job (k + 1)) hk hsid h.row hfine hr (Nat.lt_succ_self _)
  obtain ⟨hi, hpost⟩ := Prog.Safe.cut (fun _ _ hi hl => hi.leaves hl) hrun.cut (h.row.stays hfine) hsafe
  exact hpost.post hi

/-! ## The last attempt -/

/-- The send is over with nothing sent, `m` times dispatched. -/
def Ended (sid m : Nat) (t : State) : Prop :=
  ∃ r, t.store.sends.get sid = some r ∧ r.state = .failedTransient ∧ r.attempts = m

theorem Tally.ended_iff {draftId attempts reconciles m : Nat} {state : SendState}
    (h : Tally sid draftId state attempts reconciles l t) : Ended sid m t ↔ state = .failedTransient ∧ attempts = m := by
  obtain ⟨r, hr, -, rfl, -, rfl, -⟩ := h
  constructor
  · rintro ⟨r', hr', hs, hm⟩
    obtain rfl := Option.some.inj (hr.row.symm.trans hr')
    exact ⟨hs, hm⟩
  · rintro ⟨hs, hm⟩
    exact ⟨r, hr.row, hs, hm⟩

/-- **The last attempt ends the send exactly where each attempt came to dispatch it and a probe is left**: after the
probes counted so far, and one before the dispatch where the send was dispatched before. -/
theorem ended_iff (hk : job.kind = .send) (hsid : job.refId = sid) (h : Stands sid q [] s) (hq : q.state = .inFlight)
    (hrun : Trials (alone settings sid key Fails) (fun _ => True) sid job s k n t) (hlast : job.maxAttempts = k + 1)
    {a : Except Exn Unit} (hend : Among (alone settings sid key Fails) (handler (attempt job (k + 1))) t a u) :
    Ended sid (q.attempts + job.maxAttempts) u ↔
      n = 0 ∧ ∃ r, t.store.sends.get sid = some r ∧
        q.reconcileAttempts + t.probes.length + asked r < MAX_RECONCILE_ATTEMPTS := by
  obtain ⟨r, l, hc⟩ := course_of_trials hk hsid h hq hrun
  have hright : (∃ r', t.store.sends.get sid = some r' ∧
      q.reconcileAttempts + t.probes.length + asked r' < MAX_RECONCILE_ATTEMPTS) ↔
      r.reconcileAttempts + asked r < MAX_RECONCILE_ATTEMPTS := by
    simp only [hc.row.row, Option.some.injEq, exists_eq_left', hc.row.probes, hc.counted]
  rw [hright]
  have hceiling : last (attempt job (k + 1)) = true := decide_eq_true (by simp only [attempt]; omega)
  by_cases hr : r.state = .inFlight
  · have hcount : r.attempts + n = q.attempts + k := by
      rcases hc.stands with ⟨-, hcount⟩ | ⟨hs, -⟩ | ⟨hs, -⟩
      · exact hcount
      · cases hr.symm.trans hs
      · cases hr.symm.trans hs
    cases attempted_of_among hk hsid hc hr hend with
    | exhausted _ hb ht =>
      rw [ht.ended_iff]
      exact ⟨fun h => (nomatch h.1), fun h => absurd h.2 (by omega)⟩
    | raised _ ht =>
      cases ht.2 with
      | again hl _ => cases hl.symm.trans hceiling
      | ended _ hb ht =>
        rw [ht.ended_iff]
        exact ⟨fun h => ⟨by omega, hb⟩, fun h => ⟨rfl, by omega⟩⟩
      | doubted _ hb ht =>
        rw [ht.ended_iff]
        exact ⟨fun h => (nomatch h.1), fun h => absurd h.2 (by omega)⟩
  · have hsafe := settled_handler settings key Fails (l := l) (attempt job (k + 1)) t hk hsid hr
    obtain ⟨hrow, -⟩ := Prog.Safe.cut (fun _ _ hi hl => hi.leaves hl) hend.cut hc.row hsafe
    rcases hc.stands with ⟨hs, -⟩ | ⟨hs, hspent⟩ | ⟨-, hle⟩
    · exact absurd hs hr
    · refine ⟨?_, fun h => absurd h.2 (by omega)⟩
      rintro ⟨r', hr', hs', -⟩
      obtain rfl := Option.some.inj (hrow.row.symm.trans hr')
      cases hs.symm.trans hs'
    · omega

/-- **Not in doubt before the budget is spent**, wherever a trial is cut off. -/
theorem spent_of_uncertain (hk : job.kind = .send) (hsid : job.refId = sid) (h : Stands sid q [] s)
    (hq : q.state = .inFlight) (hrun : Trials (alone settings sid key Fails) (fun _ => True) sid job s k n t)
    (hr : t.store.sends.get sid = some r) (hu : r.state = .uncertain) :
    MAX_RECONCILE_ATTEMPTS ≤ q.reconcileAttempts + t.probes.length := by
  obtain ⟨r', l, hc⟩ := course_of_trials hk hsid h hq hrun
  obtain rfl := Option.some.inj (hc.row.row.symm.trans hr)
  rw [hc.row.probes, ← hc.counted]
  rcases hc.stands with ⟨hs, -⟩ | ⟨-, hspent⟩ | ⟨hs, -⟩
  · cases hu.symm.trans hs
  · exact hspent
  · cases hu.symm.trans hs

/-! ## Attempts that nothing interrupts -/

/-- The job's first `k` attempts, each executed to its end, and each raising what the queue retries. -/
inductive Attempts (settings : Settings) (sid : Nat) (key : String) (job : ClaimedJob) (s : State) : Nat → State → Prop
  | none : Attempts settings sid key job s 0 s
  | next {k : Nat} {t u : State} {exc : Exn} (h : Attempts settings sid key job s k t)
      (hrun : Among (alone settings sid key Fails) (handler (attempt job (k + 1))) t (.error exc) u)
      (hexc : classify exc = .transient) : Attempts settings sid key job s (k + 1) u

/-- **Conclusive probes never end in uncertain**: the send is dispatched on each of the job's attempts, each but the last
leaves it in flight for the next, and the last ends it. -/
def Conclusive (settings : Settings) (sid : Nat) (key : String) (job : ClaimedJob) (s : State) (q : SendRow) : Prop :=
  ∀ k t a u, Attempts settings sid key job s k t → k < job.maxAttempts →
    Among (alone settings sid key Fails) (handler (attempt job (k + 1))) t a u →
      (∃ exc, a = .error exc ∧ classify exc = .transient) ∧
        ∃ r, u.store.sends.get sid = some r ∧ r.attempts = q.attempts + (k + 1) ∧
          r.state = if k + 1 < job.maxAttempts then .inFlight else .failedTransient

/-- How many probes have been counted when `k` attempts are over. -/
def spent (q : SendRow) : Nat → Nat
  | 0 => q.reconcileAttempts
  | k + 1 => q.reconcileAttempts + asked q + k

theorem trials_of_attempts (h : Attempts settings sid key job s k t) (hle : k ≤ job.maxAttempts) :
    Trials (alone settings sid key Fails) (fun _ => True) sid job s k 0 t := by
  induction h with
  | none => exact .none
  | next _ hrun _ ih => exact .attempt (ih (by omega)) (by omega) hrun.cut trivial

/-- **What a job's attempts leave**, below its ceiling. -/
theorem attempts_tally (hk : job.kind = .send) (hsid : job.refId = sid) (h : Stands sid q [] s) (hq : q.state = .inFlight)
    (hrun : Attempts settings sid key job s k t) (hlt : k < job.maxAttempts) :
    ∃ r l, Course sid q job k 0 r l t ∧ r.state = .inFlight ∧ r.attempts = q.attempts + k ∧
      r.reconcileAttempts + asked r = spent q (k + 1) := by
  induction hrun with
  | none => exact ⟨q, [], ⟨h, rfl, .inl ⟨hq, rfl⟩⟩, hq, rfl, rfl⟩
  | @next k t u exc hprev hrun hexc ih =>
    obtain ⟨r, l, hc, hstate, hatt, hspent⟩ := ih (by omega)
    have hbelow : last (attempt job (k + 1)) = false := decide_eq_false (by simpa [attempt] using hlt)
    have htrials := trials_of_attempts (.next hprev hrun hexc) (by omega)
    obtain ⟨r', l', hc'⟩ := course_of_trials hk hsid h hq htrials
    cases attempted_of_among hk hsid hc hstate hrun with
    | raised hb ht =>
      rw [hbelow] at ht
      cases ht.2 with
      | ended hl _ _ => cases hl
      | doubted hl _ _ => cases hl
      | again _ ht =>
        obtain ⟨r'', hr'', -, hstate', hd', hatt', hrec'⟩ := ht
        obtain rfl := Option.some.inj (hc'.row.row.symm.trans hr''.row)
        have hasked : asked r' = 1 := if_pos hd'
        refine ⟨r', l', hc', hstate', by omega, ?_⟩
        rw [hasked, hrec', hspent]
        rfl

variable (settings key) in
/-- What the operations of the worker need to be answered: a write, texts that the database takes. -/
theorem write_lives {α : Type} {f : Bool → SendProg α} {u : Write} (hu : u.storable = true) (id : Nat)
    (hf : ∀ x, Live (alone settings sid key Fails) (f x)) :
    Live (alone settings sid key Fails) (perform (.write id u) >>= f) :=
  Live.perform (fun _ => True)
    (fun s => ⟨.none, _, _, trivial, congrArg (Option.map _) (sem_storable hu id s.store), trivial⟩) fun x _ => hf x

variable (settings sid key) in
theorem live_reconcileSend (id : Nat) {note : String} (hnote : Store.storable note = true) :
    Live (alone settings sid key Fails) (reconcileSend id note) := by
  have one (u : Write) (hu : u.storable = true) (v : ReconcileVerdict) :
      Live (alone settings sid key Fails) (perform (.write id u) >>= fun _ => .ret v) :=
    write_lives settings key hu id fun _ => Live.ret v
  unfold reconcileSend
  refine Live.perform (fun _ => True) (fun s => ⟨.none, _, _, trivial, rfl, trivial⟩) fun send _ => ?_
  cases send with
  | none => exact Live.ret _
  | some send =>
    dsimp only
    split
    · exact Live.ret _
    · split
      · exact Live.ret _
      · unfold reconcileDispatched
        split
        · refine one _ ?_ _
          split
          · decide
          · simpa [Write.storable, Write.texts] using hnote
        · refine Live.perform (fun _ => True) (fun s => ⟨.none, _, _, trivial, rfl, trivial⟩) fun draft _ => ?_
          cases draft with
          | none => exact one _ (by decide) _
          | some draft =>
            refine Live.perform (fun _ => True) (fun s => ⟨.none, _, _, trivial, rfl, trivial⟩) fun attempts _ => ?_
            refine Live.perform (· = .ok { verdict := .absent })
              (fun s => ⟨.probed (.ok { verdict := .absent }), _, _, ⟨_, rfl, rfl⟩, rfl, rfl⟩) fun v hv => ?_
            subst hv
            exact one _ (by decide) _

variable (settings sid key) in
theorem live_finalizeFailure (id : Nat) (job : ClaimedJob) (artifact : Option (ProviderKind × SendRequest)) :
    Live (alone settings sid key Fails) (finalizeFailure id (.os "") job artifact) := by
  unfold finalizeFailure
  dsimp only
  rw [if_pos (by decide)]
  split
  · exact write_lives settings key (by decide) id fun _ => Live.ret ()
  · refine Live.bind (live_reconcileSend settings sid key id (by decide)) fun verdict => ?_
    cases verdict with
    | notSent => exact write_lives settings key (by decide) id fun _ => Live.ret ()
    | retryLater => exact write_lives settings key (by decide) id fun _ => Live.ret ()
    | _ => exact Live.ret ()

variable (settings sid key) in
theorem live_dispatchSend (job : ClaimedJob) (send : SendRow) :
    Live (alone settings sid key Fails) (dispatchSend job send) := by
  unfold dispatchSend
  refine Live.perform (fun _ => True) (fun s => ⟨.none, _, _, trivial, rfl, trivial⟩) fun draft _ => ?_
  cases draft with
  | none => exact Live.ret _
  | some draft =>
    refine Live.perform (· = .ok {}) (fun s => ⟨.prepared (.ok {}), _, _, ⟨_, rfl⟩, rfl, rfl⟩) fun r hr => ?_
    subst hr
    refine write_lives settings key (by decide) _ fun _ => ?_
    simp only [handOver, providerSend]
    refine Live.perform (fun _ => True) (fun s => ⟨.none, _, _, trivial, rfl, trivial⟩) fun call _ => ?_
    refine Live.perform (· = .error (.os ""))
      (fun s => ⟨.receipt (.error (.os "")), _, _, ⟨_, rfl, rfl⟩, rfl, rfl⟩) fun r hr => ?_
    subst hr
    exact Live.bind (live_finalizeFailure settings sid key _ job _) fun _ => Live.ret _

variable (settings sid key) in
/-- An attempt can always come to its end. -/
theorem live_handler (job : ClaimedJob) (hk : job.kind = .send) : Live (alone settings sid key Fails) (handler job) := by
  unfold handler
  rw [hk]
  unfold runSend
  refine Live.perform (fun _ => True) (fun s => ⟨.none, _, _, trivial, rfl, trivial⟩) fun send _ => ?_
  cases send with
  | none => exact Live.ret _
  | some send =>
    dsimp only
    split
    · exact Live.ret _
    · split
      · refine Live.bind (live_reconcileSend settings sid key _ (by decide)) fun verdict => ?_
        cases verdict with
        | notSent => exact live_dispatchSend settings sid key job send
        | _ => exact Live.ret _
      · exact live_dispatchSend settings sid key job send

variable (settings key) in
/-- **Uninterrupted attempts end the send exactly where the budget covers** a probe before every attempt that follows a
dispatch, and one after the last. -/
theorem conclusive_iff (hk : job.kind = .send) (hsid : job.refId = sid) (hpos : 0 < job.maxAttempts)
    (h : Stands sid q [] s) (hq : q.state = .inFlight) :
    Conclusive settings sid key job s q ↔ q.reconcileAttempts + asked q + job.maxAttempts ≤ MAX_RECONCILE_ATTEMPTS := by
  constructor
  · intro hc
    have hchain : ∀ k, k < job.maxAttempts → ∃ t, Attempts settings sid key job s k t := by
      intro k
      induction k with
      | zero => exact fun _ => ⟨s, .none⟩
      | succ k ih =>
        intro hlt
        obtain ⟨t, ht⟩ := ih (by omega)
        obtain ⟨a, u, hrun⟩ := live_handler settings sid key (attempt job (k + 1)) hk t
        obtain ⟨⟨exc, rfl, hexc⟩, -⟩ := hc k t a u ht (by omega) hrun
        exact ⟨u, .next ht hrun hexc⟩
    -- the last attempt, which ends the send only if a probe is left for it
    obtain ⟨t, ht⟩ := hchain (job.maxAttempts - 1) (by omega)
    obtain ⟨r, l, hcourse, -, -, hspent⟩ := attempts_tally hk hsid h hq ht (by omega)
    obtain ⟨a, u, hrun⟩ := live_handler settings sid key (attempt job (job.maxAttempts - 1 + 1)) hk t
    obtain ⟨-, r', hr', hatt, hended⟩ := hc _ t a u ht (by omega) hrun
    rw [if_neg (by omega)] at hended
    have hend : Ended sid (q.attempts + job.maxAttempts) u := ⟨r', hr', hended, by omega⟩
    have htrials := trials_of_attempts ht (by omega)
    obtain ⟨-, r'', hr'', hlt⟩ := (ended_iff hk hsid h hq htrials (by omega) hrun).1 hend
    obtain rfl := Option.some.inj (hcourse.row.row.symm.trans hr'')
    rw [hcourse.row.probes, ← hcourse.counted, hspent] at hlt
    have : q.reconcileAttempts + asked q + (job.maxAttempts - 1) < MAX_RECONCILE_ATTEMPTS := hlt
    omega
  · intro hbudget k t a u hprev hlt hrun
    obtain ⟨r, l, hc, hstate, hatt, hspent⟩ := attempts_tally hk hsid h hq hprev hlt
    have hcovered : r.reconcileAttempts + asked r < MAX_RECONCILE_ATTEMPTS := by
      rw [hspent]
      show q.reconcileAttempts + asked q + k < MAX_RECONCILE_ATTEMPTS
      omega
    cases attempted_of_among hk hsid hc hstate hrun with
    | exhausted _ hb _ => omega
    | raised _ ht =>
      refine ⟨ht.1, ?_⟩
      cases ht.2 with
      | again hlast ht =>
        obtain ⟨r', hr', -, hstate', -, hatt', -⟩ := ht
        have hbelow : k + 1 < job.maxAttempts := Nat.lt_of_not_le (of_decide_eq_false hlast)
        exact ⟨r', hr'.row, by omega, by rw [if_pos hbelow, hstate']⟩
      | ended hlast _ ht =>
        obtain ⟨r', hr', -, hstate', -, hatt', -⟩ := ht
        have hceiling : ¬ k + 1 < job.maxAttempts := Nat.not_lt.2 (of_decide_eq_true hlast)
        exact ⟨r', hr'.row, by omega, by rw [if_neg hceiling, hstate']⟩
      | doubted _ hb _ => omega

/-! ## The probes a send is parked after -/

/-- The probes are as many as the row has counted, no more than the budget, and each answered as `V` allows. -/
structure Counts (sid : Nat) (V : Except Exn ProbeResult → Prop) (r : SendRow) (l : List Probe) (s : State) : Prop where
  row : Stands sid r l s
  counted : r.reconcileAttempts = l.length
  within : l.length ≤ MAX_RECONCILE_ATTEMPTS
  allowed : ∀ v, some v ∈ l → V v

/-- The count stands throughout, whatever a dispatch comes to. -/
def counting (settings : Settings) (sid : Nat) (key : String) (answers : Op → Env → Prop)
    (V : Except Exn ProbeResult → Prop) : Contract Op Op.Ans Env State :=
  { alone settings sid key answers with inv := fun s => ∃ r l, Counts sid V r l s }

/-- The worker's operations that count no probe. -/
def uncounted : Op → Bool
  | .bumpReconcileAttempts _ => false
  | o => !o.api

theorem uncounted_of_writes {o : Op} (h : o.writes = true) : uncounted o = true := by
  cases o <;> first | rfl | cases h

variable {V : Except Exn ProbeResult → Prop} {α : Type} {o : Op}

theorem Counts.leaves (h : Counts sid V r l s) (hl : Leaves sid key s t) : Counts sid V r l t :=
  ⟨h.row.leaves hl, h.counted, h.within, h.allowed⟩

/-- An answer replaces the probe it answers. -/
theorem noted_cases (sid : Nat) (ho : uncounted o = true) (e : Env) (l : List Probe) :
    noted sid o e l = l ∨ ∃ provider request v l', o = .probe provider request ∧ e = .probed v ∧ l = none :: l' ∧
      noted sid o e l = some v :: l' := by
  cases o <;> first | cases ho; done | exact .inl rfl | skip
  case probe provider request =>
    cases e <;> first | exact .inl rfl | skip
    case probed v =>
      cases l with
      | nil => exact .inl rfl
      | cons p l' =>
        cases p with
        | none => exact .inr ⟨provider, request, v, l', rfl, rfl, rfl, rfl⟩
        | some _ => exact .inl rfl

theorem row_uncounted {w w' : Store} (h : Did settings w o w') (ho : uncounted o = true)
    (hr : w.sends.get sid = some r) :
    ∃ r', w'.sends.get sid = some r' ∧ r'.reconcileAttempts = r.reconcileAttempts ∧ r'.draftId = r.draftId := by
  have hm := h.send sid
  generalize w'.sends.get sid = x at hm ⊢
  generalize w'.forced sid = n at hm
  cases hm with
  | same => exact ⟨r, hr, rfl, rfl⟩
  | wrote u hr' _ =>
    obtain rfl := Option.some.inj (hr.symm.trans hr')
    cases u <;> exact ⟨_, rfl, rfl, rfl⟩
  | bumped | claimed | retried | attested | resent => cases ho

theorem Counts.did (hallowed : ∀ provider request v, answers (.probe provider request) (.probed v) → V v)
    (h : Counts sid V r l s) (ho : uncounted o = true) (hok : answers o e) {x : o.Ans}
    (hs : State.sem settings sid o e s = some (x, t)) : ∃ r' l', Counts sid V r' l' t := by
  obtain ⟨w, hw, rfl⟩ := State.sem_eq_some hs
  obtain ⟨r', hr', hrec, hdraft⟩ := row_uncounted (did_of_sem hw) ho h.row.row
  have hsome : (w.drafts.get r'.draftId).isSome := by
    rcases (did_of_sem hw).draft r'.draftId with hd | ⟨_, _, _, rfl, _⟩ | ⟨_, _, rfl, _⟩
    · rw [hd, hdraft]
      exact h.row.draft
    · cases ho
    · cases ho
  rcases noted_cases sid ho e s.probes with hl | ⟨provider, request, v, l', rfl, rfl, hl', hl⟩
  · exact ⟨r', l, ⟨hr', hsome, hl.trans h.row.probes⟩, hrec.trans h.counted, h.within, h.allowed⟩
  · have hlist : l = none :: l' := h.row.probes.symm.trans hl'
    refine ⟨r', some v :: l', ⟨hr', hsome, hl⟩, ?_, ?_, fun v' hv' => ?_⟩
    · rw [hrec, h.counted, hlist]
      rfl
    · have := h.within
      rwa [hlist] at this
    · rcases List.mem_cons.1 hv' with he | hmem
      · obtain rfl := Option.some.inj he
        exact hallowed provider request v' hok
      · exact h.allowed v' (hlist ▸ List.mem_cons_of_mem _ hmem)

/-- One operation that counts no probe, and then the rest. -/
theorem Safe.uncounted (hallowed : ∀ provider request v, answers (.probe provider request) (.probed v) → V v)
    {f : o.Ans → SendProg α} (ho : uncounted o = true)
    (hk : ∀ t x, Safe (counting settings sid key answers V) (fun _ _ => True) (f x) t) (s : State) :
    Safe (counting settings sid key answers V) (fun _ _ => True) (perform o >>= f) s :=
  Safe.perform (Prog.Stable.true _) trivial fun _ _ x u _ hi hok hs =>
    let ⟨_, _, hc⟩ := hi
    ⟨hc.did hallowed ho hok hs, trivial, hk u x⟩

theorem counting_of_uncounted (hallowed : ∀ provider request v, answers (.probe provider request) (.probed v) → V v) :
    ∀ {p : SendProg α}, Uses (fun o => uncounted o = true) p → ∀ s : State,
      Safe (counting settings sid key answers V) (fun _ _ => True) p s
  | .ret _, _, _ => Safe.done
  | .op _ _, h, _ => Safe.op (Prog.Stable.true _) trivial fun _ _ x u _ hi hok hs =>
    let ⟨_, _, hc⟩ := hi
    ⟨hc.did hallowed (Uses.op_iff.1 h).1 hok hs, trivial, counting_of_uncounted hallowed ((Uses.op_iff.1 h).2 x) u⟩

variable (settings key) in
/-- **A reconciliation counts its probe before it makes it**, and only within the budget. -/
theorem counting_reconcileSend (hallowed : ∀ provider request v, answers (.probe provider request) (.probed v) → V v)
    (note : String) (s : State) :
    Safe (counting settings sid key answers V) (fun _ _ => True) (reconcileSend sid note) s := by
  unfold reconcileSend
  refine Safe.perform (Prog.Stable.true _) trivial fun t e x u _ hi _ hs => ?_
  obtain ⟨r, l, hc⟩ := hi
  obtain ⟨w, hw, rfl⟩ := State.sem_eq_some hs
  obtain ⟨rfl, rfl⟩ := sem_loadSend hw
  refine ⟨⟨r, l, hc⟩, trivial, ?_⟩
  rw [hc.row.row]
  dsimp only
  split
  · exact Safe.done
  · split
    · exact Safe.done
    · unfold reconcileDispatched
      split
      · exact Safe.uncounted hallowed rfl (fun _ _ => Safe.done) _
      · rename_i hb
        have hstable : Prog.Stable (counting settings sid key answers V) fun s => s.store.sends.get sid = some r :=
          fun _ _ h hl _ => hl.row.trans h
        refine Safe.perform hstable hc.row.row fun a e draft b ha hi _ hs => ?_
        obtain ⟨r', l', hc'⟩ := hi
        obtain ⟨w, hw, rfl⟩ := State.sem_eq_some hs
        obtain ⟨rfl, rfl⟩ := sem_loadDraft hw
        refine ⟨⟨r', l', hc'⟩, trivial, ?_⟩
        split
        · exact Safe.uncounted hallowed rfl (fun _ _ => Safe.done) _
        · refine Safe.perform hstable ha fun a e n b ha hi _ hs => ?_
          obtain ⟨r', l', hc'⟩ := hi
          obtain rfl := Option.some.inj (ha.symm.trans hc'.row.row)
          obtain ⟨hbumped, -⟩ := hc'.row.bumped hs
          have hcounts : Counts sid V (bumpRow r) (none :: l') b := by
            refine ⟨hbumped, congrArg (· + 1) hc'.counted, ?_, fun v hv => ?_⟩
            · have := hc'.counted
              rw [List.length_cons]
              omega
            · exact hc'.allowed v ((List.mem_cons.1 hv).resolve_left (nomatch ·))
          refine ⟨⟨_, _, hcounts⟩, trivial, ?_⟩
          refine Safe.uncounted hallowed rfl (fun t v => ?_) b
          cases v with
          | error exc =>
            exact counting_of_uncounted hallowed
              ((notes_probeFailed sid n exc).mono fun _ ho => uncounted_of_writes (writes_of_notes ho)) t
          | ok probe =>
            exact counting_of_uncounted hallowed
              ((writes_settleProbe sid note r n probe).mono fun _ ho => uncounted_of_writes ho) t

variable (settings key) in
theorem counting_reconcileSendJob (job : ClaimedJob)
    (hallowed : ∀ provider request v, answers (.probe provider request) (.probed v) → V v)
    (hsid : job.refId = sid) (s : State) :
    Safe (counting settings sid key answers V) (fun _ _ => True) (reconcileSendJob job) s := by
  unfold reconcileSendJob
  rw [hsid]
  refine Safe.bind (Safe.mono (fun v t _ _ => ?_) (counting_reconcileSend settings key hallowed "" s))
  cases v <;> exact Safe.done

variable (settings key) in
theorem counting_finalizeFailure (hallowed : ∀ provider request v, answers (.probe provider request) (.probed v) → V v)
    (exc : Exn) (job : ClaimedJob) (artifact : Option (ProviderKind × SendRequest)) (s : State) :
    Safe (counting settings sid key answers V) (fun _ _ => True) (finalizeFailure sid exc job artifact) s := by
  unfold finalizeFailure
  dsimp only
  split
  · split
    · exact Safe.uncounted hallowed rfl (fun _ _ => Safe.done) s
    · refine Safe.bind (Safe.mono (fun v t _ _ => ?_) (counting_reconcileSend settings key hallowed _ s))
      cases v with
      | notSent => exact Safe.uncounted hallowed rfl (fun _ _ => Safe.done) t
      | retryLater => exact Safe.uncounted hallowed rfl (fun _ _ => Safe.done) t
      | _ => exact Safe.done
  · refine Safe.uncounted hallowed rfl (fun t _ => ?_) s
    unfold tidy
    split
    · split
      · exact Safe.uncounted hallowed rfl (fun _ _ => Safe.done) t
      · exact Safe.done
    · exact Safe.done

variable (settings key) in
theorem counting_dispatchSend (hallowed : ∀ provider request v, answers (.probe provider request) (.probed v) → V v)
    (hsid : job.refId = sid) (send : SendRow) (s : State) :
    Safe (counting settings sid key answers V) (fun _ _ => True) (dispatchSend job send) s := by
  have failed (exc : Exn) (artifact : Option (ProviderKind × SendRequest)) (t : State) :
      Safe (counting settings sid key answers V) (fun _ _ => True) (do
        finalizeFailure job.refId exc job artifact
        return .error exc : SendProg (Except Exn Unit)) t := by
    rw [hsid]
    exact Safe.bind (Safe.mono (fun _ _ _ _ => Safe.done) (counting_finalizeFailure settings key hallowed exc job artifact t))
  unfold dispatchSend
  refine Safe.uncounted hallowed rfl (fun t draft => ?_) s
  cases draft with
  | none => exact Safe.done
  | some draft =>
    refine Safe.uncounted hallowed rfl (fun t r => ?_) t
    cases r with
    | error exc => exact failed exc _ t
    | ok prepared =>
      refine Safe.uncounted hallowed rfl (fun t _ => ?_) t
      simp only [handOver, providerSend]
      refine Safe.uncounted hallowed rfl (fun t _ => ?_) t
      refine Safe.uncounted hallowed rfl (fun t r => ?_) t
      cases r with
      | error exc => exact failed exc _ t
      | ok receipt =>
        exact Safe.uncounted hallowed rfl (fun t _ => Safe.uncounted hallowed rfl (fun _ _ => Safe.done) t) t

variable (settings key) in
theorem counting_handler (job : ClaimedJob)
    (hallowed : ∀ provider request v, answers (.probe provider request) (.probed v) → V v)
    (hk : job.kind = .send) (hsid : job.refId = sid) (s : State) :
    Safe (counting settings sid key answers V) (fun _ _ => True) (handler job) s := by
  unfold handler
  rw [hk]
  unfold runSend
  refine Safe.uncounted hallowed rfl (fun t send => ?_) s
  cases send with
  | none => exact Safe.done
  | some send =>
    dsimp only
    split
    · exact Safe.done
    · split
      · rw [hsid]
        refine Safe.bind (Safe.mono (fun v t _ _ => ?_) (counting_reconcileSend settings key hallowed "" t))
        cases v with
        | notSent => exact counting_dispatchSend settings key hallowed hsid send t
        | _ => exact Safe.done
      · exact counting_dispatchSend settings key hallowed hsid send t

/-- **The counter counts the probes**, over all trials of the job, wherever they are cut off. -/
theorem counts_of_trials (hallowed : ∀ provider request v, answers (.probe provider request) (.probed v) → V v)
    (hk : job.kind = .send) (hsid : job.refId = sid) (h : Counts sid V q [] s) {ok : State → Prop}
    (hrun : Trials (alone settings sid key answers) ok sid job s k n t) : ∃ r l, Counts sid V r l t := by
  have hinv : ∀ u v, (∃ r l, Counts sid V r l u) → Leaves sid key u v → ∃ r l, Counts sid V r l v :=
    fun _ _ ⟨r, l, hc⟩ hl => ⟨r, l, hc.leaves hl⟩
  induction hrun with
  | none => exact ⟨q, [], h⟩
  | @attempt k _ t _ _ _ _ hrun _ ih =>
    exact (Prog.Safe.cut hinv hrun ih (counting_handler settings key (Budget.attempt job (k + 1)) hallowed hk hsid t)).1
  | @sweep k _ t _ _ _ hrun _ ih =>
    exact (Prog.Safe.cut hinv hrun ih
      (counting_reconcileSendJob settings key (Budget.attempt job k) hallowed hsid t)).1

/-- The probes find no message: a send that is parked is parked on the budget. -/
def Unsettled : Op → Env → Prop
  | .probe _ _, .probed v => settles v = false
  | _, _ => True

/-- Every probe fails, or cannot tell. -/
def Doubts : Op → Env → Prop
  | .probe _ _, .probed v => doubtful v = true
  | _, _ => True

/-- No probe was cut off before its answer. -/
def Answered (s : State) : Prop := none ∉ s.probes

/-- The send is parked after as many doubtful probes as the budget allows. -/
def Doubted (s : State) : Prop := MAX_RECONCILE_ATTEMPTS ≤ (s.probes.filter fun p => p.any doubtful).length

theorem within_unsettled : Within Unsettled fun v => settles v = false := ⟨fun _ _ _ h => h, fun _ h => h⟩

/-- **A send is parked when the budget's probes are counted**, and not before. -/
theorem parked_after (h : Counts sid V r l u) {note : String}
    (hrun : Among (alone settings sid key Unsettled) (reconcileSend sid note) u .parkedUncertain t) :
    (∃ r', t.store.sends.get sid = some r' ∧ r'.state = .uncertain) ∧ t.probes.length = MAX_RECONCILE_ATTEMPTS ∧
      ∀ p ∈ t.probes, p ∈ u.probes ∨ ∃ v, p = some v ∧ doubtful v = true := by
  have hasks : r.state = .inFlight ∧ r.dispatchedAt.isSome = true := by
    by_contra hnot
    have hquiet : r.state ≠ .inFlight ∨ r.dispatchedAt.isSome = false :=
      (Classical.not_and_iff_not_or_not.1 hnot).imp_right Bool.eq_false_of_not_eq_true
    obtain ⟨hi, hpost⟩ := Prog.Safe.cut (fun _ _ hi hl => hi.leaves hl) hrun.cut h.row
      (settled_reconcileSend settings key Unsettled (l := l) note u hquiet)
    exact hpost.post hi rfl
  have hfine : Fine 0 r.attempts r.attempts false l.length r :=
    ⟨by rw [Nat.zero_add]; exact h.counted, ⟨Nat.le_refl _, Nat.le_refl _⟩, .inl hasks.1⟩
  obtain ⟨hi, hpost⟩ := Prog.Safe.cut (fun _ _ hi hl => hi.leaves hl) hrun.cut (h.row.stays hfine)
    (steady_reconcileSend settings key within_unsettled note h.row hfine hasks.1 hasks.2)
  have hcount := h.counted
  have hle := h.within
  cases hpost.post hi with
  | exhausted hb ht =>
    obtain ⟨r', hr', -, hstate, -⟩ := ht
    refine ⟨⟨r', hr'.row, hstate⟩, by rw [hr'.probes]; omega, fun p hp => .inl ?_⟩
    rwa [h.row.probes, ← hr'.probes]
  | @doubted v _ _ hd hb ht =>
    obtain ⟨r', hr', -, hstate, -⟩ := ht
    refine ⟨⟨r', hr'.row, hstate⟩, by rw [hr'.probes, List.length_cons]; omega, fun p hp => ?_⟩
    rw [hr'.probes, List.mem_cons] at hp
    rcases hp with rfl | hp
    · exact .inr ⟨v, rfl, hd⟩
    · exact .inl (h.row.probes ▸ hp)

theorem doubted_iff (h : s.probes.length = MAX_RECONCILE_ATTEMPTS) :
    Doubted s ↔ ∀ p ∈ s.probes, p.any doubtful = true := by
  unfold Doubted
  rw [← h]
  constructor
  · intro hle
    exact List.filter_eq_self.1 (List.filter_sublist.eq_of_length_le hle)
  · intro hall
    rw [List.filter_eq_self.2 hall]

/-! ## When the budget keeps its word -/

/-- What a job's trials come to, from a send in flight whose probes have yet to be counted. -/
structure Covered (settings : Settings) (sid : Nat) (key : String) (job : ClaimedJob) (s : State) (q : SendRow) : Prop where
  /-- An attempt can always come to its end. -/
  ends : ∀ k t, ∃ a u, Among (alone settings sid key Fails) (handler (attempt job k)) t a u
  /-- Where nothing is ever found, the send is not in doubt before the budget is spent. -/
  spent : ∀ k n t r, Trials (alone settings sid key Fails) (fun _ => True) sid job s k n t →
    t.store.sends.get sid = some r → r.state = .uncertain → MAX_RECONCILE_ATTEMPTS ≤ q.reconcileAttempts + t.probes.length
  /-- And its last attempt ends it, dispatched on each, exactly where none was cut off before and a probe is left. -/
  last : ∀ k n t a u, Trials (alone settings sid key Fails) (fun _ => True) sid job s k n t → job.maxAttempts = k + 1 →
    Among (alone settings sid key Fails) (handler (attempt job (k + 1))) t a u →
      (Ended sid (q.attempts + job.maxAttempts) u ↔
        n = 0 ∧ ∃ r, t.store.sends.get sid = some r ∧
          q.reconcileAttempts + t.probes.length + asked r < MAX_RECONCILE_ATTEMPTS)
  /-- Where nothing interrupts the attempts, that is a matter of the ceiling. -/
  whole : Conclusive settings sid key job s q ↔
    q.reconcileAttempts + asked q + job.maxAttempts ≤ MAX_RECONCILE_ATTEMPTS
  /-- Whatever is answered, a send parked on the budget is parked when that many probes are counted. -/
  parked : q.reconcileAttempts = 0 → ∀ k n u note t,
    Trials (alone settings sid key fun _ _ => True) (fun _ => True) sid job s k n u →
    Among (alone settings sid key Unsettled) (reconcileSend sid note) u .parkedUncertain t →
      (∃ r, t.store.sends.get sid = some r ∧ r.state = .uncertain) ∧ t.probes.length = MAX_RECONCILE_ATTEMPTS ∧
        (Doubted t ↔ ∀ p ∈ t.probes, p.any doubtful = true)
  /-- And where every probe was answered, and doubtfully, after that many doubtful ones. -/
  doubted : q.reconcileAttempts = 0 → ∀ k n u note t,
    Trials (alone settings sid key Doubts) Answered sid job s k n u →
    Among (alone settings sid key Unsettled) (reconcileSend sid note) u .parkedUncertain t → Doubted t

theorem counts_init (h : Stands sid q [] s) (hzero : q.reconcileAttempts = 0) (V : Except Exn ProbeResult → Prop) :
    Counts sid V q [] s := ⟨h, hzero, Nat.zero_le _, fun _ hv => nomatch hv⟩

theorem answered_of_trials {c : Contract Op Op.Ans Env State} (h : s.probes = []) (hrun : Trials c Answered sid job s k n t) :
    Answered t := by
  cases hrun with
  | none => exact fun hmem => by rw [h] at hmem; cases hmem
  | attempt _ _ _ hok | sweep _ _ hok => exact hok

variable (settings key) in
/-- **When the budget keeps its word**: exactly where it covers the probes that the attempts and the sweeps between them
begin. -/
theorem budget_covers (hk : job.kind = .send) (hsid : job.refId = sid) (hpos : 0 < job.maxAttempts)
    (h : Stands sid q [] s) (hq : q.state = .inFlight) : Covered settings sid key job s q where
  ends k t := live_handler settings sid key (attempt job k) hk t
  spent _ _ _ _ hrun hr hu := spent_of_uncertain hk hsid h hq hrun hr hu
  last _ _ _ _ _ hrun hlast hend := ended_iff hk hsid h hq hrun hlast hend
  whole := conclusive_iff settings key hk hsid hpos h hq
  parked hzero _ _ _ _ _ hrun hpark := by
    obtain ⟨r, l, hc⟩ := counts_of_trials (fun _ _ _ _ => trivial) hk hsid (counts_init h hzero fun _ => True) hrun
    obtain ⟨hu, hlength, -⟩ := parked_after hc hpark
    exact ⟨hu, hlength, doubted_iff hlength⟩
  doubted hzero _ _ u _ t hrun hpark := by
    obtain ⟨r, l, hc⟩ := counts_of_trials (fun _ _ _ h => h) hk hsid (counts_init h hzero (doubtful · = true)) hrun
    obtain ⟨-, hlength, hprobes⟩ := parked_after hc hpark
    refine (doubted_iff hlength).2 fun p hp => ?_
    rcases hprobes p hp with hmem | ⟨v, rfl, hv⟩
    · cases p with
      | none => exact absurd hmem (answered_of_trials h.probes hrun)
      | some v => exact hc.allowed v (hc.row.probes ▸ hmem)
    · exact hv

/-! ## Two ceilings -/

def fresh : SendRow where
  userId := 1
  draftId := 0
  connectionId := 0
  provider := .slack
  idempotencyKey := sampleKey
  confirmedSha256 := sampleDigest
  createdAt := 0

def freshStore : Store where
  drafts := Table.empty.insert ⟨1, 0, .slack, "#sales", "#sales", none, "hello", sampleKey⟩
  sends := Table.empty.insert fresh

/-- A job that may be attempted `n` times. -/
def jobOf (n : Nat) : ClaimedJob := ⟨0, .send, 0, 0, n, none, none, none, none, none⟩

/-- Three attempts end a new send. -/
theorem budget_covers_three : Conclusive {} 0 sampleKey (jobOf 3) ⟨freshStore, []⟩ fresh := by
  have hkind : (jobOf 3).kind = .send := rfl
  have hpos : 0 < (jobOf 3).maxAttempts := by decide
  have hstands : Stands 0 fresh [] ⟨freshStore, []⟩ := ⟨rfl, rfl, rfl⟩
  have hfits : fresh.reconcileAttempts + asked fresh + (jobOf 3).maxAttempts ≤ MAX_RECONCILE_ATTEMPTS := by decide
  exact (budget_covers {} sampleKey hkind rfl hpos hstands rfl).whole.2 hfits

/-- An execution, process `pid`, whose dispatch times out and is dropped, after a probe that finds nothing where the send
was dispatched before. -/
def refusedAttempt (pid call : Nat) : List Action :=
  (if call = 0 then [.step pid .none]
    else [.claim "host:1" 5 (fun _ => false), .step pid .none, .step pid .none, .step pid .none, .step pid .none,
      .step pid (.probed (.ok { verdict := .absent })), .step pid .none]) ++
    [.step pid .none, .step pid (.prepared (.ok {})), .step pid .none, .step pid .none, .settle call false,
      .step pid (.receipt (.error (.os ""))), .step pid .none, .finish pid "" noDraw]

/-- Four such attempts, and the fifth. -/
def spentRun : List Action :=
  sampleRun ++ refusedAttempt 2 0 ++ refusedAttempt 3 1 ++ refusedAttempt 4 2 ++ refusedAttempt 5 3 ++
    [.claim "host:1" 5 (fun _ => false), .step 6 .none, .step 6 .none, .step 6 .none, .finish 6 "" noDraw]

/-- Every probe found nothing, every dispatch failed for a transient reason, and nothing was accepted. -/
def conclusive : Action → Bool
  | .step _ (.probed (.ok probe)) => probe.verdict == .absent
  | .step _ (.probed (.error _)) => false
  | .step _ (.receipt (.error exc)) => classify exc == .transient
  | .step _ (.receipt (.ok _)) => false
  | .settle _ accepted => !accepted
  | _ => true

/-- With the default ceiling of six, the fifth attempt leaves the send in doubt. -/
theorem conclusive_probes_exhaust :
    ¬ ∀ (l : List Action) (w : World), (system {}).exec (system {}).init l = some w → l.all conclusive = true →
      stateOf w 0 ≠ some .uncertain := by
  intro hclaim
  have hrun : ((system {}).exec (system {}).init spentRun).any (fun w => stateOf w 0 == some .uncertain) = true := by
    decide +kernel
  obtain ⟨w, hw, -, hstate⟩ := Machine.reach_of_exec hrun
  exact hclaim spentRun w hw (by decide) (beq_iff_eq.1 hstate)

end Budget
end Send
end SafeSend
