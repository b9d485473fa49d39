import SafeSend.Send.Held
/-!
# What a job's program leaves behind

While a claim of a send's job is the current one, no other job of the send runs: what is ready stays ready, and a row
comes back in flight only with a job behind it.  So a program that saw the row leave its flight, or moved it out, has
nothing more to look after.
-/
namespace SafeSend
namespace Send

open Lib
open Lib.Prog (Uses Safe Stable Contract)
open Queue (ClaimedJob Recovery)

/-- A job of the send is ready. -/
def Ready (sid : Nat) (w : Store) : Prop :=
  ∃ n j, w.jobs.get n = some j ∧ j.kind = .send ∧ j.refId = sid ∧ j.state = .ready

/-- The claim the job was handed out under is the one it runs under. -/
def Current (job : ClaimedJob) (w : Store) : Prop :=
  ∃ j, w.jobs.get job.id = some j ∧ j.state = .running ∧ j.attempts = job.attempts

/-- What happens around a job while its claim is current. -/
structure Tends (job : ClaimedJob) (w w' : Store) : Prop where
  current : Current job w' → Current job w
  ready : Current job w → Current job w' → Ready job.refId w → Ready job.refId w'
  flown : Current job w' → ∀ r', w'.sends.get job.refId = some r' → r'.state = .inFlight → Ready job.refId w' ∨
    ∃ r, w.sends.get job.refId = some r ∧ r.state = .inFlight ∧ (r'.dispatchedAt = none → r.dispatchedAt = none)

theorem Tends.refl (job : ClaimedJob) (w : Store) : Tends job w w where
  current h := h
  ready _ _ h := h
  flown _ r hr hs := .inr ⟨r, hr, hs, fun h => h⟩

theorem Tends.trans {job : ClaimedJob} {w w' w'' : Store} (h : Tends job w w') (h' : Tends job w' w'') : Tends job w w'' where
  current hc := h.current (h'.current hc)
  ready hc hc'' hr := h'.ready (h'.current hc'') hc'' (h.ready hc (h'.current hc'') hr)
  flown hc'' r'' hr'' hs'' := by
    have hc' := h'.current hc''
    rcases h'.flown hc'' r'' hr'' hs'' with hready | ⟨r', hr', hs', hd'⟩
    · exact .inl hready
    · rcases h.flown hc' r' hr' hs' with hready | ⟨r, hr, hs, hd⟩
      · exact .inl (h'.ready hc' hc'' hready)
      · exact .inr ⟨r, hr, hs, fun hn => hd (hd' hn)⟩

/-- A program that looks after the jobs. -/
def tending (settings : Settings) (jobs : List ClaimedJob) : Contract Op Op.Ans Env Store where
  sem := sem settings
  ok _ _ _ := True
  inv := WellFormed
  rely w w' := Extends w w' ∧ ∀ job ∈ jobs, job.kind = .send → Tends job w w'
  guar _ _ _ := True
  refl w := ⟨.refl w, fun job _ _ => .refl job w⟩
  trans h h' := ⟨h.1.trans h'.1, fun job hj hk => (h.2 job hj hk).trans (h'.2 job hj hk)⟩

/-! ## What it comes to know -/

/-- Nothing is left to look after: the send is not in flight, or another job of it is ready. -/
def Covered (sid : Nat) (w : Store) : Prop := ∀ r, w.sends.get sid = some r → r.state = .inFlight → Ready sid w

def Done (job : ClaimedJob) (w : Store) : Prop := Current job w → Covered job.refId w

/-- The send was dispatched, and lost that only to a resend with its job. -/
def Dispatched (job : ClaimedJob) (w : Store) : Prop :=
  Current job w → ∀ r, w.sends.get job.refId = some r → r.state = .inFlight → r.dispatchedAt = none → Ready job.refId w

variable {settings : Settings} {jobs : List ClaimedJob} {job : ClaimedJob} {w w' : Store} {o : Op}

theorem stable_done (hj : job ∈ jobs) (hk : job.kind = .send) : Stable (tending settings jobs) (Done job) := by
  rintro w w' h ⟨-, hrely⟩ - hc' r' hr' hs'
  have ht := hrely job hj hk
  have hc := ht.current hc'
  rcases ht.flown hc' r' hr' hs' with hready | ⟨r, hr, hs, -⟩
  · exact hready
  · exact ht.ready hc hc' (h hc r hr hs)

theorem stable_dispatched (hj : job ∈ jobs) (hk : job.kind = .send) : Stable (tending settings jobs) (Dispatched job) := by
  rintro w w' h ⟨-, hrely⟩ - hc' r' hr' hs' hd'
  have ht := hrely job hj hk
  have hc := ht.current hc'
  rcases ht.flown hc' r' hr' hs' with hready | ⟨r, hr, hs, hd⟩
  · exact hready
  · exact ht.ready hc hc' (h hc r hr hs (hd hd'))

theorem Did.jobs_of_worker (h : Did settings w o w') (ho : o.api = false) : w'.jobs = w.jobs := by
  cases h with
  | claimed | retried | resent => cases ho
  | _ => rfl

/-- **The worker's own operations tend the job too**: no write of its puts a row in flight. -/
theorem Did.tends_of_worker (h : Did settings w o w') (ho : o.api = false) : Tends job w w' := by
  have hjobs := h.jobs_of_worker ho
  refine ⟨fun hc => ?_, fun _ _ hr => ?_, fun _ r' hr' hs' => .inr ?_⟩
  · unfold Current at hc ⊢
    rw [hjobs] at hc
    exact hc
  · unfold Ready at hr ⊢
    rw [hjobs]
    exact hr
  · have hm := h.send job.refId
    rw [hr'] at hm
    generalize hq : some r' = q at hm
    generalize w'.forced job.refId = n at hm
    cases hm with
    | same => exact ⟨r', hq.symm, hs', fun hd => hd⟩
    | wrote u hr hg =>
      obtain rfl := Option.some.inj hq
      refine ⟨_, hr, Write.inFlight_of_guard hg, fun hd => ?_⟩
      cases u with
      | dispatch draftId => cases hd
      | _ => exact hd
    | bumped hr =>
      obtain rfl := Option.some.inj hq
      exact ⟨_, hr, hs', fun hd => hd⟩
    | claimed | retried | attested | resent => cases ho

theorem fits_of_worker (ho : o.api = false) : Fits w o := by
  cases o <;> first | cases ho; done | trivial

theorem tends_self (ho : o.api = false) (h : Did settings w o w') :
    Extends w w' ∧ ∀ job ∈ jobs, job.kind = .send → Tends job w w' :=
  ⟨h.extends, fun _ _ _ => h.tends_of_worker ho⟩

variable {α : Type} {post : α → Store → Prop}

/-- **One operation of the worker** keeps every stable assertion. -/
theorem Safe.worker {P : Store → Prop} (hP : Stable (tending settings jobs) P) {f : o.Ans → SendProg α}
    (ho : o.api = false) (h : P w)
    (hk : ∀ t e x u, P t → P u → WellFormed t → sem settings o e t = some (x, u) →
      Safe (tending settings jobs) post (f x) u) :
    Safe (tending settings jobs) post (perform o >>= f) w :=
  Safe.perform hP h fun t e x u ht hi _ hs =>
    have hd := did_of_sem hs
    have hu := hi.did (fits_of_worker ho) hd
    ⟨hu, trivial, hk t e x u ht (hP t u ht (tends_self ho hd) hu) hi hs⟩

/-- A row that its write took out of its flight is covered. -/
theorem done_of_write {id : Nat} {u : Write} {now : Nat} (hid : id = job.refId) (hguard : u.guard = inFlight)
    (hrow : ∀ s, (u.row now s).state ≠ .inFlight) : Done job (w.updateSend id u.guard (u.row now)) := by
  subst hid
  intro _ r hr hs
  rw [Store.updateSend, hguard, Table.get_updateWhere_self, Option.map_eq_some_iff] at hr
  obtain ⟨s, -, he⟩ := hr
  split at he
  · exact absurd hs (he ▸ hrow s)
  · rename_i hg
    rw [he] at hg
    exact absurd (by rw [inFlight, hs]; rfl) hg

/-- A dispatched send marked uncertain is covered. -/
theorem Dispatched.uncertain {reason : String} (h : Dispatched job w) :
    Done job (w.updateSend job.refId (Write.uncertain reason).guard ((Write.uncertain reason).row w.now)) := by
  intro hc r hr hs
  rw [Store.updateSend, Table.get_updateWhere_self, Option.map_eq_some_iff] at hr
  obtain ⟨s, hget, he⟩ := hr
  split at he
  · rw [← he] at hs
    cases hs
  · rename_i hg
    rw [he] at hg hget
    refine h hc r hget hs ?_
    simp only [Write.guard, inFlight, hs, beq_self_eq_true, Bool.true_and, Bool.not_eq_true, Option.isSome_eq_false_iff,
      Option.isNone_iff_eq_none] at hg
    exact hg

/-! ## Reconciliation -/

def Settles (job : ClaimedJob) (verdict : ReconcileVerdict) (w : Store) : Prop :=
  match verdict with
  | .notSent => True
  | .retryLater => Dispatched job w
  | _ => Done job w

theorem stable_settles (hj : job ∈ jobs) (hk : job.kind = .send) (verdict : ReconcileVerdict) :
    Stable (tending settings jobs) (Settles job verdict) := by
  cases verdict with
  | notSent => exact Stable.true _
  | retryLater => exact stable_dispatched hj hk
  | adopted | parkedUncertain | alreadyTerminal => exact stable_done hj hk

section
variable (hj : job ∈ jobs) (hk : job.kind = .send)
include hj hk

/-- Parked in doubt, with nothing left to look after. -/
theorem settles_uncertain (reason : String) (hd : Dispatched job w) :
    Safe (tending settings jobs) (Settles job)
      (markUncertain job.refId reason >>= fun _ => .ret ReconcileVerdict.parkedUncertain) w :=
  Safe.worker (stable_dispatched hj hk) rfl hd fun _ _ _ _ ht _ _ hs =>
    Safe.ret (stable_settles hj hk .parkedUncertain) ((sem_write hs).1 ▸ ht.uncertain)

theorem settles_error (errorClass : ErrorClass) (detail : String) {verdict : ReconcileVerdict}
    (hv : verdict = .notSent ∨ verdict = .retryLater) (hd : Dispatched job w) :
    Safe (tending settings jobs) (Settles job) (recordError job.refId errorClass detail >>= fun _ => .ret verdict) w :=
  Safe.worker (stable_dispatched hj hk) rfl hd fun _ _ _ _ _ hu _ _ => by
    refine Safe.ret (stable_settles hj hk verdict) ?_
    rcases hv with rfl | rfl
    · trivial
    · exact hu

theorem settles_probeFailed (attempts : Nat) (exc : Exn) (hd : Dispatched job w) :
    Safe (tending settings jobs) (Settles job) (probeFailed job.refId attempts exc) w := by
  unfold probeFailed
  simp only
  split
  · exact settles_uncertain hj hk _ hd
  · exact settles_error hj hk _ _ (.inr rfl) hd

theorem settles_settleProbe (note : String) (send : SendRow) (attempts : Nat) (probe : ProbeResult) (hd : Dispatched job w) :
    Safe (tending settings jobs) (Settles job) (settleProbe job.refId note send attempts probe) w := by
  unfold settleProbe
  split
  · split
    · exact settles_uncertain hj hk _ hd
    · refine Safe.worker (stable_dispatched hj hk) rfl hd fun _ _ x _ _ _ _ hs => ?_
      have hdone : Done job _ :=
        (sem_write hs).1 ▸ done_of_write (u := .delivered ⟨_, send.providerDraftId⟩ probe.evidence) rfl rfl fun _ => nofun
      cases x
      · exact Safe.ret (stable_settles hj hk .alreadyTerminal) hdone
      · exact Safe.ret (stable_settles hj hk .adopted) hdone
  · exact settles_error hj hk _ _ (.inl rfl) hd
  · split
    · exact settles_uncertain hj hk _ hd
    · exact settles_error hj hk _ _ (.inr rfl) hd

theorem settles_reconcileDispatched (note : String) (send : SendRow) (hd : Dispatched job w) :
    Safe (tending settings jobs) (Settles job) (reconcileDispatched job.refId note send) w := by
  unfold reconcileDispatched
  split
  · exact settles_uncertain hj hk _ hd
  · refine Safe.worker (stable_dispatched hj hk) rfl hd fun _ _ draft _ _ hd _ _ => ?_
    cases draft with
    | none => exact settles_uncertain hj hk _ hd
    | some draft =>
      refine Safe.worker (stable_dispatched hj hk) rfl hd fun _ _ attempts _ _ hd _ _ => ?_
      refine Safe.worker (stable_dispatched hj hk) rfl hd fun _ _ r _ _ hd _ _ => ?_
      cases r with
      | error exc => exact settles_probeFailed hj hk attempts exc hd
      | ok probe => exact settles_settleProbe hj hk note send attempts probe hd

/-- **A verdict other than "not sent" or "later" leaves nothing to look after.** -/
theorem settles_reconcileSend (note : String) (w : Store) :
    Safe (tending settings jobs) (Settles job) (reconcileSend job.refId note) w := by
  unfold reconcileSend
  refine Safe.worker (Stable.true _) rfl trivial fun t e x u _ _ _ hs => ?_
  obtain ⟨rfl, rfl⟩ := sem_loadSend hs
  cases hx : u.sends.get job.refId with
  | none =>
    exact Safe.ret (stable_settles hj hk .alreadyTerminal) fun _ r hr _ => by rw [hx] at hr; cases hr
  | some send =>
    show Safe _ _ (if _ then _ else _) u
    split
    · rename_i hst
      refine Safe.ret (stable_settles hj hk .alreadyTerminal) fun _ r hr hs' => ?_
      obtain rfl := Option.some.inj (hx.symm.trans hr)
      exact absurd hs' hst
    · split
      · exact Safe.ret (stable_settles hj hk .notSent) trivial
      · rename_i hd
        refine settles_reconcileDispatched hj hk note send fun _ r hr _ hnone => ?_
        obtain rfl := Option.some.inj (hx.symm.trans hr)
        exact absurd (by rw [hnone]; rfl) hd

/-! ## The job -/

/-- What a failure that was written down leaves: the job is about to be retried, or nothing is left to look after. -/
def Written (job : ClaimedJob) (exc : Exn) (w : Store) : Prop :=
  classify exc = .transient ∧ job.attempts < job.maxAttempts ∨ Done job w

end

theorem stable_written (hj : job ∈ jobs) (hk : job.kind = .send) (exc : Exn) :
    Stable (tending settings jobs) (Written job exc) :=
  fun w w' h hr hi => h.imp_right fun h => stable_done hj hk w w' h hr hi

/-- What an ended execution leaves; an inconclusive reconciliation is raised and not written down. -/
def Ended (job : ClaimedJob) (r : Except Exn Unit) (w : Store) : Prop :=
  match r with
  | .ok () => Done job w
  | .error exc => (∃ provider, exc = inconclusive provider) ∨ Written job exc w

theorem stable_ended (hj : job ∈ jobs) (hk : job.kind = .send) (r : Except Exn Unit) :
    Stable (tending settings jobs) (Ended job r) := by
  cases r with
  | ok => exact stable_done hj hk
  | error exc => exact fun w w' h hr hi => h.imp_right fun h => stable_written hj hk exc w w' h hr hi

section
variable (hj : job ∈ jobs) (hk : job.kind = .send)
include hj hk

theorem written_tidy (exc : Exn) (artifact : Option (ProviderKind × SendRequest)) (h : Done job w) :
    Safe (tending settings jobs) (fun _ => Written job exc) (tidy artifact) w := by
  have hret {w : Store} (h : Done job w) : Safe (tending settings jobs) (fun _ => Written job exc) (.ret ()) w :=
    Safe.ret (stable_written hj hk exc) (.inr h)
  unfold tidy
  split
  · split
    · exact Safe.worker (stable_done hj hk) rfl h fun _ _ _ _ _ hu _ _ => hret hu
    · exact hret h
  · exact hret h

omit hj hk in
theorem written_terminal (exc : Exn) (state : SendState) (hstate : state ≠ .inFlight) (errorClass : ErrorClass)
    (detail : String) {k : SendProg Unit}
    (hkont : ∀ u, Done job u → Safe (tending settings jobs) (fun _ => Written job exc) k u) :
    Safe (tending settings jobs) (fun _ => Written job exc)
      (setTerminal job.refId state errorClass detail >>= fun _ => k) w :=
  Safe.worker (Stable.true _) rfl trivial fun _ _ _ u _ _ _ hs =>
    hkont u ((sem_write hs).1 ▸ done_of_write rfl rfl fun _ => hstate)

theorem written_finalizeFailure (exc : Exn) (artifact : Option (ProviderKind × SendRequest)) (w : Store) :
    Safe (tending settings jobs) (fun _ => Written job exc) (finalizeFailure job.refId exc job artifact) w := by
  have hret (u : Store) (h : Done job u) : Safe (tending settings jobs) (fun _ => Written job exc) (.ret ()) u :=
    Safe.ret (stable_written hj hk exc) (.inr h)
  unfold finalizeFailure
  simp only
  split
  · rename_i hc
    split
    · rename_i ha
      exact Safe.worker (Stable.true _) rfl trivial fun _ _ _ _ _ _ _ _ =>
        Safe.ret (stable_written hj hk exc) (.inl ⟨hc, ha⟩)
    · refine Safe.bind (Safe.mono (fun verdict t _ hv => ?_) (settles_reconcileSend hj hk _ w))
      cases verdict with
      | notSent => exact written_terminal exc .failedTransient nofun _ _ hret
      | retryLater =>
        exact Safe.worker (stable_dispatched hj hk) rfl hv fun _ _ _ u ht _ _ hs =>
          hret u ((sem_write hs).1 ▸ ht.uncertain)
      | adopted | parkedUncertain | alreadyTerminal => exact hret t hv
  · exact written_terminal exc .failedPermanent nofun _ _ fun _ hu => written_tidy hj hk exc artifact hu

theorem ended_handOver (send : SendRow) (request : SendRequest) (w : Store) :
    Safe (tending settings jobs) (Ended job) (handOver job send request) w := by
  simp only [handOver, providerSend]
  refine Safe.worker (Stable.true _) rfl trivial fun _ _ call _ _ _ _ _ => ?_
  refine Safe.worker (Stable.true _) rfl trivial fun _ _ receipt u _ _ _ _ => ?_
  cases receipt with
  | error exc =>
    refine Safe.bind (Safe.mono (fun _ t _ hw => ?_) (written_finalizeFailure hj hk exc _ u))
    exact Safe.ret (stable_ended hj hk (.error exc)) (.inr hw)
  | ok receipt =>
    refine Safe.worker (Stable.true _) rfl trivial fun _ _ _ v _ _ _ hs => ?_
    have hdone : Done job v := (sem_write hs).1 ▸ done_of_write (u := .delivered receipt "") rfl rfl fun _ => nofun
    exact Safe.worker (stable_done hj hk) rfl hdone fun _ _ _ _ _ hu _ _ => Safe.ret (stable_ended hj hk (.ok ())) hu

theorem ended_dispatchSend (send : SendRow) (hdraft : ∃ d, w.drafts.get send.draftId = some d) :
    Safe (tending settings jobs) (Ended job) (dispatchSend job send) w := by
  have hP : Stable (tending settings jobs) fun w => ∃ d, w.drafts.get send.draftId = some d := by
    rintro w w' ⟨d, hd⟩ ⟨hext, -⟩ -
    obtain ⟨d', hd', -⟩ := hext.drafts _ d hd
    exact ⟨d', hd'⟩
  unfold dispatchSend
  refine Safe.worker hP rfl hdraft fun t e x u ht _ _ hs => ?_
  obtain ⟨rfl, rfl⟩ := sem_loadDraft hs
  obtain ⟨draft, hd⟩ := ht
  rw [hd]
  refine Safe.worker (Stable.true _) rfl trivial fun _ _ prepared v _ _ _ _ => ?_
  cases prepared with
  | error exc =>
    refine Safe.bind (Safe.mono (fun _ t _ hw => ?_) (written_finalizeFailure hj hk exc none v))
    exact Safe.ret (stable_ended hj hk (.error exc)) (.inr hw)
  | ok prepared =>
    exact Safe.worker (Stable.true _) rfl trivial fun _ _ _ x _ _ _ _ => ended_handOver hj hk send _ x

/-- **An execution that ends leaves nothing to look after, or a job to retry**, but for a reconciliation that could not
tell. -/
theorem ended_runSend (w : Store) : Safe (tending settings jobs) (Ended job) (runSend job) w := by
  have hret {u : Store} (h : Done job u) : Safe (tending settings jobs) (Ended job) (.ret (.ok ())) u :=
    Safe.ret (stable_ended hj hk (.ok ())) h
  unfold runSend
  refine Safe.worker (Stable.true _) rfl trivial fun t e x u _ _ hi hs => ?_
  obtain ⟨rfl, rfl⟩ := sem_loadSend hs
  cases hx : u.sends.get job.refId with
  | none => exact hret fun _ r hr _ => by rw [hx] at hr; cases hr
  | some send =>
    obtain ⟨d, hd, -⟩ := hi.origin _ send hx
    show Safe _ _ (if _ then _ else _) u
    split
    · rename_i hst
      refine hret fun _ r hr hs' => ?_
      obtain rfl := Option.some.inj (hx.symm.trans hr)
      exact absurd hs' hst
    · split
      · have hP : Stable (tending settings jobs) fun w => ∃ d, w.drafts.get send.draftId = some d := by
          rintro w w' ⟨d, hd⟩ ⟨hext, -⟩ -
          obtain ⟨d', hd', -⟩ := hext.drafts _ d hd
          exact ⟨d', hd'⟩
        have hrec := Safe.frame hP (fun o ho _ _ _ _ _ hs => tends_self (api_of_quiet ho) (did_of_sem hs))
          (quiet_reconcileSend job.refId "") ⟨d, hd⟩ (settles_reconcileSend hj hk "" u)
        refine Safe.bind (Safe.mono (fun verdict t _ hv => ?_) hrec)
        cases verdict with
        | retryLater => exact Safe.ret (stable_ended hj hk (.error _)) (.inl ⟨_, rfl⟩)
        | notSent => exact ended_dispatchSend hj hk send hv.2
        | adopted | parkedUncertain | alreadyTerminal => exact hret hv.1
      · exact ended_dispatchSend hj hk send ⟨d, hd⟩

end

/-- A program that looks after nothing: an adapter's run. -/
theorem safe_adapter (hk : job.kind = .adapterRun) (w : Store) :
    Safe (tending settings jobs) (fun _ _ => True) (handler job) w := by
  unfold handler
  rw [hk]
  exact Safe.op (Stable.true _) trivial fun _ _ _ _ _ hi _ hs =>
    ⟨hi.did (fits_of_worker rfl) (did_of_sem hs), trivial, Safe.done⟩

theorem ended_handler (hj : job ∈ jobs) (w : Store) :
    Safe (tending settings jobs) (fun r t => job.kind = .send → Ended job r t) (handler job) w := by
  cases hk : job.kind with
  | send =>
    have h : Safe (tending settings jobs) (Ended job) (runSend job) w := ended_runSend hj hk w
    unfold handler
    rw [hk]
    exact Safe.mono (fun _ _ _ he _ => he) h
  | adapterRun => exact Safe.mono (fun _ _ _ _ he => nomatch he) (safe_adapter hk w)

/-! ## The sweep -/

/-- What the sweep decided for a job: it goes back to the queue, or nothing is left to look after. -/
def DecidedWell (w : Store) (d : ClaimedJob × Recovery) : Prop := d.1.kind = .send → d.2 = .requeue ∨ Done d.1 w

theorem stable_decidedWell (hj : job ∈ jobs) (r : Recovery) :
    Stable (tending settings jobs) fun t => DecidedWell t (job, r) :=
  fun w w' h hr hi hk => (h hk).imp_right fun h => stable_done hj hk w w' h hr hi

/-- The answer of the reconciler, and the decision it leads to. -/
theorem decided_reconcileSendJob (hj : job ∈ jobs) (hk : job.kind = .send) (w : Store) :
    Safe (tending settings jobs) (fun outcome t => DecidedWell t (job, Queue.recover job (some outcome)))
      (reconcileSendJob job) w := by
  have hret {u : Store} (outcome : Queue.ReconcileOutcome) (h : outcome = .safeToDispatch ∨ Done job u) :
      Safe (tending settings jobs) (fun outcome t => DecidedWell t (job, Queue.recover job (some outcome)))
        (.ret outcome) u := by
    refine Safe.ret (stable_decidedWell hj _) fun _ => h.imp_left fun ho => ?_
    simp only [ho, Queue.recover, Queue.policyFor, hk]
  unfold reconcileSendJob
  refine Safe.bind (Safe.mono (fun verdict t _ hv => ?_) (settles_reconcileSend hj hk "" w))
  cases verdict with
  | notSent | retryLater => exact hret .safeToDispatch (.inl rfl)
  | adopted | parkedUncertain | alreadyTerminal => exact hret .resolved (.inr hv)

theorem decided_askReconciler (hj : job ∈ jobs) (w : Store) :
    Safe (tending settings jobs) (fun outcome t => DecidedWell t (job, Queue.recover job outcome)) (askReconciler job) w := by
  unfold askReconciler
  cases hk : job.kind with
  | adapterRun => exact Safe.ret (stable_decidedWell hj _) fun h => nomatch hk.symm.trans h
  | send =>
    refine Safe.bind (Safe.mono (fun outcome t _ hd => ?_) (decided_reconcileSendJob hj hk w))
    exact Safe.ret (stable_decidedWell hj _) hd

/-- **The sweep decides well for every job it found stale.** -/
theorem decided_sweep : ∀ (l : List ClaimedJob) (w : Store), (∀ job ∈ l, job ∈ jobs) →
    Safe (tending settings jobs) (fun ds t => ∀ d ∈ ds, d.1 ∈ jobs ∧ DecidedWell t d) (sweepJobs l) w
  | [], w, _ => Prog.Safe.ret (fun _ _ _ _ _ _ hd => nomatch hd) fun _ hd => nomatch hd
  | job :: l, w, hl => by
    have hj := hl job List.mem_cons_self
    have hstable (ds : List (ClaimedJob × Recovery)) :
        Stable (tending settings jobs) fun t => ∀ d ∈ ds, d.1 ∈ jobs ∧ DecidedWell t d :=
      fun w w' h hr hi d hd => ⟨(h d hd).1, stable_decidedWell (h d hd).1 d.2 w w' (h d hd).2 hr hi⟩
    unfold sweepJobs
    refine Safe.bind (Safe.mono (fun outcome t _ hd => ?_) (decided_askReconciler hj w))
    refine Safe.worker (stable_decidedWell hj _) rfl hd fun _ _ _ t _ hd _ _ => ?_
    have hrest := decided_sweep l t fun job' hm => hl job' (List.mem_cons_of_mem _ hm)
    refine Safe.bind (Safe.mono (fun rest u _ h => ?_) (Safe.frame (stable_decidedWell hj (Queue.recover job outcome))
      (fun o ho _ _ _ _ _ hs => tends_self (api_of_quiet ho) (did_of_sem hs)) (quiet_sweepJobs l) hd hrest))
    refine Safe.ret (hstable _) fun d hm => ?_
    rcases List.mem_cons.1 hm with rfl | hm
    · exact ⟨hj, h.2⟩
    · exact h.1 d hm

end Send
end SafeSend
