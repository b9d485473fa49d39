import SafeSend.Send.Evidence
/-!
# One attempt whose dispatch fails

An execution of a send's job among others that leave the send alone, every dispatch failing for a transient reason and
every probe finding nothing.  Wherever it is cut off, the row's two counters say how far it came: a dispatch is counted
when it is committed, and a probe when it is begun, whatever it answers.
-/
namespace SafeSend
namespace Send
namespace Budget

open Lib
open Lib.Prog (Safe Contract Among Cut Live)
open Queue (ClaimedJob)

/-- A probe of the send: what it answered, none as long as it has not. -/
abbrev Probe := Option (Except Exn ProbeResult)

/-- The store, and the send's probes, the newest first. -/
structure State where
  store : Store
  probes : List Probe := []

/-- A probe is begun where its attempt is counted. -/
def noted (sid : Nat) (o : Op) (e : Env) (l : List Probe) : List Probe :=
  match o, e, l with
  | .bumpReconcileAttempts id, _, l => if id = sid then none :: l else l
  | .probe _ _, .probed v, none :: l => some v :: l
  | _, _, l => l

def State.sem (settings : Settings) (sid : Nat) (o : Op) (e : Env) (s : State) : Option (o.Ans × State) :=
  (Send.sem settings o e s.store).map fun r => (r.1, ⟨r.2, noted sid o e s.probes⟩)

/-- Others leave the send alone: its row, its probes, and which calls of it a provider has accepted; no draft row is
deleted. -/
structure Leaves (sid : Nat) (key : String) (s t : State) : Prop where
  row : t.store.sends.get sid = s.store.sends.get sid
  drafts : ∀ n, (s.store.drafts.get n).isSome → (t.store.drafts.get n).isSome
  accepted : t.store.accepted key = s.store.accepted key
  probes : t.probes = s.probes

theorem Leaves.refl (sid : Nat) (key : String) (s : State) : Leaves sid key s s := ⟨rfl, fun _ h => h, rfl, rfl⟩

theorem Leaves.trans {sid : Nat} {key : String} {s t u : State} (h : Leaves sid key s t) (h' : Leaves sid key t u) :
    Leaves sid key s u where
  row := h'.row.trans h.row
  drafts n hn := h'.drafts n (h.drafts n hn)
  accepted := h'.accepted.trans h.accepted
  probes := h'.probes.trans h.probes

/-- A program among others that leave the send alone, the environment answering within `answers`. -/
def alone (settings : Settings) (sid : Nat) (key : String) (answers : Op → Env → Prop) :
    Contract Op Op.Ans Env State where
  sem := State.sem settings sid
  ok o e _ := answers o e
  inv _ := True
  rely := Leaves sid key
  guar _ _ _ := True
  refl := Leaves.refl sid key
  trans h h' := h.trans h'

/-- Every dispatch fails for a transient reason, and every probe answers that there is nothing. -/
def Fails : Op → Env → Prop
  | .prepare _ _, .prepared r => ∃ prepared, r = .ok prepared
  | .sendAnswer _, .receipt r => ∃ exc, r = .error exc ∧ classify exc = .transient
  | .probe _ _, .probed r => ∃ probe, r = .ok probe ∧ probe.verdict = .absent
  | _, _ => True

/-- What is known of the send between two operations. -/
structure Stands (sid : Nat) (q : SendRow) (l : List Probe) (s : State) : Prop where
  row : s.store.sends.get sid = some q
  draft : (s.store.drafts.get q.draftId).isSome
  probes : s.probes = l

/-- How the row may stand after `n` probes, counted from `c` on, and from `lo` to `hi` dispatches, none of which sent
anything: in flight, in doubt with its budget spent, or, after the job's last attempt, over. -/
structure Fine (c lo hi : Nat) (last : Bool) (n : Nat) (r : SendRow) : Prop where
  counted : r.reconcileAttempts = c + n
  tried : lo ≤ r.attempts ∧ r.attempts ≤ hi
  stands : r.state = .inFlight ∨ (r.state = .uncertain ∧ MAX_RECONCILE_ATTEMPTS ≤ r.reconcileAttempts) ∨
    r.state = .failedTransient ∧ last = true

def Stays (sid c lo hi : Nat) (last : Bool) (s : State) : Prop :=
  ∃ r l, Stands sid r l s ∧ Fine c lo hi last l.length r

/-- The same, the row standing within these bounds throughout. -/
def steady (settings : Settings) (sid : Nat) (key : String) (answers : Op → Env → Prop) (c lo hi : Nat) (last : Bool) :
    Contract Op Op.Ans Env State :=
  { alone settings sid key answers with inv := Stays sid c lo hi last }

variable {settings : Settings} {sid : Nat} {key : String} {answers : Op → Env → Prop} {c lo hi : Nat} {final : Bool}
  {q : SendRow} {l : List Probe} {s t : State} {e : Env}

theorem State.sem_eq_some {o : Op} {x : o.Ans} (h : State.sem settings sid o e s = some (x, t)) :
    ∃ w, Send.sem settings o e s.store = some (x, w) ∧ t = ⟨w, noted sid o e s.probes⟩ := by
  obtain ⟨⟨y, w⟩, hs, he⟩ := Option.map_eq_some_iff.1 h
  simp only [Prod.mk.injEq] at he
  obtain ⟨rfl, rfl⟩ := he
  exact ⟨w, hs, rfl⟩

theorem Stands.leaves (h : Stands sid q l s) (hl : Leaves sid key s t) : Stands sid q l t :=
  ⟨hl.row.trans h.row, hl.drafts _ h.draft, hl.probes.trans h.probes⟩

theorem stable_stands (q : SendRow) (l : List Probe) :
    Prog.Stable (steady settings sid key answers c lo hi final) (Stands sid q l) := fun _ _ h hl _ => h.leaves hl

theorem Stays.leaves (h : Stays sid c lo hi final s) (hl : Leaves sid key s t) : Stays sid c lo hi final t := by
  obtain ⟨r, l, hr, hf⟩ := h
  exact ⟨r, l, hr.leaves hl, hf⟩

theorem Stands.stays (h : Stands sid q l s) (hf : Fine c lo hi final l.length q) : Stays sid c lo hi final s :=
  ⟨q, l, h, hf⟩

/-- A read leaves what is known. -/
theorem Stands.store (h : Stands sid q l s) : Stands sid q l ⟨s.store, s.probes⟩ := h

/-- A guarded write, where the guard matches. -/
theorem Stands.wrote {u : Write} {x : Bool} (h : Stands sid q l s) (hg : u.guard q = true)
    (hdraft : (u.row s.store.now q).draftId = q.draftId) (hs : State.sem settings sid (.write sid u) e s = some (x, t)) :
    Stands sid (u.row s.store.now q) l t := by
  obtain ⟨w, hw, rfl⟩ := State.sem_eq_some hs
  obtain ⟨rfl, rfl⟩ := sem_write hw
  exact ⟨Table.get_updateWhere_hit _ h.row hg, by rw [hdraft]; exact h.draft, h.probes⟩

theorem Stands.bumped {x : Nat} (h : Stands sid q l s)
    (hs : State.sem settings sid (.bumpReconcileAttempts sid) e s = some (x, t)) :
    Stands sid (bumpRow q) (none :: l) t ∧ x = q.reconcileAttempts + 1 := by
  have hrow : (s.store.updateSend sid (fun _ => true) bumpRow).sends.get sid = some (bumpRow q) :=
    Table.get_updateWhere_hit _ h.row rfl
  obtain ⟨w, hw, rfl⟩ := State.sem_eq_some hs
  cases e <;> first | cases hw; done | skip
  obtain ⟨rfl, rfl⟩ := answer_of_some hw
  refine ⟨⟨hrow, h.draft, ?_⟩, ?_⟩
  · simp only [noted, if_true, h.probes]
  · rw [hrow]
    rfl

/-- The answer of the probe that was begun. -/
theorem Stands.probed {provider : ProviderKind} {request : SendRequest} {v : Except Exn ProbeResult}
    (h : Stands sid q (none :: l) s) (hs : State.sem settings sid (.probe provider request) e s = some (v, t)) :
    e = .probed v ∧ Stands sid q (some v :: l) t := by
  obtain ⟨w, hw, rfl⟩ := State.sem_eq_some hs
  obtain ⟨rfl, rfl⟩ := sem_probe hw
  exact ⟨rfl, h.row, h.draft, by simp only [noted, h.probes]⟩

theorem Fine.bumped (h : Fine c lo hi final l.length q) (hq : q.state = .inFlight) :
    Fine c lo hi final (none :: l).length (bumpRow q) :=
  ⟨congrArg (· + 1) h.counted, h.tried, .inl hq⟩

/-- Whether the send has been dispatched before, as the probes it costs. -/
def asked (q : SendRow) : Nat := if q.dispatchedAt.isSome then 1 else 0

/-- How the row stands after a dispatch: its state, its two counters and its probes. -/
def Tally (sid draftId : Nat) (state : SendState) (attempts reconciles : Nat) (l : List Probe) (s : State) : Prop :=
  ∃ q, Stands sid q l s ∧ q.draftId = draftId ∧ q.state = state ∧ q.dispatchedAt.isSome = true ∧ q.attempts = attempts ∧
    q.reconcileAttempts = reconciles

theorem stable_tally (sid draftId : Nat) (state : SendState) (attempts reconciles : Nat) (l : List Probe) :
    Prog.Stable (steady settings sid key answers c lo hi final) (Tally sid draftId state attempts reconciles l) := by
  rintro s t ⟨q, hq, hrest⟩ hl _
  exact ⟨q, hq.leaves hl, hrest⟩

/-! ## One reconciliation -/

/-- The probe failed, or could not tell. -/
def doubtful : Except Exn ProbeResult → Bool
  | .error _ => true
  | .ok probe => probe.verdict == .inconclusive

/-- The probe found the message. -/
def settles : Except Exn ProbeResult → Bool
  | .error _ => false
  | .ok probe => probe.verdict == .found

/-- How a reconciliation leaves a send that was dispatched, by what its probe answers of what `V` allows. -/
inductive Reconciliation (sid : Nat) (q : SendRow) (l : List Probe) (V : Except Exn ProbeResult → Prop) :
    ReconcileVerdict → State → Prop
  | exhausted {t : State} (hb : MAX_RECONCILE_ATTEMPTS ≤ q.reconcileAttempts)
      (ht : Tally sid q.draftId .uncertain q.attempts q.reconcileAttempts l t) : Reconciliation sid q l V .parkedUncertain t
  | absent {v : Except Exn ProbeResult} {t : State} (hv : V v) (hd : doubtful v = false)
      (hb : q.reconcileAttempts < MAX_RECONCILE_ATTEMPTS)
      (ht : Tally sid q.draftId .inFlight q.attempts (q.reconcileAttempts + 1) (some v :: l) t) :
      Reconciliation sid q l V .notSent t
  | later {v : Except Exn ProbeResult} {t : State} (hv : V v) (hd : doubtful v = true)
      (hb : q.reconcileAttempts + 1 < MAX_RECONCILE_ATTEMPTS)
      (ht : Tally sid q.draftId .inFlight q.attempts (q.reconcileAttempts + 1) (some v :: l) t) :
      Reconciliation sid q l V .retryLater t
  | doubted {v : Except Exn ProbeResult} {t : State} (hv : V v) (hd : doubtful v = true)
      (hb : q.reconcileAttempts + 1 = MAX_RECONCILE_ATTEMPTS)
      (ht : Tally sid q.draftId .uncertain q.attempts (q.reconcileAttempts + 1) (some v :: l) t) :
      Reconciliation sid q l V .parkedUncertain t

theorem stable_reconciliation (q : SendRow) (l : List Probe) (V : Except Exn ProbeResult → Prop) (x : ReconcileVerdict) :
    Prog.Stable (steady settings sid key answers c lo hi final) (Reconciliation sid q l V x) := by
  intro s t h hl hi
  cases h with
  | exhausted hb ht => exact .exhausted hb (stable_tally _ _ _ _ _ _ s t ht hl hi)
  | absent hv hd hb ht => exact .absent hv hd hb (stable_tally _ _ _ _ _ _ s t ht hl hi)
  | later hv hd hb ht => exact .later hv hd hb (stable_tally _ _ _ _ _ _ s t ht hl hi)
  | doubted hv hd hb ht => exact .doubted hv hd hb (stable_tally _ _ _ _ _ _ s t ht hl hi)

/-- A write that keeps the send in flight. -/
theorem Stands.noted {x : Bool} (h : Stands sid q l s) (hf : Fine c lo hi final l.length q) (hq : q.state = .inFlight)
    (hd : q.dispatchedAt.isSome = true) {errorClass : ErrorClass} {detail : String}
    (hs : State.sem settings sid (.write sid (.error errorClass detail)) e s = some (x, t)) :
    Stays sid c lo hi final t ∧ Tally sid q.draftId .inFlight q.attempts q.reconcileAttempts l t :=
  have hrow := h.wrote (by simp [Write.guard, inFlight, hq]) rfl hs
  ⟨hrow.stays ⟨hf.counted, hf.tried, .inl hq⟩, _, hrow, rfl, hq, hd, rfl, rfl⟩

theorem Stands.parked {x : Bool} (h : Stands sid q l s) (hf : Fine c lo hi final l.length q) (hq : q.state = .inFlight)
    (hd : q.dispatchedAt.isSome = true) (hspent : MAX_RECONCILE_ATTEMPTS ≤ q.reconcileAttempts) {reason : String}
    (hs : State.sem settings sid (.write sid (.uncertain reason)) e s = some (x, t)) :
    Stays sid c lo hi final t ∧ Tally sid q.draftId .uncertain q.attempts q.reconcileAttempts l t :=
  have hrow := h.wrote (by simp [Write.guard, inFlight, hq, hd]) rfl hs
  ⟨hrow.stays ⟨hf.counted, hf.tried, .inr (.inl ⟨rfl, hspent⟩)⟩, _, hrow, rfl, rfl, hd, rfl, rfl⟩

/-- The answers are such as `V` allows, and settle nothing. -/
structure Within (answers : Op → Env → Prop) (V : Except Exn ProbeResult → Prop) : Prop where
  allowed : ∀ provider request v, answers (.probe provider request) (.probed v) → V v
  pending : ∀ v, V v → settles v = false

/-- A probe that failed. -/
theorem steady_probeFailed {V : Except Exn ProbeResult → Prop} {exc : Exn} (hv : V (.error exc))
    (h : Stands sid (bumpRow q) (some (.error exc) :: l) s)
    (hf : Fine c lo hi final (some (Except.error exc : Except Exn ProbeResult) :: l).length (bumpRow q))
    (hq : q.state = .inFlight) (hd : q.dispatchedAt.isSome = true) (hb : q.reconcileAttempts < MAX_RECONCILE_ATTEMPTS) :
    Safe (steady settings sid key answers c lo hi final) (fun x t => Reconciliation sid q l V x t)
      (probeFailed sid (q.reconcileAttempts + 1) exc) s := by
  unfold probeFailed
  by_cases hlast : q.reconcileAttempts + 1 ≥ MAX_RECONCILE_ATTEMPTS
  · rw [if_pos hlast]
    refine Safe.perform (stable_stands _ _) h fun t e x u ht _ _ hs => ?_
    obtain ⟨hstays, htally⟩ := ht.parked hf hq hd hlast hs
    exact ⟨hstays, trivial, Safe.ret (stable_reconciliation q l V _) (.doubted hv rfl (by omega) htally)⟩
  · rw [if_neg hlast]
    refine Safe.perform (stable_stands _ _) h fun t e x u ht _ _ hs => ?_
    obtain ⟨hstays, htally⟩ := ht.noted hf hq hd hs
    exact ⟨hstays, trivial, Safe.ret (stable_reconciliation q l V _) (.later hv rfl (by omega) htally)⟩

/-- One that answered, and did not find the message. -/
theorem steady_settleProbe {V : Except Exn ProbeResult → Prop} {probe : ProbeResult} (hv : V (.ok probe))
    (hopen : settles (.ok probe) = false) (note : String) (send : SendRow)
    (h : Stands sid (bumpRow q) (some (.ok probe) :: l) s)
    (hf : Fine c lo hi final (some (Except.ok probe : Except Exn ProbeResult) :: l).length (bumpRow q))
    (hq : q.state = .inFlight) (hd : q.dispatchedAt.isSome = true) (hb : q.reconcileAttempts < MAX_RECONCILE_ATTEMPTS) :
    Safe (steady settings sid key answers c lo hi final) (fun x t => Reconciliation sid q l V x t)
      (settleProbe sid note send (q.reconcileAttempts + 1) probe) s := by
  unfold settleProbe
  cases hverdict : probe.verdict with
  | found => simp [settles, hverdict] at hopen
  | absent =>
    have hdoubt : doubtful (.ok probe) = false := by simp [doubtful, hverdict]
    refine Safe.perform (stable_stands _ _) h fun t e x u ht _ _ hs => ?_
    obtain ⟨hstays, htally⟩ := ht.noted hf hq hd hs
    exact ⟨hstays, trivial, Safe.ret (stable_reconciliation q l V _) (.absent hv hdoubt hb htally)⟩
  | inconclusive =>
    have hdoubt : doubtful (.ok probe) = true := by simp [doubtful, hverdict]
    dsimp only
    by_cases hlast : q.reconcileAttempts + 1 ≥ MAX_RECONCILE_ATTEMPTS
    · rw [if_pos hlast]
      refine Safe.perform (stable_stands _ _) h fun t e x u ht _ _ hs => ?_
      obtain ⟨hstays, htally⟩ := ht.parked hf hq hd hlast hs
      exact ⟨hstays, trivial, Safe.ret (stable_reconciliation q l V _) (.doubted hv hdoubt (by omega) htally)⟩
    · rw [if_neg hlast]
      refine Safe.perform (stable_stands _ _) h fun t e x u ht _ _ hs => ?_
      obtain ⟨hstays, htally⟩ := ht.noted hf hq hd hs
      exact ⟨hstays, trivial, Safe.ret (stable_reconciliation q l V _) (.later hv hdoubt (by omega) htally)⟩

variable (settings key) in
/-- **What a reconciliation comes to**: the counter first, then the answer. -/
theorem steady_reconcileSend {V : Except Exn ProbeResult → Prop} (hV : Within answers V) (note : String)
    (h : Stands sid q l s) (hf : Fine c lo hi final l.length q) (hq : q.state = .inFlight)
    (hd : q.dispatchedAt.isSome = true) :
    Safe (steady settings sid key answers c lo hi final) (fun x t => Reconciliation sid q l V x t)
      (reconcileSend sid note) s := by
  unfold reconcileSend
  refine Safe.perform (stable_stands q l) h fun t e x u ht _ _ hs => ?_
  obtain ⟨w, hw, rfl⟩ := State.sem_eq_some hs
  obtain ⟨rfl, rfl⟩ := sem_loadSend hw
  refine ⟨ht.store.stays hf, trivial, ?_⟩
  rw [ht.row]
  dsimp only
  rw [if_neg (not_not.2 hq), if_neg (by simpa [Option.isSome_iff_ne_none] using hd)]
  unfold reconcileDispatched
  by_cases hb : MAX_RECONCILE_ATTEMPTS ≤ q.reconcileAttempts
  · rw [if_pos hb]
    refine Safe.perform (stable_stands q l) ht.store fun v e x w hv _ _ hs => ?_
    obtain ⟨hstays, htally⟩ := hv.parked hf hq hd hb hs
    exact ⟨hstays, trivial, Safe.ret (stable_reconciliation q l V _) (.exhausted hb htally)⟩
  · rw [if_neg hb]
    refine Safe.perform (stable_stands q l) ht.store fun v e x w hv _ _ hs => ?_
    obtain ⟨store, hw, rfl⟩ := State.sem_eq_some hs
    obtain ⟨rfl, rfl⟩ := sem_loadDraft hw
    refine ⟨hv.store.stays hf, trivial, ?_⟩
    obtain ⟨draft, hdraft⟩ := Option.isSome_iff_exists.1 hv.draft
    rw [hdraft]
    refine Safe.perform (stable_stands q l) hv.store fun a e x b ha _ _ hs => ?_
    obtain ⟨hbumped, rfl⟩ := ha.bumped hs
    refine ⟨hbumped.stays (hf.bumped hq), trivial, ?_⟩
    refine Safe.perform (stable_stands (bumpRow q) (none :: l)) hbumped fun a e v b ha _ hok hs => ?_
    obtain ⟨rfl, hanswered⟩ := ha.probed hs
    have hv : V v := hV.allowed _ _ _ hok
    have hfine : Fine c lo hi final (some v :: l).length (bumpRow q) := hf.bumped hq
    refine ⟨hanswered.stays hfine, trivial, ?_⟩
    cases v with
    | error exc => exact steady_probeFailed hv hanswered hfine hq hd (Nat.lt_of_not_le hb)
    | ok probe => exact steady_settleProbe hv (hV.pending _ hv) note q hanswered hfine hq hd (Nat.lt_of_not_le hb)

/-! ## One attempt -/

/-- The probe found nothing. -/
def Absent (v : Except Exn ProbeResult) : Prop := ∃ probe, v = .ok probe ∧ probe.verdict = .absent

theorem within_fails : Within Fails Absent where
  allowed _ _ _ h := h
  pending v hv := by
    obtain ⟨probe, rfl, hverdict⟩ := hv
    simp [settles, hverdict]

theorem not_doubtful_of_absent {v : Except Exn ProbeResult} (h : Absent v) : doubtful v = false := by
  obtain ⟨probe, rfl, hverdict⟩ := h
  simp [doubtful, hverdict]

/-- How a failed dispatch leaves the send: to be tried again, over with nothing sent, or, its budget spent, in doubt. -/
inductive Tried (sid draftId attempts reconciles : Nat) (last : Bool) : State → Prop
  | again {t : State} {l : List Probe} (hl : last = false) (ht : Tally sid draftId .inFlight attempts reconciles l t) :
      Tried sid draftId attempts reconciles last t
  | ended {t : State} {l : List Probe} (hl : last = true) (hb : reconciles < MAX_RECONCILE_ATTEMPTS)
      (ht : Tally sid draftId .failedTransient attempts (reconciles + 1) l t) : Tried sid draftId attempts reconciles last t
  | doubted {t : State} {l : List Probe} (hl : last = true) (hb : MAX_RECONCILE_ATTEMPTS ≤ reconciles)
      (ht : Tally sid draftId .uncertain attempts reconciles l t) : Tried sid draftId attempts reconciles last t

theorem stable_tried (sid draftId attempts reconciles : Nat) (last : Bool) :
    Prog.Stable (steady settings sid key answers c lo hi final) (Tried sid draftId attempts reconciles last) := by
  intro s t h hl hi
  cases h with
  | again hlast ht => exact .again hlast (stable_tally _ _ _ _ _ _ s t ht hl hi)
  | ended hlast hb ht => exact .ended hlast hb (stable_tally _ _ _ _ _ _ s t ht hl hi)
  | doubted hlast hb ht => exact .doubted hlast hb (stable_tally _ _ _ _ _ _ s t ht hl hi)

/-- The attempt is the job's last. -/
def last (job : ClaimedJob) : Bool := decide (job.maxAttempts ≤ job.attempts)

variable (settings key) in
/-- **What becomes of the send when its dispatch has failed.** -/
theorem steady_finalizeFailure {exc : Exn} (hexc : classify exc = .transient) (job : ClaimedJob)
    (artifact : Option (ProviderKind × SendRequest)) (h : Stands sid q l s) (hf : Fine c lo hi (last job) l.length q)
    (hq : q.state = .inFlight) (hd : q.dispatchedAt.isSome = true) :
    Safe (steady settings sid key Fails c lo hi (last job))
      (fun _ t => Tried sid q.draftId q.attempts q.reconcileAttempts (last job) t) (finalizeFailure sid exc job artifact) s := by
  unfold finalizeFailure
  dsimp only
  rw [if_pos hexc]
  by_cases hceiling : job.attempts < job.maxAttempts
  · have hlast : last job = false := decide_eq_false (by omega)
    rw [if_pos hceiling]
    refine Safe.perform (stable_stands q l) h fun t e x u ht _ _ hs => ?_
    obtain ⟨hstays, htally⟩ := ht.noted hf hq hd hs
    exact ⟨hstays, trivial, Safe.ret (stable_tried _ _ _ _ _) (.again hlast htally)⟩
  · have hlast : last job = true := decide_eq_true (by omega)
    rw [if_neg hceiling]
    refine Safe.bind (Safe.mono (fun v t hi hv => ?_) (steady_reconcileSend settings key within_fails _ h hf hq hd))
    cases hv with
    | exhausted hb ht => exact Safe.ret (stable_tried _ _ _ _ _) (.doubted hlast hb ht)
    | later hv hdoubt _ _ | doubted hv hdoubt _ _ => cases hdoubt.symm.trans (not_doubtful_of_absent hv)
    | @absent v _ _ _ hb ht =>
      refine Safe.perform (stable_tally _ _ _ _ _ _) ht fun t e x u ht _ _ hs => ?_
      obtain ⟨r, hr, hdraft, hstate, hdisp, hatt, hrec⟩ := ht
      have hrow := hr.wrote (by simp [Write.guard, inFlight, hstate]) rfl hs
      have hcount : r.reconcileAttempts = c + (some v :: l).length := by
        rw [hrec, hf.counted]
        rfl
      refine ⟨hrow.stays ⟨hcount, hatt ▸ hf.tried, .inr (.inr ⟨rfl, hlast⟩)⟩, trivial, ?_⟩
      exact Safe.ret (stable_tried _ _ _ _ _) (.ended hlast hb ⟨_, hrow, hdraft, rfl, hdisp, hatt, hrec⟩)

/-- An attempt that dispatched: what it raised is transient, so that the job is tried again below its ceiling. -/
def Raised (sid draftId attempts reconciles : Nat) (last : Bool) (a : Except Exn Unit) (t : State) : Prop :=
  (∃ exc, a = .error exc ∧ classify exc = .transient) ∧ Tried sid draftId attempts reconciles last t

theorem stable_raised (sid draftId attempts reconciles : Nat) (last : Bool) (a : Except Exn Unit) :
    Prog.Stable (steady settings sid key answers c lo hi final) (Raised sid draftId attempts reconciles last a) :=
  fun s t h hl hi => ⟨h.1, stable_tried _ _ _ _ _ s t h.2 hl hi⟩

variable (settings key) in
/-- **A dispatch whose send fails.** -/
theorem steady_dispatchSend (job : ClaimedJob) (hsid : job.refId = sid) {send : SendRow} (hsend : send.draftId = q.draftId)
    (h : Stands sid q l s) (hf : Fine c lo hi (last job) l.length q) (hq : q.state = .inFlight) (hlt : q.attempts < hi) :
    Safe (steady settings sid key Fails c lo hi (last job))
      (fun a t => Raised sid q.draftId (q.attempts + 1) q.reconcileAttempts (last job) a t) (dispatchSend job send) s := by
  unfold dispatchSend
  refine Safe.perform (stable_stands q l) h fun t e x u ht _ _ hs => ?_
  obtain ⟨w, hw, rfl⟩ := State.sem_eq_some hs
  obtain ⟨rfl, rfl⟩ := sem_loadDraft hw
  refine ⟨ht.store.stays hf, trivial, ?_⟩
  obtain ⟨draft, hdraft⟩ := Option.isSome_iff_exists.1 ht.draft
  rw [hsend, hdraft]
  refine Safe.perform (stable_stands q l) ht.store fun v e x w hv _ hok hs => ?_
  obtain ⟨store, hw, rfl⟩ := State.sem_eq_some hs
  obtain ⟨rfl, rfl⟩ := sem_prepare hw
  refine ⟨hv.store.stays hf, trivial, ?_⟩
  obtain ⟨prepared, rfl⟩ : ∃ prepared, x = .ok prepared := hok
  dsimp only
  rw [hsid]
  refine Safe.perform (stable_stands q l) hv.store fun a e x b ha _ _ hs => ?_
  have hrow := ha.wrote (by simp [Write.guard, inFlight, hq]) rfl hs
  have hfine : Fine c lo hi (last job) l.length ((Write.dispatch prepared.providerDraftId).row a.store.now q) :=
    ⟨hf.counted, ⟨Nat.le_succ_of_le hf.tried.1, hlt⟩, .inl hq⟩
  refine ⟨hrow.stays hfine, trivial, ?_⟩
  simp only [handOver, providerSend]
  refine Safe.perform (stable_stands _ _) hrow fun c e call d hc _ _ hs => ?_
  obtain ⟨store, hw, rfl⟩ := State.sem_eq_some hs
  obtain ⟨rfl, rfl⟩ := sem_sendCall hw
  have hcalled : Stands sid ((Write.dispatch prepared.providerDraftId).row a.store.now q) l
      ⟨{ c.store with
        calls := c.store.calls.insert ⟨send.provider, withPrepared (requestFor send draft) prepared, .pending⟩ }, c.probes⟩ :=
    ⟨hc.row, hc.draft, hc.probes⟩
  refine ⟨hcalled.stays hfine, trivial, ?_⟩
  refine Safe.perform (stable_stands _ _) hcalled fun c e x d hc _ hok hs => ?_
  obtain ⟨store, hw, rfl⟩ := State.sem_eq_some hs
  obtain ⟨rfl, rfl⟩ := sem_sendAnswer hw
  refine ⟨hc.store.stays hfine, trivial, ?_⟩
  obtain ⟨exc, rfl, hexc⟩ : ∃ exc, x = .error exc ∧ classify exc = .transient := hok
  dsimp only
  rw [hsid]
  refine Safe.bind (Safe.mono (fun _ t _ ht => ?_)
    (steady_finalizeFailure settings key hexc job _ hc.store hfine hq rfl))
  exact Safe.ret (stable_raised _ _ _ _ _ _) ⟨⟨exc, rfl, hexc⟩, ht⟩

/-- How an attempt leaves a send in flight: parked without a dispatch, its budget spent, or dispatched once more. -/
inductive Attempted (sid : Nat) (q : SendRow) (last : Bool) : Except Exn Unit → State → Prop
  | exhausted {t : State} {l : List Probe} (hd : q.dispatchedAt.isSome = true)
      (hb : MAX_RECONCILE_ATTEMPTS ≤ q.reconcileAttempts)
      (ht : Tally sid q.draftId .uncertain q.attempts q.reconcileAttempts l t) : Attempted sid q last (.ok ()) t
  | raised {a : Except Exn Unit} {t : State}
      (hb : q.dispatchedAt.isSome = true → q.reconcileAttempts < MAX_RECONCILE_ATTEMPTS)
      (ht : Raised sid q.draftId (q.attempts + 1) (q.reconcileAttempts + asked q) last a t) : Attempted sid q last a t

theorem stable_attempted (q : SendRow) (last : Bool) (a : Except Exn Unit) :
    Prog.Stable (steady settings sid key answers c lo hi final) (Attempted sid q last a) := by
  intro s t h hl hi
  cases h with
  | exhausted hd hb ht => exact .exhausted hd hb (stable_tally _ _ _ _ _ _ s t ht hl hi)
  | raised hb ht => exact .raised hb (stable_raised _ _ _ _ _ _ s t ht hl hi)

variable (settings key) in
/-- **One execution of the send's job.** -/
theorem steady_handler (job : ClaimedJob) (hk : job.kind = .send) (hsid : job.refId = sid) (h : Stands sid q l s)
    (hf : Fine c lo hi (last job) l.length q) (hq : q.state = .inFlight) (hlt : q.attempts < hi) :
    Safe (steady settings sid key Fails c lo hi (last job)) (fun a t => Attempted sid q (last job) a t) (handler job) s := by
  unfold handler
  rw [hk]
  unfold runSend
  refine Safe.perform (stable_stands q l) h fun t e x u ht _ _ hs => ?_
  obtain ⟨w, hw, rfl⟩ := State.sem_eq_some hs
  obtain ⟨rfl, rfl⟩ := sem_loadSend hw
  refine ⟨ht.store.stays hf, trivial, ?_⟩
  rw [hsid, ht.row]
  dsimp only
  rw [if_neg (not_not.2 hq)]
  by_cases hd : q.dispatchedAt.isSome = true
  · have hasked : asked q = 1 := if_pos hd
    rw [if_pos hd]
    refine Safe.bind (Safe.mono (fun v t _ hv => ?_) (steady_reconcileSend settings key within_fails "" ht.store hf hq hd))
    cases hv with
    | exhausted hb ht => exact Safe.ret (stable_attempted _ _ _) (.exhausted hd hb ht)
    | later hv hdoubt _ _ | doubted hv hdoubt _ _ => cases hdoubt.symm.trans (not_doubtful_of_absent hv)
    | @absent v _ _ _ hb ht =>
      obtain ⟨r, hr, hdraft, hstate, -, hatt, hrec⟩ := ht
      have hcount : r.reconcileAttempts = c + (some v :: l).length := by
        rw [hrec, hf.counted]
        rfl
      refine Safe.mono (fun a t _ ha => ?_) (steady_dispatchSend settings key job hsid hdraft.symm hr
        ⟨hcount, hatt ▸ hf.tried, .inl hstate⟩ hstate (hatt ▸ hlt))
      rw [hdraft, hatt, hrec] at ha
      exact .raised (fun _ => hb) (by rw [hasked]; exact ha)
  · have hasked : asked q = 0 := if_neg hd
    rw [if_neg hd]
    refine Safe.mono (fun a t _ ha => ?_) (steady_dispatchSend settings key job hsid rfl ht.store hf hq hlt)
    refine .raised (fun h => absurd h hd) ?_
    rw [hasked]
    exact ha

end Budget
end Send
end SafeSend
