import SafeSend.Send.WellFormed
/-!
# What was confirmed

A request is built from the draft when the worker runs, long after the digest was checked.  While no edit moves the
content of a draft with a send that may still be dispatched, and none slips in before a claim or an operator's retry,
what is handed to a provider is what was confirmed.
-/
namespace SafeSend
namespace Send

open Lib
open Lib.Prog (Uses Safe Stable Contract)
open Queue (ClaimedJob Recovery)

/-- The draft of the send has the content that was confirmed for it. -/
def agreed (w : Store) (r : SendRow) : Bool := (w.drafts.get r.draftId).any fun d => d.digest == r.confirmedSha256

/-- Every send that is not delivered agrees with its draft. -/
def Confirmed (w : Store) : Prop := ∀ sid r, w.sends.get sid = some r → r.state ≠ .delivered → agreed w r = true

/-- The request is for the send, over the content that was confirmed for it. -/
def AsConfirmed (w : Store) (sid : Nat) (request : SendRequest) : Prop :=
  ∃ r, w.sends.get sid = some r ∧ request.fingerprint = fingerprintFor r.idempotencyKey ∧
    request.digest = r.confirmedSha256

/-- What is handed to a provider is what was confirmed. -/
def Faithful (sid : Nat) (w : Store) : Op → Prop
  | .prepare _ request | .sendCall _ request => AsConfirmed w sid request
  | _ => True

/-- The send may still be dispatched: it is not delivered, or an execution of its job is under way. -/
def mayDispatch (w : World) (sid : Nat) (r : SendRow) : Bool := r.state != .delivered || w.underWay sid

/-- An edit that takes effect leaves the content of a draft with a send that may still be dispatched; a delivered send
comes back in flight, and a claim is won, only while the draft has the content confirmed. -/
def keepsContent (w : World) : Op → Bool
  | .updateDraft id userId edit =>
    (w.store.drafts.get id).all fun d =>
      !Store.editAllowed userId edit d || (Store.editRow edit d).digest == d.digest ||
        !w.store.sends.any fun sid r => r.draftId == id && mayDispatch w sid r
  | .claimAndEnqueue a =>
    (w.store.sendByKey a.userId a.idempotencyKey).isSome ||
      (w.store.drafts.get a.draftId).any fun d => d.digest == a.confirmedSha256
  | .operatorRetryWrite id _ _ => (w.store.sends.get id).all fun r => r.state != .delivered || agreed w.store r
  | _ => true

def contentFixed (w : World) : Action → Bool
  | .step pid _ => (w.nextOp pid).all (keepsContent w)
  | _ => true

variable {settings : Settings} {world t : World} {o : Op} {w w' : Store} {sid : Nat}

theorem agreed_iff {r : SendRow} : agreed w r = true ↔ ∃ d, w.drafts.get r.draftId = some d ∧ d.digest = r.confirmedSha256 := by
  simp only [agreed, Option.any_eq_true, beq_iff_eq]

/-- What is agreed is read off the claim and the draft. -/
theorem agreed_congr {r r' : SendRow} (hc : r'.claim = r.claim)
    (hd : w'.drafts.get r.draftId = w.drafts.get r.draftId) : agreed w' r' = agreed w r := by
  simp only [SendRow.claim, ClaimArgs.mk.injEq] at hc
  rw [agreed, agreed, hc.2.1, hc.2.2.2.2.2, hd]

/-- **An operation leaves a send that may still be dispatched agreed with its draft.** -/
theorem agreed_did (hok : keepsContent world o = true) (hd : Did settings world.store o w') {r r' : SendRow}
    (hr : world.store.sends.get sid = some r) (hmay : mayDispatch world sid r = true) (h : agreed world.store r = true)
    (hc : r'.claim = r.claim) : agreed w' r' = true := by
  rcases hd.draft r.draftId with hs | ⟨userId, edit, d, rfl, hdraft, ha, hs⟩ | ⟨args, k, -, -, hn, -⟩
  · rw [agreed_congr hc hs, h]
  · -- The draft was edited, and has this send.
    have hany : (world.store.sends.any fun sid q => q.draftId == r.draftId && mayDispatch world sid q) = true :=
      Table.any_eq_true.2 ⟨sid, r, hr, by simp [hmay]⟩
    simp only [keepsContent, hdraft, Option.all_some, ha, hany, Bool.not_true, Bool.false_or, Bool.or_false,
      beq_iff_eq] at hok
    obtain ⟨d', hd', hdig⟩ := agreed_iff.1 h
    obtain rfl := Option.some.inj (hdraft.symm.trans hd')
    simp only [SendRow.claim, ClaimArgs.mk.injEq] at hc
    exact agreed_iff.2 ⟨_, hc.2.1 ▸ hs, hok.trans (hdig.trans hc.2.2.2.2.2.symm)⟩
  · obtain ⟨d', hd', -⟩ := agreed_iff.1 h
    rw [hn, world.store.drafts.get_next] at hd'
    cases hd'

theorem Confirmed.did (h : Confirmed world.store) (hok : keepsContent world o = true)
    (hd : Did settings world.store o w') : Confirmed w' := by
  intro sid r' hr' hstate
  have hm := hd.send sid
  rw [hr'] at hm
  have kept {r : SendRow} (hr : world.store.sends.get sid = some r) (hs : r.state ≠ .delivered)
      (hc : r'.claim = r.claim) : agreed w' r' = true := by
    refine agreed_did hok hd hr ?_ (h sid r hr hs) hc
    simp only [mayDispatch, Bool.or_eq_true, bne_iff_ne]
    exact .inl hs
  generalize hq : some r' = q at hm
  generalize w'.forced sid = n at hm
  cases hm with
  | same => exact kept hq.symm hstate rfl
  | wrote u hr hg =>
    refine kept hr ?_ (Option.some.inj hq ▸ claim_row u _ _)
    rw [Write.inFlight_of_guard hg]
    exact nofun
  | bumped hr =>
    obtain rfl := Option.some.inj hq
    exact kept hr hstate rfl
  | claimed args hn hfree =>
    obtain rfl := Option.some.inj hq
    simp only [keepsContent, hfree, Option.isSome_none, Bool.false_or, Option.any_eq_true, beq_iff_eq] at hok
    obtain ⟨d, hdraft, hdig⟩ := hok
    have hkept : w'.drafts.get args.draftId = world.store.drafts.get args.draftId := by
      rcases hd.draft args.draftId with hs | ⟨_, _, _, ho, -⟩ | ⟨_, _, ho, -⟩
      · exact hs
      · cases ho
      · cases ho
    exact agreed_iff.2 ⟨d, hkept.trans hdraft, hdig⟩
  | @retried r userId partition hr =>
    obtain rfl := Option.some.inj hq
    by_cases hs : r.state = .delivered
    · -- A delivered send comes back in flight, over the content confirmed.
      simp only [keepsContent, hr, Option.all_some, hs, bne_self_eq_false, Bool.false_or] at hok
      rcases hd.draft r.draftId with hsame | ⟨_, _, _, ho, -⟩ | ⟨_, _, ho, -⟩
      · exact (agreed_congr (r := r) rfl hsame).trans hok
      · cases ho
      · cases ho
    · exact kept hr hs rfl
  | attested =>
    obtain rfl := Option.some.inj hq
    exact absurd rfl hstate
  | resent userId note partition hr hu =>
    obtain rfl := Option.some.inj hq
    refine kept hr ?_ rfl
    rw [hu]
    exact nofun

theorem keepsContent_of_worker (h : o.api = false) : keepsContent world o = true := by
  cases o <;> first | rfl | cases h

/-- The send agrees with its draft. -/
def Agreed (sid : Nat) (w : Store) : Prop := ∃ r, w.sends.get sid = some r ∧ agreed w r = true

/-- A worker's operation moves no draft, and no claim. -/
theorem Did.agreed (hd : Did settings w o w') (ho : o.api = false) (h : Agreed sid w) : Agreed sid w' := by
  obtain ⟨r, hr, ha⟩ := h
  obtain ⟨r', hr', hc⟩ := hd.extends.sends sid r hr
  refine ⟨r', hr', ?_⟩
  rcases hd.draft r.draftId with hs | ⟨_, _, _, rfl, -⟩ | ⟨_, _, rfl, -⟩
  · rw [agreed_congr hc hs, ha]
  · cases ho
  · cases ho

/-- A program that executes a job of the send relies on nothing being forgotten and on the content once agreed, and owes
requests over what was confirmed. -/
def confirming (settings : Settings) (sid : Nat) : Contract Op Op.Ans Env Store where
  sem := sem settings
  ok _ _ _ := True
  inv := Confirmed
  rely w w' := Extends w w' ∧ (Agreed sid w → Agreed sid w')
  guar o w _ := Faithful sid w o
  refl w := ⟨Extends.refl w, fun h => h⟩
  trans h h' := ⟨h.1.trans h'.1, fun ha => h'.2 (h.2 ha)⟩

variable {α : Type}

theorem Confirmed.did_of_worker (h : Confirmed w) (hd : Did settings w o w') (ho : o.api = false) : Confirmed w' :=
  have hok : keepsContent ({ store := w } : World) o = true := keepsContent_of_worker ho
  h.did hok hd

theorem faithful_of_quiet (h : o.quiet = true) : Faithful sid w o := by
  cases o <;> trivial

theorem confirming_of_quiet : ∀ {p : SendProg α} (w : Store), Uses (fun o => o.quiet = true) p →
    Safe (confirming settings sid) (fun _ _ => True) p w
  | .ret _, _, _ => Safe.done
  | .op _ _, _, h => Safe.op (Stable.true _) trivial fun _ _ x u _ hi _ hs =>
    have ho := (Uses.op_iff.1 h).1
    ⟨hi.did_of_worker (did_of_sem hs) (api_of_quiet ho), faithful_of_quiet ho,
      confirming_of_quiet u ((Uses.op_iff.1 h).2 x)⟩

/-- The send a program read is still there, under the same claim, and agrees with its draft. -/
def Reads (sid : Nat) (send : SendRow) (w : Store) : Prop :=
  ∃ r, w.sends.get sid = some r ∧ r.claim = send.claim ∧ agreed w r = true

theorem Reads.kept {send : SendRow} (h : Reads sid send w) (hext : Extends w w') (hagreed : Agreed sid w → Agreed sid w') :
    Reads sid send w' := by
  obtain ⟨r, hr, hc, ha⟩ := h
  obtain ⟨r', hr', hc'⟩ := hext.sends sid r hr
  obtain ⟨r'', hr'', ha'⟩ := hagreed ⟨r, hr, ha⟩
  obtain rfl := Option.some.inj (hr'.symm.trans hr'')
  exact ⟨r', hr', hc'.trans hc, ha'⟩

theorem stable_reads (sid : Nat) (send : SendRow) : Stable (confirming settings sid) (Reads sid send) :=
  fun _ _ h hrely _ => h.kept hrely.1 hrely.2

/-- The worker's own operations leave what was read as it is. -/
theorem Reads.did {send : SendRow} (h : Reads sid send w) (hd : Did settings w o w') (ho : o.api = false) :
    Reads sid send w' := h.kept hd.extends (hd.agreed ho)

/-- A request of the send's claim, over the content confirmed in it, is as confirmed. -/
theorem Reads.asConfirmed {send : SendRow} (h : Reads sid send w) {request : SendRequest}
    (hkey : request.fingerprint = send.idempotencyKey) (hdig : request.digest = send.confirmedSha256) :
    AsConfirmed w sid request := by
  obtain ⟨r, hr, hc, -⟩ := h
  simp only [SendRow.claim, ClaimArgs.mk.injEq] at hc
  exact ⟨r, hr, by rw [hkey, ← hc.2.2.2.2.1]; rfl, by rw [hdig, ← hc.2.2.2.2.2]⟩

/-- The draft behind a send that was read has the content confirmed for it. -/
theorem Reads.digest {send : SendRow} (h : Reads sid send w) {d : DraftRow}
    (hd : w.drafts.get send.draftId = some d) : d.digest = send.confirmedSha256 := by
  obtain ⟨r, -, hc, ha⟩ := h
  obtain ⟨d', hd', hdig⟩ := agreed_iff.1 ha
  simp only [SendRow.claim, ClaimArgs.mk.injEq] at hc
  rw [hc.2.1, hd] at hd'
  obtain rfl := Option.some.inj hd'
  exact hdig.trans hc.2.2.2.2.2

theorem digest_withPrepared (request : SendRequest) (prepared : PreparedSend) :
    (withPrepared request prepared).digest = request.digest := by
  unfold withPrepared
  split <;> rfl

theorem confirming_handOver (job : ClaimedJob) {send : SendRow} {request : SendRequest} (h : Reads sid send w)
    (hkey : request.fingerprint = send.idempotencyKey) (hdig : request.digest = send.confirmedSha256) :
    Safe (confirming settings sid) (fun _ _ => True) (handOver job send request) w := by
  simp only [handOver, providerSend]
  refine Safe.perform (stable_reads sid send) h fun t e call u ht hi _ hs => ?_
  refine ⟨hi.did_of_worker (did_of_sem hs) rfl, ht.asConfirmed hkey hdig, ?_⟩
  refine confirming_of_quiet u (Uses.perform rfl fun receipt => ?_)
  cases receipt with
  | error exc => exact Uses.bind (fun _ => Uses.done) (quiet_finalizeFailure _ _ _ _)
  | ok receipt => exact Uses.perform rfl fun _ => Uses.perform rfl fun _ => Uses.done

theorem confirming_dispatchSend (job : ClaimedJob) {send : SendRow} (h : Reads sid send w) :
    Safe (confirming settings sid) (fun _ _ => True) (dispatchSend job send) w := by
  unfold dispatchSend
  refine Safe.perform (stable_reads sid send) h fun t e draft u ht hi _ hs => ?_
  obtain ⟨rfl, rfl⟩ := sem_loadDraft hs
  refine ⟨hi, trivial, ?_⟩
  cases hx : u.drafts.get send.draftId with
  | none => exact Safe.done
  | some draft =>
    have hdig : (requestFor send draft).digest = send.confirmedSha256 := ht.digest hx
    refine Safe.perform (stable_reads sid send) ht fun t e prepared v ht hi _ hs => ?_
    obtain ⟨rfl, -⟩ := sem_prepare hs
    refine ⟨hi, ht.asConfirmed rfl hdig, ?_⟩
    cases prepared with
    | error exc => exact confirming_of_quiet v (Uses.bind (fun _ => Uses.done) (quiet_finalizeFailure _ _ _ _))
    | ok prepared =>
      refine Safe.perform (stable_reads sid send) ht fun t e _ x ht hi _ hs => ?_
      have hd := did_of_sem hs
      refine ⟨hi.did_of_worker hd rfl, trivial, confirming_handOver job (ht.did hd rfl) ?_ ?_⟩
      · rw [fingerprint_withPrepared]
        rfl
      · rw [digest_withPrepared, hdig]

theorem confirming_runSend (job : ClaimedJob) (w : Store) :
    Safe (confirming settings job.refId) (fun _ _ => True) (runSend job) w := by
  unfold runSend
  refine Safe.perform (Stable.true _) trivial fun t e x u _ hi _ hs => ?_
  obtain ⟨rfl, rfl⟩ := sem_loadSend hs
  refine ⟨hi, trivial, ?_⟩
  cases hx : u.sends.get job.refId with
  | none => exact Safe.done
  | some send =>
    show Safe _ _ (if _ then _ else _) u
    split
    · exact Safe.done
    · rename_i hst
      rw [not_not] at hst
      have hreads : Reads job.refId send u := by
        refine ⟨send, hx, rfl, hi job.refId send hx ?_⟩
        rw [hst]
        exact nofun
      split
      · have hstable : Stable (confirming settings job.refId) (Reads job.refId send) := stable_reads job.refId send
        have hself (o : Op) (ho : o.quiet = true) (e : Env) (s t : Store) (x : o.Ans) (_ : Confirmed s)
            (hs : sem settings o e s = some (x, t)) : (confirming settings job.refId).rely s t :=
          ⟨(did_of_sem hs).extends, (did_of_sem hs).agreed (api_of_quiet ho)⟩
        have hrec := Safe.frame hstable hself (quiet_reconcileSend job.refId "") hreads
          (confirming_of_quiet u (quiet_reconcileSend job.refId ""))
        refine Safe.bind (Safe.mono (fun verdict t _ hv => ?_) hrec)
        cases verdict with
        | notSent => exact confirming_dispatchSend job hv.2
        | _ => exact Safe.done
      · exact confirming_dispatchSend job hreads

/-! ## Along a run -/

def Proc.Confirming (settings : Settings) (w : Store) : Proc → Prop
  | .exec job _ _ body =>
    match job.kind with
    | .send => Safe (confirming settings job.refId) (fun _ _ => True) body w
    | .adapterRun => Uses (fun o => o.quiet = true) body
  | .sweep _ _ body | .adrift body => Uses (fun o => o.quiet = true) body
  | .request body => Uses (fun o => o.api = true) body

structure Confirming (settings : Settings) (w : World) : Prop where
  store : Confirmed w.store
  procs : ∀ pid p, w.procs.get pid = some p → p.Confirming settings w.store

theorem confirming_ended (job : ClaimedJob) (worker : String) (began : Nat) (r : Except Exn Unit) :
    (Proc.exec job worker began (.ret r)).Confirming settings w := by
  unfold Proc.Confirming
  dsimp only
  split
  · exact Safe.done
  · exact Uses.done

theorem confirming_exec (job : ClaimedJob) (worker : String) (began : Nat) :
    (Proc.exec job worker began (handler job)).Confirming settings w := by
  unfold Proc.Confirming handler
  cases hk : job.kind with
  | send =>
    simp only [hk]
    exact confirming_runSend job w
  | adapterRun =>
    simp only [hk]
    exact Uses.single rfl

/-- What the others do leaves a process as it is, where the sends it executes stay agreed. -/
theorem Proc.Confirming.rely {p : Proc} (h : p.Confirming settings w) (hext : Extends w w')
    (hagreed : ∀ job worker began o k, p = .exec job worker began (.op o k) → job.kind = .send →
      Agreed job.refId w → Agreed job.refId w') : p.Confirming settings w' := by
  cases p with
  | exec job worker began body =>
    cases body with
    | ret r => exact confirming_ended job worker began r
    | op o k =>
      unfold Proc.Confirming at h ⊢
      dsimp only at h ⊢
      split at h
      · rename_i hk
        exact Safe.rely (c := confirming settings job.refId) h ⟨hext, hagreed job worker began o k rfl hk⟩
      · exact h
  | _ => exact h

/-- Where a process hands something to a provider, it executes a job, and is owed for. -/
def FaithfulIn (w : Store) (p : Proc) (o : Op) : Prop :=
  o.quiet = true ∨ o.api = true ∨ ∃ job worker began body, p = .exec job worker began body ∧ Faithful job.refId w o

theorem Proc.Confirming.next {p p' : Proc} {x : o.Ans} {e : Env} (h : p.Confirming settings w) (hi : Confirmed w)
    (hn : p.Next o x p') (hs : sem settings o e w = some (x, w')) : FaithfulIn w p o ∧ p'.Confirming settings w' := by
  cases hn with
  | exec job worker began o k x =>
    unfold Proc.Confirming at h ⊢
    dsimp only at h ⊢
    split at h
    · obtain ⟨-, hg, hk⟩ := Safe.answer (c := confirming settings job.refId) h hi trivial hs
      exact ⟨.inr (.inr ⟨job, worker, began, _, rfl, hg⟩), hk⟩
    · exact ⟨.inl (Uses.op_iff.1 h).1, (Uses.op_iff.1 h).2 _⟩
  | sweep => exact ⟨.inl (Uses.op_iff.1 h).1, (Uses.op_iff.1 h).2 _⟩
  | adrift => exact ⟨.inl (Uses.op_iff.1 h).1, (Uses.op_iff.1 h).2 _⟩
  | request => exact ⟨.inr (.inl (Uses.op_iff.1 h).1), (Uses.op_iff.1 h).2 _⟩

theorem Confirming.moved {a : Action} (h : Confirming settings world) (hok : contentFixed world a = true)
    (hm : Moved settings world a t) : Confirming settings t := by
  -- A step leaves the send of an execution under way agreed with its draft.
  have hstep : Confirmed t.store ∧ ∀ sid, world.underWay sid = true → Agreed sid world.store → Agreed sid t.store := by
    rcases hm.store with ⟨pid, p, p', o, x, e, hp, hn, hs, ha⟩ | hout | ⟨jobs, he⟩
    · subst ha
      have hkeeps : keepsContent world o = true := by
        simpa only [contentFixed, nextOp_of_next hp hn, Option.all_some] using hok
      have hd := did_of_sem hs
      refine ⟨h.store.did hkeeps hd, fun sid hway ⟨r, hr, hagree⟩ => ?_⟩
      obtain ⟨r', hr', hc⟩ := hd.extends.sends sid r hr
      exact ⟨r', hr', agreed_did hkeeps hd hr (by rw [mayDispatch, hway, Bool.or_true]) hagree hc⟩
    · obtain ⟨hs, hd⟩ := Store.outside_eq hout
      refine ⟨fun sid r hr hst => ?_, fun sid _ ⟨r, hr, hagree⟩ => ⟨r, hs ▸ hr, ?_⟩⟩
      · exact (agreed_congr (r := r) rfl (by rw [hd])).trans (h.store sid r (hs ▸ hr) hst)
      · exact (agreed_congr (r := r) rfl (by rw [hd])).trans hagree
    · rw [he]
      exact ⟨h.store, fun _ _ h => h⟩
  refine ⟨hstep.1, fun pid p hp => ?_⟩
  have kept {p : Proc} {pid : Nat} (hp : world.procs.get pid = some p) : p.Confirming settings t.store :=
    (h.procs pid p hp).rely hm.extends fun _ _ _ _ _ he hk =>
      hstep.2 _ (World.underWay_of_exec (he ▸ hp) hk)
  rcases hm.proc_cases hp with ⟨e, q, o, x, -, hq, hn, hs⟩ | hp | hbegins
  · exact ((h.procs pid q hq).next h.store hn hs).2
  · exact kept hp
  · cases hbegins with
    | raised => exact confirming_ended _ _ _ _
    | lost hsweep => exact h.procs pid _ hsweep
    | called r => exact api_request r
    | claimed worker limit locked job => exact confirming_exec job worker _
    | swept limit locked stale => exact quiet_sweepJobs stale

/-- The job a process executes. -/
def World.jobOf (w : World) (pid : Nat) : Option ClaimedJob :=
  match w.procs.get pid with
  | some (.exec job _ _ _) => some job
  | _ => none

/-- **What is transmitted is what was confirmed**, along every run in which the content of a draft with a send that may
still be dispatched is not edited, and a send comes in flight only over the content it confirms. -/
theorem transmits_confirmed (h : (system settings).Reach (fun w a => contentFixed w a = true) world) (pid : Nat)
    (provider : ProviderKind) (request : SendRequest)
    (hop : world.nextOp pid = some (.prepare provider request) ∨ world.nextOp pid = some (.sendCall provider request)) :
    ∃ job, world.jobOf pid = some job ∧ AsConfirmed world.store job.refId request := by
  have hw : Confirming settings world := Machine.Reach.inv ⟨fun _ _ hr => (nomatch hr), fun _ _ hp => (nomatch hp)⟩
    (fun _ _ _ _ hi ha hs => hi.moved ha (moved_of_step hs)) h
  have found {p : Proc} (hp : world.procs.get pid = some p) {o : Op} (ho : o.quiet = false) (ho' : o.api = false)
      (hf : FaithfulIn world.store p o) : ∃ job, world.jobOf pid = some job ∧ Faithful job.refId world.store o := by
    rcases hf with hq | ha | ⟨job, worker, began, body, rfl, hf⟩
    · rw [ho] at hq
      cases hq
    · rw [ho'] at ha
      cases ha
    · exact ⟨job, by simp only [World.jobOf, hp], hf⟩
  rcases hop with hop | hop
  · obtain ⟨p, p', hp, hn⟩ := next_of_nextOp hop (.error (.other ""))
    have hread : sem settings (.prepare provider request) (.prepared (.error (.other ""))) world.store =
        some (.error (.other ""), world.store) := rfl
    exact found hp rfl rfl ((hw.procs pid p hp).next hw.store hn hread).1
  · obtain ⟨p, p', hp, hn⟩ := next_of_nextOp hop world.store.calls.next
    exact found hp rfl rfl ((hw.procs pid p hp).next hw.store hn (e := .none) rfl).1

/-- The draft of the sample send is confirmed, sent and about to be prepared. -/
theorem transmits_confirmed_sample :
    ∃ w provider request, (system {}).exec {} (sampleRun ++ [.step 2 .none, .step 2 .none]) = some w ∧
      w.nextOp 2 = some (.prepare provider request) ∧
      ∃ job, w.jobOf 2 = some job ∧ AsConfirmed w.store job.refId request := by
  have hrun : ((system {}).exec {} (sampleRun ++ [.step 2 .none, .step 2 .none])).any
      (fun w => ((w.nextOp 2).bind Op.prepares).isSome) = true := by decide +kernel
  have hal : (system {}).allowed contentFixed {} (sampleRun ++ [.step 2 .none, .step 2 .none]) = true := by decide +kernel
  rw [Option.any_eq_true] at hrun
  obtain ⟨w, hw, hp⟩ := hrun
  obtain ⟨request, hreq⟩ := Option.isSome_iff_exists.1 hp
  have hop := prepares_eq_some hreq
  exact ⟨w, _, _, hw, hop, transmits_confirmed (Machine.Steps.of_exec (fun _ _ ha => ha) hw hal) 2 _ _ (.inl hop)⟩

/-- The draft is edited after its send was confirmed and claimed, and before the worker reads it. -/
def editedAfter : List Action :=
  sampleRun ++ [.call (.updateDraft 0 1 { body := some "goodbye" }), .step 3 .none, .step 3 .none, .step 3 .none,
    .step 2 .none, .step 2 .none]

theorem editedAfter_transmits :
    ¬ ∀ w, (system {}).Reach (fun _ _ => True) w → ∀ pid provider request,
      w.nextOp pid = some (.prepare provider request) ∨ w.nextOp pid = some (.sendCall provider request) →
        ∃ job, w.jobOf pid = some job ∧ AsConfirmed w.store job.refId request := by
  intro hclaim
  have hrun : ((system {}).exec (system {}).init editedAfter).any (fun w => ((w.nextOp 2).bind Op.prepares).any fun r =>
      !w.store.sends.any fun _ q => r.2.digest == q.confirmedSha256) = true := by decide +kernel
  obtain ⟨w, -, hreach, hp⟩ := Machine.reach_of_exec hrun
  obtain ⟨request, hreq, hp⟩ := (Option.any_eq_true _ _).1 hp
  obtain ⟨job, -, r, hr, -, hdig⟩ := hclaim w hreach 2 _ _ (.inl (prepares_eq_some hreq))
  rw [Bool.not_eq_true'] at hp
  have hdiffers := Table.any_eq_false.1 hp _ r hr
  rw [hdig, beq_self_eq_true] at hdiffers
  cases hdiffers

end Send
end SafeSend
