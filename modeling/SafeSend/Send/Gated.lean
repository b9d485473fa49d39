import SafeSend.Send.Steps
/-!
# What the programs hand over

An operation of the gate trusts what its program read before: the draft a claim is for, the partition a job is booked
in.  Every program hands over what still holds when the operation runs, because what it read is never rewritten.
-/
namespace SafeSend
namespace Send

open Lib
open Lib.Prog (Uses Safe Contract)
open Queue (ClaimedJob Recovery)

/-- Nothing is forgotten, a send's claim stays, and so does a draft's origin. -/
structure Extends (w w' : Store) : Prop where
  sends : ∀ sid r, w.sends.get sid = some r → ∃ r', w'.sends.get sid = some r' ∧ r'.claim = r.claim
  drafts : ∀ id d, w.drafts.get id = some d → ∃ d', w'.drafts.get id = some d' ∧ d'.origin = d.origin

theorem Extends.refl (w : Store) : Extends w w := ⟨fun _ r h => ⟨r, h, rfl⟩, fun _ d h => ⟨d, h, rfl⟩⟩

theorem Extends.trans {w w' w'' : Store} (h : Extends w w') (h' : Extends w' w'') : Extends w w'' where
  sends sid r hr := by
    obtain ⟨r', hr', hc⟩ := h.sends sid r hr
    obtain ⟨r'', hr'', hc'⟩ := h'.sends sid r' hr'
    exact ⟨r'', hr'', hc'.trans hc⟩
  drafts id d hd := by
    obtain ⟨d', hd', ho⟩ := h.drafts id d hd
    obtain ⟨d'', hd'', ho'⟩ := h'.drafts id d' hd'
    exact ⟨d'', hd'', ho'.trans ho⟩

variable {settings : Settings}

theorem Did.extends {o : Op} {w w' : Store} (h : Did settings w o w') : Extends w w' where
  sends sid _ hr := (h.send sid).keeps hr
  drafts id d hd := by
    rcases h.draft id with hs | ⟨_, edit, d', -, hd', -, hs⟩ | ⟨_, _, -, -, rfl, _⟩
    · exact ⟨d, hs ▸ hd, rfl⟩
    · obtain rfl := Option.some.inj (hd.symm.trans hd')
      exact ⟨_, hs, rfl⟩
    · rw [w.drafts.get_next] at hd
      cases hd

/-- What an operation of the gate trusts. -/
def Fits (w : Store) : Op → Prop
  | .claimAndEnqueue a =>
    ∃ d, w.drafts.get a.draftId = some d ∧ d.origin = (a.userId, a.connectionId, a.provider, a.idempotencyKey)
  | .operatorRetryWrite id _ partition | .resolveWrite id _ _ _ partition =>
    ∀ r, w.sends.get id = some r → r.partition = partition
  | _ => True

/-- The operations that trust nothing. -/
def Op.plain : Op → Bool
  | claimAndEnqueue _ | operatorRetryWrite _ _ _ | resolveWrite _ _ _ _ _ => false
  | _ => true

/-- The operations of the calls of the API. -/
def Op.api : Op → Bool
  | clock | draftOf _ _ | connectionById _ | firstConnection _ _ _ | channelName _ _ | insertDraft _ | updateDraft _ _ _
  | loadSendByKey _ _ | claimAndEnqueue _ | sendOf _ _ | operatorRetryWrite _ _ _ | resolveWrite _ _ _ _ _ => true
  | _ => false

/-- Those of them that book no draft. -/
def Op.draftless : Op → Bool
  | insertDraft _ => false
  | o => o.api

/-- Those of them that only read. -/
def Op.asks : Op → Bool
  | clock | draftOf _ _ | connectionById _ | firstConnection _ _ _ | channelName _ _ | loadSendByKey _ _ | sendOf _ _ => true
  | _ => false

/-- Those of them that write no draft. -/
def Op.editless : Op → Bool
  | insertDraft _ | updateDraft _ _ _ => false
  | o => o.api

/-- And that trust nothing. -/
def Op.inert (o : Op) : Bool := o.draftless && o.plain

/-- The worker's operations that hand a provider nothing. -/
def Op.quiet : Op → Bool
  | loadSend _ | loadDraft _ | write _ _ | bumpReconcileAttempts _ | sendAnswer _ | probe _ _ | discard _ _
  | recordSuccess _ | adapterRun _ | recoverRow _ => true
  | _ => false

/-- A worker's guarded write. -/
def Op.writes : Op → Bool
  | write _ _ => true
  | _ => false

/-- One that notes what a row has come to, and names nothing of the provider's. -/
def Op.notes : Op → Bool
  | write _ (.uncertain _) | write _ (.error _ _) => true
  | _ => false

theorem Fits.of_plain {w : Store} {o : Op} (h : o.plain = true) : Fits w o := by
  cases o <;> trivial

/-- A program relies on nothing being forgotten, and owes operations that fit. -/
def gate (settings : Settings) : Contract Op Op.Ans Env Store where
  sem := sem settings
  ok _ _ _ := True
  inv _ := True
  rely := Extends
  guar o w _ := Fits w o
  refl := Extends.refl
  trans := Extends.trans

variable {α : Type}

/-- A program of plain operations owes nothing. -/
theorem gated_of_plain : ∀ {p : SendProg α} (w : Store), Uses (fun o => o.plain = true) p →
    Safe (gate settings) (fun _ _ => True) p w
  | .ret _, _, _ => Safe.done
  | .op _ _, _, h => Safe.op (Prog.Stable.true _) trivial fun _ _ x u _ _ _ _ =>
    ⟨trivial, Fits.of_plain (Uses.op_iff.1 h).1, gated_of_plain u ((Uses.op_iff.1 h).2 x)⟩

theorem gated_of_inert {p : SendProg α} (w : Store) (h : Uses (fun o => o.inert = true) p) :
    Safe (gate settings) (fun _ _ => True) p w :=
  gated_of_plain w (h.mono fun _ ho => (Bool.and_eq_true_iff.1 ho).2)

theorem api_of_quiet {o : Op} (h : o.quiet = true) : o.api = false := by
  cases o <;> first | rfl | cases h

theorem worker_of_quiet {p : SendProg α} (h : Uses (fun o => o.quiet = true) p) : Uses (fun o => o.api = false) p :=
  h.mono fun _ => api_of_quiet

/-- The worker's programs are plain. -/
theorem plain_of_worker {p : SendProg α} (h : Uses (fun o => o.api = false) p) : Uses (fun o => o.plain = true) p :=
  h.mono fun o ho => by cases o <;> first | rfl | cases ho

theorem inert_of_asks {p : SendProg α} (h : Uses (fun o => o.asks = true) p) : Uses (fun o => o.inert = true) p :=
  h.mono fun o ho => by cases o <;> first | rfl | cases ho

/-! ## The worker's programs -/

theorem notes_probeFailed (id attempts : Nat) (exc : Exn) :
    Uses (fun o => o.notes = true) (probeFailed id attempts exc) := by
  unfold probeFailed
  simp only
  split <;> exact Uses.perform rfl fun _ => Uses.done

theorem writes_of_notes {o : Op} (h : o.notes = true) : o.writes = true := by
  cases o <;> first | rfl | cases h

theorem writes_settleProbe (id : Nat) (note : String) (send : SendRow) (attempts : Nat) (probe : ProbeResult) :
    Uses (fun o => o.writes = true) (settleProbe id note send attempts probe) := by
  unfold settleProbe
  split
  · split <;> exact Uses.perform rfl fun _ => Uses.done
  · exact Uses.perform rfl fun _ => Uses.done
  · split <;> exact Uses.perform rfl fun _ => Uses.done

theorem quiet_of_writes {o : Op} (h : o.writes = true) : o.quiet = true := by
  cases o <;> first | rfl | cases h

theorem quiet_reconcileDispatched (id : Nat) (note : String) (send : SendRow) :
    Uses (fun o => o.quiet = true) (reconcileDispatched id note send) := by
  unfold reconcileDispatched
  split
  · exact Uses.perform rfl fun _ => Uses.done
  · refine Uses.perform rfl fun draft => ?_
    cases draft with
    | none => exact Uses.perform rfl fun _ => Uses.done
    | some d =>
      refine Uses.perform rfl fun attempts => Uses.perform rfl fun r => ?_
      cases r with
      | error exc => exact (notes_probeFailed id attempts exc).mono fun _ ho => quiet_of_writes (writes_of_notes ho)
      | ok probe => exact (writes_settleProbe id note send attempts probe).mono fun _ => quiet_of_writes

theorem quiet_reconcileSend (id : Nat) (note : String) :
    Uses (fun o => o.quiet = true) (reconcileSend id note) := by
  unfold reconcileSend
  refine Uses.perform rfl fun send => ?_
  cases send with
  | none => exact Uses.done
  | some send =>
    show Uses _ (if _ then _ else _)
    split
    · exact Uses.done
    · split
      · exact Uses.done
      · exact quiet_reconcileDispatched id note send

theorem quiet_tidy (artifact : Option (ProviderKind × SendRequest)) : Uses (fun o => o.quiet = true) (tidy artifact) := by
  unfold tidy
  split
  · split
    · exact Uses.perform rfl fun _ => Uses.done
    · exact Uses.done
  · exact Uses.done

theorem quiet_finalizeFailure (id : Nat) (exc : Exn) (job : ClaimedJob)
    (artifact : Option (ProviderKind × SendRequest)) :
    Uses (fun o => o.quiet = true) (finalizeFailure id exc job artifact) := by
  unfold finalizeFailure
  simp only
  split
  · split
    · exact Uses.perform rfl fun _ => Uses.done
    · refine Uses.bind (fun verdict => ?_) (quiet_reconcileSend id _)
      cases verdict with
      | notSent | retryLater => exact Uses.perform rfl fun _ => Uses.done
      | _ => exact Uses.done
  · exact Uses.perform rfl fun _ => quiet_tidy artifact

theorem quiet_reconcileSendJob (job : ClaimedJob) : Uses (fun o => o.quiet = true) (reconcileSendJob job) := by
  unfold reconcileSendJob
  refine Uses.bind (fun verdict => ?_) (quiet_reconcileSend _ _)
  cases verdict <;> exact Uses.done

theorem quiet_askReconciler (job : ClaimedJob) : Uses (fun o => o.quiet = true) (askReconciler job) := by
  unfold askReconciler
  split
  · exact Uses.done
  · refine Uses.bind (fun outcome => ?_) (quiet_reconcileSendJob job)
    exact Uses.done

theorem quiet_sweepJobs : ∀ stale : List ClaimedJob, Uses (fun o => o.quiet = true) (sweepJobs stale)
  | [] => Uses.done
  | job :: l => by
    unfold sweepJobs
    refine Uses.bind (fun outcome => ?_) (quiet_askReconciler job)
    refine Uses.perform rfl fun _ => ?_
    refine Uses.bind (fun rest => ?_) (quiet_sweepJobs l)
    exact Uses.done

/-- A contract that the reconciliation of each of its sends keeps, and the statement on a job's row, a sweep keeps. -/
theorem askReconciler_safe {c : Contract Op Op.Ans Env Store} (job : ClaimedJob)
    (h : job.kind = .send → ∀ w, Safe c (fun _ _ => True) (reconcileSend job.refId "") w) (w : Store) :
    Safe c (fun _ _ => True) (askReconciler job) w := by
  unfold askReconciler
  cases hk : job.kind with
  | adapterRun => exact Safe.done
  | send =>
    have hjob : Safe c (fun _ _ => True) (reconcileSendJob job) w := by
      unfold reconcileSendJob
      refine Safe.bind (Safe.mono (fun verdict _ _ _ => ?_) (h hk w))
      cases verdict <;> exact Safe.done
    exact Safe.bind (Safe.mono (fun _ _ _ _ => Safe.done) hjob)

theorem sweepJobs_safe {c : Contract Op Op.Ans Env Store}
    (hrow : ∀ id w, Safe c (fun _ _ => True) (perform (.recoverRow id)) w) : ∀ (stale : List ClaimedJob) (w : Store),
    (∀ job ∈ stale, job.kind = .send → ∀ t, Safe c (fun _ _ => True) (reconcileSend job.refId "") t) →
      Safe c (fun _ _ => True) (sweepJobs stale) w
  | [], _, _ => Safe.done
  | job :: l, w, h => by
    unfold sweepJobs
    refine Safe.bind (Safe.mono (fun _ t _ _ => ?_) (askReconciler_safe job (h job List.mem_cons_self) w))
    refine Safe.bind (Safe.mono (fun _ u _ _ => ?_) (hrow job.id t))
    refine Safe.bind (Safe.mono (fun _ _ _ _ => Safe.done) (sweepJobs_safe hrow l u fun j hj => ?_))
    exact h j (List.mem_cons_of_mem _ hj)

theorem worker_handOver (job : ClaimedJob) (send : SendRow) (request : SendRequest) :
    Uses (fun o => o.api = false) (handOver job send request) := by
  unfold handOver
  refine Uses.bind (fun receipt => ?_) (Uses.perform rfl fun _ => Uses.single rfl)
  cases receipt with
  | error exc =>
    refine Uses.bind (fun _ => ?_) (worker_of_quiet (quiet_finalizeFailure _ _ _ _))
    exact Uses.done
  | ok receipt => exact Uses.perform rfl fun _ => Uses.perform rfl fun _ => Uses.done

theorem worker_dispatchSend (job : ClaimedJob) (send : SendRow) :
    Uses (fun o => o.api = false) (dispatchSend job send) := by
  unfold dispatchSend
  refine Uses.perform rfl fun draft => ?_
  cases draft with
  | none => exact Uses.done
  | some draft =>
    refine Uses.perform rfl fun prepared => ?_
    cases prepared with
    | error exc =>
      refine Uses.bind (fun _ => ?_) (worker_of_quiet (quiet_finalizeFailure _ _ _ _))
      exact Uses.done
    | ok prepared => exact Uses.perform rfl fun _ => worker_handOver _ _ _

theorem worker_runSend (job : ClaimedJob) : Uses (fun o => o.api = false) (runSend job) := by
  unfold runSend
  refine Uses.perform rfl fun send => ?_
  cases send with
  | none => exact Uses.done
  | some send =>
    show Uses _ (if _ then _ else _)
    split
    · exact Uses.done
    · split
      · refine Uses.bind (fun verdict => ?_) (worker_of_quiet (quiet_reconcileSend _ _))
        cases verdict with
        | notSent => exact worker_dispatchSend job send
        | _ => exact Uses.done
      · exact worker_dispatchSend job send

theorem worker_handler (job : ClaimedJob) : Uses (fun o => o.api = false) (handler job) := by
  unfold handler
  split
  · exact worker_runSend job
  · exact Uses.perform rfl fun _ => Uses.done

/-! ## The gate's programs -/

theorem asks_connectionById (id : Nat) : Uses (fun o => o.asks = true) (connectionById id) := by
  unfold connectionById
  refine Uses.perform rfl fun connection => ?_
  cases connection <;> exact Uses.done

theorem asks_resolveConnection (userId : Nat) (channel : ProviderKind) :
    ∀ id : Option Nat, Uses (fun o => o.asks = true) (resolveConnection userId channel id)
  | some id => by
    unfold resolveConnection
    refine Uses.bind (fun r => ?_) (asks_connectionById id)
    cases r <;> exact Uses.done
  | none => by
    unfold resolveConnection
    refine Uses.perform rfl fun found => ?_
    cases found with
    | none => exact Uses.perform rfl fun _ => Uses.done
    | some found => exact Uses.done

theorem asks_resolveRecipient (channel : ProviderKind) (recipient : String) (connectionId : Nat) :
    Uses (fun o => o.asks = true) (resolveRecipient channel recipient connectionId) := by
  unfold resolveRecipient
  split
  · exact Uses.done
  · split
    · exact Uses.done
    · exact Uses.perform rfl fun _ => Uses.done

theorem uses_createDraft {P : Op → Prop} (hasks : ∀ o, o.asks = true → P o) (hbook : ∀ args, P (.insertDraft args))
    (a : NewDraft) : Uses P (createDraft a) := by
  unfold createDraft
  split
  · exact Uses.done
  · split
    · exact Uses.done
    · split
      · exact Uses.done
      · refine Uses.bind (fun r => ?_) ((asks_resolveConnection _ _ _).mono hasks)
        cases r with
        | error e => exact Uses.done
        | ok c =>
          refine Uses.bind (fun display => ?_) ((asks_resolveRecipient _ _ _).mono hasks)
          exact Uses.perform (hbook _) fun _ => Uses.done

theorem asks_getDraft (id userId : Nat) : Uses (fun o => o.asks = true) (getDraft id userId) := by
  unfold getDraft
  refine Uses.perform rfl fun row => ?_
  cases row with
  | none => exact Uses.done
  | some row =>
    refine Uses.bind (fun r => ?_) (asks_connectionById row.connectionId)
    cases r <;> exact Uses.done

theorem asks_nextDisplay (current : DraftView) (nextRecipient : String) :
    Uses (fun o => o.asks = true) (nextDisplay current nextRecipient) := by
  unfold nextDisplay
  split
  · exact Uses.done
  · exact asks_resolveRecipient _ _ _

theorem inert_updateDraft (id userId : Nat) (c : DraftChange) : Uses (fun o => o.inert = true) (updateDraft id userId c) := by
  unfold updateDraft
  refine Uses.bind (fun current => ?_) (inert_of_asks (asks_getDraft id userId))
  cases current with
  | error e => exact Uses.done
  | ok current =>
    refine Uses.bind (fun display => ?_) ?_
    · refine Uses.perform rfl fun row => ?_
      cases row with
      | error e => exact Uses.done
      | ok row =>
        refine Uses.bind (fun r => ?_) (inert_of_asks (asks_connectionById row.connectionId))
        cases r <;> exact Uses.done
    · exact inert_of_asks (asks_nextDisplay _ _)

theorem asks_replay (id : Nat) (row : SendRow) (confirmed : String) :
    Uses (fun o => o.asks = true) (replay id row confirmed) := by
  unfold replay replayPayload
  split
  · exact Uses.done
  · exact Uses.perform rfl fun _ => Uses.done

theorem stable_send (settings : Settings) (id : Nat) (c : ClaimArgs) :
    Prog.Stable (gate settings) fun w => ∃ r, w.sends.get id = some r ∧ r.claim = c := by
  rintro w w' ⟨r, hr, rfl⟩ hext -
  exact hext.sends id r hr

theorem stable_draft (settings : Settings) (id : Nat) (o : Nat × Nat × ProviderKind × String) :
    Prog.Stable (gate settings) fun w => ∃ d, w.drafts.get id = some d ∧ d.origin = o := by
  rintro w w' ⟨d, hd, rfl⟩ hext -
  exact hext.drafts id d hd

theorem partition_of_claim {r r' : SendRow} (h : r'.claim = r.claim) : r'.partition = r.partition := by
  simp only [SendRow.claim, ClaimArgs.mk.injEq] at h
  simp only [SendRow.partition, h]

/-- The partition of a row read before is the row's partition still. -/
theorem fits_partition {id : Nat} {row : SendRow} {w : Store}
    (h : ∃ r, w.sends.get id = some r ∧ r.claim = row.claim) : ∀ r, w.sends.get id = some r → r.partition = row.partition := by
  intro r hr
  obtain ⟨r', hr', hc⟩ := h
  obtain rfl := Option.some.inj (hr.symm.trans hr')
  exact partition_of_claim hc

theorem gated_operatorRetry (id userId : Nat) (w : Store) :
    Safe (gate settings) (fun _ _ => True) (operatorRetry id userId) w := by
  unfold operatorRetry
  refine Safe.perform (Prog.Stable.true _) trivial fun t e x u _ _ _ hs => ⟨trivial, trivial, ?_⟩
  obtain ⟨rfl, rfl⟩ := sem_sendOf hs
  cases hx : (u.sends.get id).filter fun s => s.userId == userId with
  | none => exact Safe.done
  | some row =>
    have hrow := (Option.filter_eq_some_iff.1 hx).1
    simp only
    split
    · exact gated_of_plain u (Uses.perform rfl fun _ => Uses.done)
    · exact Safe.done
    · exact Safe.done
    all_goals
      refine Safe.perform (stable_send settings id row.claim) ⟨row, hrow, rfl⟩ fun t e x u ht _ _ _ =>
        ⟨trivial, fits_partition ht, ?_⟩
      cases x <;> exact Safe.done

theorem gated_resolveSend (id userId : Nat) (resolution : String) (note : Option String) (w : Store) :
    Safe (gate settings) (fun _ _ => True) (resolveSend id userId resolution note) w := by
  unfold resolveSend
  split
  · exact Safe.done
  · refine Safe.perform (Prog.Stable.true _) trivial fun t e x u _ _ _ hs => ⟨trivial, trivial, ?_⟩
    obtain ⟨rfl, rfl⟩ := sem_sendOf hs
    cases hx : (u.sends.get id).filter fun s => s.userId == userId with
    | none => exact Safe.done
    | some row =>
      have hrow := (Option.filter_eq_some_iff.1 hx).1
      show Safe _ _ (if _ then _ else _) u
      split
      · exact Safe.done
      · refine Safe.perform (stable_send settings id row.claim) ⟨row, hrow, rfl⟩ fun t e x u ht _ _ _ =>
          ⟨trivial, fits_partition ht, ?_⟩
        cases x <;> exact Safe.done

/-- What a call knows of the draft it read: the row it read is the user's, and its origin stands. -/
def Seen (draftId userId : Nat) (view : DraftView) (w : Store) : Prop :=
  view.draft.id = draftId ∧ ∃ d, w.drafts.get draftId = some d ∧
    d.origin = (userId, view.confirmation.connectionId, view.draft.channel, view.draft.idempotencyKey)

theorem stable_seen (settings : Settings) (draftId userId : Nat) (view : DraftView) :
    Prog.Stable (gate settings) (Seen draftId userId view) :=
  fun w w' h hr hi => ⟨h.1, stable_draft settings draftId _ w w' h.2 hr hi⟩

theorem gated_getDraft (id userId : Nat) (w : Store) :
    Safe (gate settings) (fun r t => ∀ view, r = .ok view → Seen id userId view t) (getDraft id userId) w := by
  unfold getDraft
  refine Safe.perform (Prog.Stable.true _) trivial fun t e x u _ _ _ hs => ⟨trivial, trivial, ?_⟩
  obtain ⟨rfl, rfl⟩ := sem_draftOf hs
  cases hx : (u.drafts.get id).filter fun d => d.userId == userId with
  | none => exact Safe.ret (fun _ _ _ _ _ _ h => nomatch h) (fun _ h => nomatch h)
  | some row =>
    obtain ⟨hrow, hu⟩ := Option.filter_eq_some_iff.1 hx
    simp only [beq_iff_eq] at hu
    refine Safe.perform (stable_draft settings id row.origin) ⟨row, hrow, rfl⟩ fun t e x v ht _ _ hs => ⟨trivial, trivial, ?_⟩
    have hext : Extends t v := (did_of_sem hs).extends
    cases x with
    | none => exact Safe.ret (fun _ _ _ _ _ _ h => nomatch h) (fun _ h => nomatch h)
    | some connection =>
      refine Safe.ret (fun w w' h hr hi view hv => stable_seen settings id userId view w w' (h view hv) hr hi) ?_
      rintro view hv
      obtain rfl := Except.ok.inj hv
      refine ⟨rfl, ?_⟩
      obtain ⟨d, hd, ho⟩ := stable_draft settings id row.origin t v ht hext trivial
      exact ⟨d, hd, by rw [ho]; simp only [DraftRow.origin, draftView, hu]⟩

theorem gated_sendDraft (draftId userId : Nat) (confirmed : Option String) (w : Store) :
    Safe (gate settings) (fun _ _ => True) (sendDraft draftId userId confirmed) w := by
  unfold sendDraft
  refine Safe.bind (Safe.mono (fun r t _ hr => ?_) (gated_getDraft draftId userId w))
  cases r with
  | error e => exact Safe.done
  | ok view =>
    have hview := hr view rfl
    simp only
    split
    · exact Safe.done
    · refine Safe.perform (stable_seen settings draftId userId view) hview fun t e x u ht _ _ hs => ⟨trivial, trivial, ?_⟩
      have hu := stable_seen settings draftId userId view t u ht (did_of_sem hs).extends trivial
      cases x with
      | some found => exact gated_of_inert u (inert_of_asks (asks_replay _ _ _))
      | none =>
        show Safe _ _ (if _ then _ else _) u
        split
        · exact Safe.done
        · refine Safe.perform (stable_seen settings draftId userId view) hu fun t e x u ht _ _ hs => ⟨trivial, ?_, ?_⟩
          · obtain ⟨hid, d, hd, ho⟩ := ht
            exact ⟨d, by rw [hid]; exact hd, ho⟩
          · split
            · exact gated_of_inert u (inert_of_asks (asks_replay _ _ _))
            · exact Safe.done

/-! ## What a call carries out -/

theorem draftless_of_inert {p : SendProg α} (h : Uses (fun o => o.inert = true) p) :
    Uses (fun o => o.draftless = true) p := h.mono fun _ ho => (Bool.and_eq_true_iff.1 ho).1

theorem editless_of_asks {p : SendProg α} (h : Uses (fun o => o.asks = true) p) :
    Uses (fun o => o.editless = true) p := h.mono fun o ho => by cases o <;> first | rfl | cases ho

theorem draftless_of_editless {p : SendProg α} (h : Uses (fun o => o.editless = true) p) :
    Uses (fun o => o.draftless = true) p := h.mono fun o ho => by cases o <;> first | exact ho | cases ho

theorem api_of_draftless {o : Op} (h : o.draftless = true) : o.api = true := by
  cases o <;> first | rfl | cases h

theorem editless_sendDraft (draftId userId : Nat) (confirmed : Option String) :
    Uses (fun o => o.editless = true) (sendDraft draftId userId confirmed) := by
  unfold sendDraft
  refine Uses.bind (fun r => ?_) (editless_of_asks (asks_getDraft draftId userId))
  cases r with
  | error e => exact Uses.done
  | ok view =>
    simp only
    split
    · exact Uses.done
    · refine Uses.perform rfl fun found => ?_
      cases found with
      | some found => exact editless_of_asks (asks_replay _ _ _)
      | none =>
        show Uses _ (if _ then _ else _)
        split
        · exact Uses.done
        · refine Uses.perform rfl fun result => ?_
          split
          · exact editless_of_asks (asks_replay _ _ _)
          · exact Uses.done

theorem editless_operatorRetry (id userId : Nat) : Uses (fun o => o.editless = true) (operatorRetry id userId) := by
  unfold operatorRetry
  refine Uses.perform rfl fun found => ?_
  cases found with
  | none => exact Uses.done
  | some row =>
    simp only
    split
    · exact Uses.perform rfl fun _ => Uses.done
    · exact Uses.done
    · exact Uses.done
    all_goals
      refine Uses.perform rfl fun r => ?_
      cases r <;> exact Uses.done

theorem editless_resolveSend (id userId : Nat) (resolution : String) (note : Option String) :
    Uses (fun o => o.editless = true) (resolveSend id userId resolution note) := by
  unfold resolveSend
  split
  · exact Uses.done
  · refine Uses.perform rfl fun found => ?_
    cases found with
    | none => exact Uses.done
    | some row =>
      show Uses _ (if _ then _ else _)
      split
      · exact Uses.done
      · refine Uses.perform rfl fun r => ?_
        cases r <;> exact Uses.done

/-- **A call of the API carries out only what the API has**: nothing of the worker's. -/
theorem api_request (r : Request) : Uses (fun o => o.api = true) r.prog := by
  cases r <;> rw [Request.prog] <;> refine Uses.bind (fun _ => Uses.done) ?_
  case createDraft a =>
    exact uses_createDraft (fun o ho => by cases o <;> first | rfl | cases ho) (fun _ => rfl) a
  case updateDraft id userId c => exact (draftless_of_inert (inert_updateDraft id userId c)).mono fun _ => api_of_draftless
  case sendDraft id userId confirmed =>
    exact (draftless_of_editless (editless_sendDraft id userId confirmed)).mono fun _ => api_of_draftless
  case operatorRetry id userId => exact (draftless_of_editless (editless_operatorRetry id userId)).mono fun _ => api_of_draftless
  case resolveSend id userId resolution note =>
    exact (draftless_of_editless (editless_resolveSend id userId resolution note)).mono fun _ => api_of_draftless

/-! ## The live processes -/

theorem gated_discard {β : Type} {p : SendProg β} {w : Store} (h : Safe (gate settings) (fun _ _ => True) p w) :
    Safe (gate settings) (fun _ _ => True) (do let _ ← p : SendProg Unit) w :=
  Safe.bind (Safe.mono (fun _ _ _ _ => Safe.done) h)

/-- **Every call of the API hands over what fits.** -/
theorem gated_request (r : Request) (w : Store) : Safe (gate settings) (fun _ _ => True) r.prog w := by
  cases r <;> rw [Request.prog] <;> apply gated_discard
  case createDraft a =>
    exact gated_of_plain w (uses_createDraft (fun o ho => by cases o <;> first | rfl | cases ho) (fun _ => rfl) a)
  case updateDraft id userId c => exact gated_of_inert w (inert_updateDraft id userId c)
  case sendDraft id userId confirmed => exact gated_sendDraft id userId confirmed w
  case operatorRetry id userId => exact gated_operatorRetry id userId w
  case resolveSend id userId resolution note => exact gated_resolveSend id userId resolution note w

/-- A live process hands over what fits. -/
def Proc.Gated (settings : Settings) (w : Store) : Proc → Prop
  | .exec _ _ _ body => Safe (gate settings) (fun _ _ => True) body w
  | .sweep _ _ body | .adrift body => Safe (gate settings) (fun _ _ => True) body w
  | .request body => Safe (gate settings) (fun _ _ => True) body w

theorem Proc.Gated.extends {w w' : Store} {p : Proc} (h : p.Gated settings w) (hext : Extends w w') :
    p.Gated settings w' := by
  cases p <;> exact Safe.rely (c := gate settings) h hext

theorem Proc.Gated.next {w w' : Store} {p p' : Proc} {o : Op} {x : o.Ans} {e : Env} (h : p.Gated settings w)
    (hn : p.Next o x p') (hs : sem settings o e w = some (x, w')) : Fits w o ∧ p'.Gated settings w' := by
  cases hn <;>
  · obtain ⟨-, hfits, hk⟩ := Safe.answer (c := gate settings) h trivial trivial hs
    exact ⟨hfits, hk⟩

end Send
end SafeSend
