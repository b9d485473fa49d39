import SafeSend.Send.Evidence
/-!
# Delivered on somebody's word

`delivered` is written on a provider's word or an operator's.  Beside the system stands what the providers were heard to
say: the receipt of each call, and each probe that found a message.  Every delivered send names a message one of these is
about, or is one an operator attested, whose audit row is there; and the checks on the `sends` table hold of every row.
-/
namespace SafeSend
namespace Send

open Lib
open Lib.Prog (Uses Safe Contract)
open Queue (ClaimedJob Recovery)

/-- What a provider says of a message. -/
inductive Word
  | receipt (call : Nat) (messageId : String)
  | found (provider : ProviderKind) (fingerprint messageId : String)
  deriving DecidableEq, Repr

/-- What an answer says. -/
def said : Op → Env → Option Word
  | .sendAnswer call, .receipt (.ok r) => some (.receipt call r.providerMessageId)
  | .probe provider request, .probed (.ok r) =>
    if r.verdict = .found then r.providerMessageId.map fun m => .found provider request.fingerprint m else none
  | _, _ => none

def noteWord (w : World) (a : Action) (heard : List Word) : List Word :=
  match a with
  | .step pid e => ((w.nextOp pid).bind fun o => said o e).toList ++ heard
  | _ => heard

/-- The system, with what its providers were heard to say. -/
def hearing (settings : Settings) : Machine (World × List Word) Action := (system settings).withHistory noteWord []

/-- Why a send is said to be the message `m`. -/
inductive Vouched (heard : Word → Prop) (w : Store) (sid : Nat) (r : SendRow) (m : String) : Prop
  /-- A call made for the send was answered with a receipt. -/
  | receipt (n : Nat) (c : Call) (hc : w.calls.get n = some c) (hp : c.provider = r.provider)
    (hk : c.request.fingerprint = fingerprintFor r.idempotencyKey) (h : heard (.receipt n m))
  /-- A probe for the send found it. -/
  | found (h : heard (.found r.provider (fingerprintFor r.idempotencyKey) m))
  /-- Its owner marked it delivered, and the audit row says so. -/
  | attested (n : Nat) (a : ResolutionRow) (ha : w.resolutions.get n = some a) (hs : a.sendId = sid)
    (hu : a.userId = r.userId) (hd : a.resolution = .markedDelivered)

/-- A send's row: `sends_delivered_has_evidence` with the evidence, and `sends_uncertain_was_dispatched`. -/
structure RowChecked (heard : Word → Prop) (w : Store) (sid : Nat) (r : SendRow) : Prop where
  delivered : r.state = .delivered →
    ∃ m, r.providerMessageId = some m ∧ r.deliveredAt.isSome = true ∧ Vouched heard w sid r m
  uncertain : r.state = .uncertain → r.dispatchedAt.isSome = true

def Checked (heard : Word → Prop) (w : Store) : Prop := ∀ sid r, w.sends.get sid = some r → RowChecked heard w sid r

/-- What a word is about stays: the sends' claims, the calls and the audit. -/
structure Lasts (w w' : Store) : Prop where
  sends : ∀ sid r, w.sends.get sid = some r → ∃ r', w'.sends.get sid = some r' ∧ r'.claim = r.claim
  calls : ∀ n c, w.calls.get n = some c → ∃ c', w'.calls.get n = some c' ∧ c'.provider = c.provider ∧ c'.request = c.request
  resolutions : ∀ n a, w.resolutions.get n = some a → w'.resolutions.get n = some a

variable {heard : Word → Prop} {settings : Settings} {w w' : Store} {o : Op} {α : Type} {sid : Nat} {r r' : SendRow}

theorem Lasts.refl (w : Store) : Lasts w w := ⟨fun _ r h => ⟨r, h, rfl⟩, fun _ c h => ⟨c, h, rfl, rfl⟩, fun _ _ h => h⟩

theorem Lasts.trans {w'' : Store} (h : Lasts w w') (h' : Lasts w' w'') : Lasts w w'' where
  sends sid r hr := by
    obtain ⟨r', hr', hc⟩ := h.sends sid r hr
    obtain ⟨r'', hr'', hc'⟩ := h'.sends sid r' hr'
    exact ⟨r'', hr'', hc'.trans hc⟩
  calls n c hc := by
    obtain ⟨c', hc', hp, hq⟩ := h.calls n c hc
    obtain ⟨c'', hc'', hp', hq'⟩ := h'.calls n c' hc'
    exact ⟨c'', hc'', hp'.trans hp, hq'.trans hq⟩
  resolutions n a ha := h'.resolutions n a (h.resolutions n a ha)

theorem user_of_claim (h : r'.claim = r.claim) : r'.userId = r.userId := by
  simp only [SendRow.claim, ClaimArgs.mk.injEq] at h
  exact h.1

/-- **A word stays good**, for the row it was about under whatever it has come to. -/
theorem Vouched.lasts {m : String} (h : Vouched heard w sid r m) (hl : Lasts w w') (hc : r'.claim = r.claim) :
    Vouched heard w' sid r' m := by
  have hprov : r'.provider = r.provider := provider_of_claim hc
  have hkey : r'.idempotencyKey = r.idempotencyKey := key_of_claim hc
  cases h with
  | receipt n c hget hp hk h =>
    obtain ⟨c', hget', hp', hq⟩ := hl.calls n c hget
    exact .receipt n c' hget' (by rw [hp', hp, hprov]) (by rw [hq, hk, hkey]) h
  | found h => exact .found (by rw [hprov, hkey]; exact h)
  | attested n a ha hs hu hd => exact .attested n a (hl.resolutions n a ha) hs (hu.trans (user_of_claim hc).symm) hd

theorem Did.lasts (h : Did settings w o w') : Lasts w w' where
  sends sid _ hr := (h.send sid).keeps hr
  calls n c hc := by
    rcases h.calls with he | ⟨provider, request, -, he⟩
    · exact ⟨c, he ▸ hc, rfl, rfl⟩
    · exact ⟨c, he ▸ Table.get_insert_of_get _ hc, rfl, rfl⟩
  resolutions n a ha := by
    cases h with
    | attested | resent => exact Table.get_insert_of_get _ ha
    | _ => exact ha

/-! ## What an operation owes -/

/-- Nothing is written delivered but on a word, and nothing ends but failed. -/
def Vouches (heard : Word → Prop) (w : Store) : Op → Prop
  | .write id (.delivered receipt _) => ∀ r, w.sends.get id = some r → Vouched heard w id r receipt.providerMessageId
  | .write _ (.terminal state _ _) => state.failed = true
  | _ => True

/-- The operations that owe nothing. -/
def Op.wordless : Op → Bool
  | .write _ (.delivered _ _) => false
  | .write _ (.terminal state _ _) => state.failed
  | _ => true

theorem vouches_of_wordless (h : o.wordless = true) : Vouches heard w o := by
  cases o <;> try trivial
  case write id u => cases u <;> trivial

theorem wordless_of_api (h : o.api = true) : o.wordless = true := by
  cases o <;> first | rfl | cases h

/-- A row in flight owes nothing. -/
theorem RowChecked.flying (hs : r.state = .inFlight) : RowChecked heard w sid r where
  delivered h := nomatch hs.symm.trans h
  uncertain h := nomatch hs.symm.trans h

theorem RowChecked.wrote {u : Write} (hg : u.guard r = true)
    (ho : Vouches heard w (.write sid u)) (hr : w.sends.get sid = some r) (hl : Lasts w w') :
    RowChecked heard w' sid (u.row w.now r) := by
  have hflying := Write.inFlight_of_guard hg
  cases u with
  | delivered receipt evidence =>
    exact ⟨fun _ => ⟨_, rfl, rfl, (ho r hr).lasts hl rfl⟩, fun hs => nomatch hs⟩
  | uncertain reason =>
    refine ⟨fun hs => (nomatch hs), fun _ => ?_⟩
    simp only [Write.guard, Bool.and_eq_true] at hg
    exact hg.2
  | terminal state errorClass detail =>
    have hfailed : state.failed = true := ho
    refine ⟨fun hs => ?_, fun hs => ?_⟩
    · rw [show state = .delivered from hs] at hfailed
      cases hfailed
    · rw [show state = .uncertain from hs] at hfailed
      cases hfailed
  | dispatch draftId | error errorClass detail =>
    exact .flying hflying

/-- A row whose state and evidence are another's is checked as it is. -/
theorem RowChecked.congr (h : RowChecked heard w sid r) (hl : Lasts w w') (hs : r'.state = r.state)
    (hm : r'.providerMessageId = r.providerMessageId) (ht : r'.deliveredAt = r.deliveredAt)
    (hd : r'.dispatchedAt = r.dispatchedAt) (hc : r'.claim = r.claim) : RowChecked heard w' sid r' where
  delivered hst := by
    obtain ⟨m, hid, hat, hv⟩ := h.delivered (hs.symm.trans hst)
    exact ⟨m, hm.trans hid, by rw [ht, hat], hv.lasts hl hc⟩
  uncertain hst := by
    rw [hd]
    exact h.uncertain (hs.symm.trans hst)

/-- **What an owner attests has its audit row.** -/
theorem attested_vouched {id userId : Nat} {note : Option String} {partition : String}
    (h : Did settings w (.resolveWrite id userId .markedDelivered note partition) w') (hr : w.sends.get sid = some r)
    (hmove : w'.sends.get sid ≠ some r) (m : String) : ∀ r', r'.claim = r.claim → Vouched heard w' sid r' m := by
  intro r' hc
  cases h with
  | same => exact absurd hr hmove
  | connection => exact absurd hr hmove
  | attested =>
    rcases w.sends.get_updateWhere_cases id (fun s => s.userId == userId && inDoubt s) (attestedRow w.now) sid with
      hs | ⟨rfl, i, hi, hg, -⟩
    · exact absurd (hs.trans hr) hmove
    · obtain rfl := Option.some.inj (hr.symm.trans hi)
      rw [Bool.and_eq_true, beq_iff_eq] at hg
      exact .attested w.resolutions.next _ (w.resolutions.get_insert_self _) rfl (hg.1.symm.trans (user_of_claim hc).symm) rfl

theorem Checked.did (h : Checked heard w) (ho : Vouches heard w o) (hd : Did settings w o w') : Checked heard w' := by
  intro sid r' hr'
  have hl := hd.lasts
  have hm := hd.send sid
  rw [hr'] at hm
  generalize hq : some r' = q at hm
  generalize w'.forced sid = n at hm
  cases hm with
  | same => exact (h sid r' hq.symm).congr hl rfl rfl rfl rfl rfl
  | claimed args =>
    obtain rfl := Option.some.inj hq
    exact .flying rfl
  | wrote u hr hg =>
    obtain rfl := Option.some.inj hq
    exact RowChecked.wrote hg ho hr hl
  | bumped hr =>
    obtain rfl := Option.some.inj hq
    exact (h sid _ hr).congr hl rfl rfl rfl rfl rfl
  | retried _ _ hr | resent _ _ _ hr _ =>
    obtain rfl := Option.some.inj hq
    exact .flying rfl
  | @attested r userId note partition hr hdoubt =>
    obtain rfl := Option.some.inj hq
    refine ⟨fun _ => ⟨_, rfl, rfl, ?_⟩, fun hs => nomatch hs⟩
    refine attested_vouched hd hr (fun he => ?_) _ _ rfl
    have hsame : attestedRow w.now r = r := Option.some.inj (hr'.symm.trans he)
    have hstate := congrArg SendRow.state hsame
    exact nomatch hdoubt.symm.trans hstate.symm

/-! ## The worker's programs -/

/-- A worker's program is answered what is heard, and owes a word for what it writes delivered. -/
def vouching (settings : Settings) (heard : Word → Prop) : Contract Op Op.Ans Env Store where
  sem := sem settings
  ok o e _ := ∀ v ∈ said o e, heard v
  inv := Checked heard
  rely := Lasts
  guar o w _ := Vouches heard w o
  refl := Lasts.refl
  trans := Lasts.trans

/-- One operation that pays what it owes, and then the rest from what lasts. -/
theorem Safe.vouched {P : Store → Prop} {post : α → Store → Prop} (hP : Prog.Stable (vouching settings heard) P)
    {f : o.Ans → SendProg α} (h : P w) (ho : ∀ t, P t → Vouches heard t o)
    (hk : ∀ t e u x, P u → (∀ v ∈ said o e, heard v) → sem settings o e t = some (x, u) →
      Safe (vouching settings heard) post (f x) u) :
    Safe (vouching settings heard) post (perform o >>= f) w :=
  Safe.perform hP h fun t e x u ht hi hok hs =>
    have hd := did_of_sem hs
    have hu := hi.did (ho t ht) hd
    ⟨hu, ho t ht, hk t e u x (hP t u ht hd.lasts hu) hok hs⟩

theorem vouching_of_wordless : ∀ {p : SendProg α} (w : Store), Uses (fun o => o.wordless = true) p →
    Safe (vouching settings heard) (fun _ _ => True) p w
  | .ret _, _, _ => Safe.done
  | .op _ _, _, h => Safe.op (Prog.Stable.true _) trivial fun _ _ x u _ hi _ hs =>
    have ho := vouches_of_wordless (Uses.op_iff.1 h).1
    ⟨hi.did ho (did_of_sem hs), ho, vouching_of_wordless u ((Uses.op_iff.1 h).2 x)⟩

/-- The send a program read is still there, under the same claim. -/
def Claimed (sid : Nat) (send : SendRow) (w : Store) : Prop := ∃ r, w.sends.get sid = some r ∧ r.claim = send.claim

theorem stable_claimed (sid : Nat) (send : SendRow) : Prog.Stable (vouching settings heard) (Claimed sid send) := by
  rintro w t ⟨r, hr, hc⟩ hl -
  obtain ⟨r', hr', hc'⟩ := hl.sends sid r hr
  exact ⟨r', hr', hc'.trans hc⟩

theorem Claimed.same (h : Claimed sid r w) (hr : w.sends.get sid = some r') : r'.claim = r.claim := by
  obtain ⟨q, hq, hc⟩ := h
  obtain rfl := Option.some.inj (hq.symm.trans hr)
  exact hc

/-- What vouches for the send vouches for its row. -/
theorem Claimed.vouches {receipt : SendReceipt} (h : Claimed sid r w)
    (hv : Vouched heard w sid r receipt.providerMessageId) (evidence : String) :
    Vouches heard w (.write sid (.delivered receipt evidence)) :=
  fun _ hr => hv.lasts (Lasts.refl w) (h.same hr)

theorem wordless_of_notes (h : o.notes = true) : o.wordless = true := by
  cases o <;> try cases h
  case write id u => cases u <;> first | rfl | cases h

theorem vouching_settleProbe (note : String) (attempts : Nat) {draft : DraftRow} {probe : ProbeResult} {e : Env}
    (h : Claimed sid r w) (hheard : ∀ v ∈ said (.probe r.provider (requestFor r draft)) e, heard v)
    (he : e = .probed (.ok probe)) :
    Safe (vouching settings heard) (fun _ _ => True) (settleProbe sid note r attempts probe) w := by
  have hknown : Prog.Stable (vouching settings heard) (Claimed sid r) := stable_claimed sid r
  unfold settleProbe
  split
  · rename_i hfound
    split
    · exact vouching_of_wordless w (Uses.perform rfl fun _ => Uses.done)
    · rename_i messageId hid
      have hword : heard (.found r.provider (fingerprintFor r.idempotencyKey) messageId) := by
        refine hheard _ ?_
        rw [he]
        simp only [said, hfound, if_true, hid, Option.map_some, Option.mem_def]
        rfl
      exact Safe.vouched hknown h (fun t ht => ht.vouches (.found hword) probe.evidence) fun _ _ _ _ _ _ _ => Safe.done
  · exact vouching_of_wordless w (Uses.perform rfl fun _ => Uses.done)
  · split <;> exact vouching_of_wordless w (Uses.perform rfl fun _ => Uses.done)

theorem vouching_reconcileDispatched (note : String) (h : Claimed sid r w) :
    Safe (vouching settings heard) (fun _ _ => True) (reconcileDispatched sid note r) w := by
  have hknown : Prog.Stable (vouching settings heard) (Claimed sid r) := stable_claimed sid r
  unfold reconcileDispatched
  split
  · exact vouching_of_wordless w (Uses.perform rfl fun _ => Uses.done)
  · refine Safe.vouched hknown h (fun _ _ => trivial) fun _ _ t draft ht _ _ => ?_
    cases draft with
    | none => exact vouching_of_wordless t (Uses.perform rfl fun _ => Uses.done)
    | some draft =>
      refine Safe.vouched hknown ht (fun _ _ => trivial) fun _ _ t attempts ht _ _ => ?_
      refine Safe.vouched hknown ht (fun _ _ => trivial) fun _ _ t answer ht hheard hs => ?_
      obtain ⟨-, he⟩ := sem_probe hs
      cases answer with
      | error exc => exact vouching_of_wordless t ((notes_probeFailed sid attempts exc).mono fun _ => wordless_of_notes)
      | ok probe => exact vouching_settleProbe note attempts ht hheard he

theorem vouching_reconcileSend (sid : Nat) (note : String) (w : Store) :
    Safe (vouching settings heard) (fun _ _ => True) (reconcileSend sid note) w := by
  unfold reconcileSend
  refine Safe.vouched (Prog.Stable.true _) trivial (fun _ _ => trivial) fun t e u x _ _ hs => ?_
  obtain ⟨rfl, rfl⟩ := sem_loadSend hs
  cases hx : u.sends.get sid with
  | none => exact Safe.done
  | some send =>
    show Safe _ _ (if _ then _ else _) u
    split
    · exact Safe.done
    · split
      · exact Safe.done
      · exact vouching_reconcileDispatched note ⟨send, hx, rfl⟩

theorem vouching_finalizeFailure (sid : Nat) (exc : Exn) (job : ClaimedJob)
    (artifact : Option (ProviderKind × SendRequest)) (w : Store) :
    Safe (vouching settings heard) (fun _ _ => True) (finalizeFailure sid exc job artifact) w := by
  unfold finalizeFailure
  simp only
  split
  · split
    · exact vouching_of_wordless w (Uses.perform rfl fun _ => Uses.done)
    · refine Safe.bind (Safe.mono (fun verdict t _ _ => ?_) (vouching_reconcileSend sid _ w))
      cases verdict with
      | notSent | retryLater => exact vouching_of_wordless t (Uses.perform rfl fun _ => Uses.done)
      | _ => exact Safe.done
  · refine vouching_of_wordless w (Uses.perform rfl fun _ => ?_)
    unfold tidy
    split
    · split
      · exact Uses.perform rfl fun _ => Uses.done
      · exact Uses.done
    · exact Uses.done

/-- The call a program made for its send. -/
structure Made (sid : Nat) (send : SendRow) (call : Nat) (w : Store) : Prop where
  claimed : Claimed sid send w
  call : ∃ c, w.calls.get call = some c ∧ c.provider = send.provider ∧
    c.request.fingerprint = fingerprintFor send.idempotencyKey

theorem stable_made (sid : Nat) (send : SendRow) (call : Nat) :
    Prog.Stable (vouching settings heard) (Made sid send call) := by
  intro w t h hl hi
  have hknown : Prog.Stable (vouching settings heard) (Claimed sid send) := stable_claimed sid send
  refine ⟨hknown w t h.claimed hl hi, ?_⟩
  obtain ⟨c, hc, hprov, hkey⟩ := h.call
  obtain ⟨c', hc', hprov', hreq⟩ := hl.calls call c hc
  exact ⟨c', hc', hprov'.trans hprov, by rw [hreq, hkey]⟩

/-- The receipt of its call vouches for the send. -/
theorem Made.vouched {call : Nat} {m : String} (h : Made sid r call w) (hword : heard (.receipt call m)) :
    Vouched heard w sid r m := by
  obtain ⟨c, hc, hprov, hkey⟩ := h.call
  exact .receipt call c hc hprov hkey hword

theorem vouching_handOver (job : ClaimedJob) {send : SendRow} {request : SendRequest} (h : Claimed job.refId send w)
    (hkey : request.fingerprint = fingerprintFor send.idempotencyKey) :
    Safe (vouching settings heard) (fun _ _ => True) (handOver job send request) w := by
  simp only [handOver, providerSend]
  refine Safe.perform (stable_claimed job.refId send) h fun t e call u ht hi _ hs => ?_
  have hknown : Prog.Stable (vouching settings heard) (Claimed job.refId send) := stable_claimed job.refId send
  have howes : Vouches heard t (.sendCall send.provider request) := trivial
  have hd := did_of_sem hs
  have hclaimed : Claimed job.refId send u := hknown t u ht hd.lasts (hi.did howes hd)
  obtain ⟨rfl, rfl⟩ := sem_sendCall hs
  refine ⟨hi.did howes hd, howes, ?_⟩
  have hmade : Made job.refId send t.calls.next _ := ⟨hclaimed, _, t.calls.get_insert_self _, rfl, hkey⟩
  have hstable : Prog.Stable (vouching settings heard) (Made job.refId send t.calls.next) := stable_made _ _ _
  refine Safe.vouched hstable hmade (fun _ _ => trivial) fun _ _ u answer hu hheard hs => ?_
  obtain ⟨-, rfl⟩ := sem_sendAnswer hs
  cases answer with
  | error exc => exact Safe.bind (Safe.mono (fun _ _ _ _ => Safe.done) (vouching_finalizeFailure _ _ _ _ _))
  | ok receipt =>
    have hword : heard (.receipt t.calls.next receipt.providerMessageId) := hheard _ rfl
    refine Safe.vouched hstable hu (fun t ht => ht.claimed.vouches (ht.vouched hword) "") fun _ _ u _ _ _ _ => ?_
    exact vouching_of_wordless u (Uses.perform rfl fun _ => Uses.done)

theorem vouching_dispatchSend (job : ClaimedJob) {send : SendRow} (h : Claimed job.refId send w) :
    Safe (vouching settings heard) (fun _ _ => True) (dispatchSend job send) w := by
  have hknown : Prog.Stable (vouching settings heard) (Claimed job.refId send) := stable_claimed job.refId send
  unfold dispatchSend
  refine Safe.vouched hknown h (fun _ _ => trivial) fun _ _ t draft ht _ _ => ?_
  cases draft with
  | none => exact Safe.done
  | some draft =>
    refine Safe.vouched hknown ht (fun _ _ => trivial) fun _ _ t prepared ht _ _ => ?_
    cases prepared with
    | error exc => exact Safe.bind (Safe.mono (fun _ _ _ _ => Safe.done) (vouching_finalizeFailure _ _ _ _ _))
    | ok prepared =>
      refine Safe.vouched hknown ht (fun _ _ => trivial) fun _ _ t _ ht _ _ => vouching_handOver job ht ?_
      rw [fingerprint_withPrepared]
      rfl

theorem vouching_runSend (job : ClaimedJob) (w : Store) :
    Safe (vouching settings heard) (fun _ _ => True) (runSend job) w := by
  unfold runSend
  refine Safe.vouched (Prog.Stable.true _) trivial (fun _ _ => trivial) fun t e u x _ _ hs => ?_
  obtain ⟨rfl, rfl⟩ := sem_loadSend hs
  cases hx : u.sends.get job.refId with
  | none => exact Safe.done
  | some send =>
    have hsend : Claimed job.refId send u := ⟨send, hx, rfl⟩
    show Safe _ _ (if _ then _ else _) u
    split
    · exact Safe.done
    · split
      · have hknown : Prog.Stable (vouching settings heard) (Claimed job.refId send) := stable_claimed job.refId send
        have hrec := Safe.standing hknown (fun _ _ _ _ _ _ _ hs => (did_of_sem hs).lasts) hsend
          (vouching_reconcileSend job.refId "" u)
        refine Safe.bind (Safe.mono (fun verdict t _ hv => ?_) hrec)
        cases verdict with
        | notSent => exact vouching_dispatchSend job hv.2
        | _ => exact Safe.done
      · exact vouching_dispatchSend job hsend

theorem vouching_handler (job : ClaimedJob) (w : Store) :
    Safe (vouching settings heard) (fun _ _ => True) (handler job) w := by
  unfold handler
  split
  · exact vouching_runSend job w
  · exact vouching_of_wordless w (Uses.single rfl)

/-! ## Along a run -/

variable {world t : World} {a : Action}

def Proc.Vouching (settings : Settings) (heard : Word → Prop) (w : Store) : Proc → Prop
  | .exec _ _ _ body => Safe (vouching settings heard) (fun _ _ => True) body w
  | .sweep _ _ body | .adrift body => Safe (vouching settings heard) (fun _ _ => True) body w
  | .request body => Uses (fun o => o.api = true) body

structure Attributed (settings : Settings) (heard : Word → Prop) (w : World) : Prop where
  store : Checked heard w.store
  procs : ∀ pid p, w.procs.get pid = some p → p.Vouching settings heard w.store

theorem Proc.Vouching.lasts {p : Proc} (h : p.Vouching settings heard w) (hl : Lasts w w') :
    p.Vouching settings heard w' := by
  cases p with
  | exec => exact Safe.rely (c := vouching settings heard) h hl
  | sweep | adrift => exact Safe.rely (c := vouching settings heard) h hl
  | request => exact h

theorem Proc.Vouching.next {p p' : Proc} {x : o.Ans} {e : Env} (h : p.Vouching settings heard w) (hi : Checked heard w)
    (hheard : ∀ v ∈ said o e, heard v) (hn : p.Next o x p') (hs : sem settings o e w = some (x, w')) :
    Vouches heard w o ∧ p'.Vouching settings heard w' := by
  cases hn with
  | exec | sweep | adrift =>
    obtain ⟨-, hg, hk⟩ := Safe.answer (c := vouching settings heard) h hi hheard hs
    exact ⟨hg, hk⟩
  | request =>
    exact ⟨vouches_of_wordless (wordless_of_api (Uses.op_iff.1 h).1), (Uses.op_iff.1 h).2 _⟩

theorem Store.outside_lasts (h : w.outside settings a = some w') : Lasts w w' := by
  obtain ⟨hs, -⟩ := Store.outside_eq h
  refine ⟨fun _ r hr => ⟨r, hs ▸ hr, rfl⟩, fun n c hc => ?_, fun n b hb => ?_⟩
  · cases a <;> simp only [Store.outside, Option.some.injEq, reduceCtorEq] at h <;> subst h
    case settle call accepted =>
      rcases w.calls.get_updateWhere_cases call (fun c => c.status == .pending)
        (fun c => { c with status := if accepted then .accepted else .dropped }) n with he | ⟨-, i, hi, -, he⟩
      · exact ⟨c, he.trans hc, rfl, rfl⟩
      · obtain rfl := Option.some.inj (hc.symm.trans hi)
        exact ⟨_, he, rfl, rfl⟩
    all_goals exact ⟨c, hc, rfl, rfl⟩
  · cases a <;> simp only [Store.outside, Option.some.injEq, reduceCtorEq] at h <;> subst h <;> exact hb

theorem Moved.lasts (h : Moved settings world a t) : Lasts world.store t.store := by
  rcases h.store with ⟨_, _, _, _, _, _, -, -, hs, -⟩ | hout | ⟨jobs, he⟩
  · exact (did_of_sem hs).lasts
  · exact Store.outside_lasts hout
  · rw [he]
    exact ⟨fun _ r hr => ⟨r, hr, rfl⟩, fun _ c hc => ⟨c, hc, rfl, rfl⟩, fun _ _ hb => hb⟩

theorem Checked.of_sends (h : Checked heard w) (hl : Lasts w w') (hs : w'.sends = w.sends) : Checked heard w' := by
  intro sid r hr
  rw [hs] at hr
  exact (h sid r hr).congr hl rfl rfl rfl rfl rfl

theorem Attributed.moved (h : Attributed settings heard world) (hheard : ∀ v ∈ noteWord world a [], heard v)
    (hm : Moved settings world a t) : Attributed settings heard t := by
  constructor
  · have hl := hm.lasts
    cases hm with
    | outside _ store hout => exact h.store.of_sends hl (Store.outside_eq hout).1
    | @ran pid e p p' o x store hp hn hs =>
      have hword : ∀ v ∈ said o e, heard v := by
        intro v hv
        refine hheard v ?_
        simp only [noteWord, nextOp_of_next hp hn, Option.bind_some, List.append_nil, Option.mem_toList]
        exact hv
      exact h.store.did ((h.procs pid p hp).next h.store hword hn hs).1 (did_of_sem hs)
    | called | claimed | swept | raised | lost | aborted | executed | recovered | answered | crashed =>
      exact h.store.of_sends hl rfl
  · intro pid p hp
    rcases hm.proc_cases hp with ⟨e, q, o, x, rfl, hq, hn, hs⟩ | hp | hbegins
    · refine ((h.procs pid q hq).next h.store (fun v hv => hheard v ?_) hn hs).2
      simp only [noteWord, nextOp_of_next hq hn, Option.bind_some, List.append_nil, Option.mem_toList]
      exact hv
    · exact (h.procs pid p hp).lasts hm.lasts
    · cases hbegins with
      | raised => exact Safe.done
      | lost hsweep => exact (h.procs pid _ hsweep).lasts hm.lasts
      | called r => exact api_request r
      | claimed worker limit locked job => exact vouching_handler job _
      | swept limit locked stale =>
        exact sweepJobs_safe (fun _ u => vouching_of_wordless u (Uses.single rfl)) stale _
          fun job _ _ u => vouching_reconcileSend job.refId "" u

theorem noteWord_append (w : World) (a : Action) (heard : List Word) : noteWord w a heard = noteWord w a [] ++ heard := by
  cases a with
  | step pid e => simp only [noteWord, List.append_nil]
  | _ => rfl

theorem reach_attributed {words : List Word} (h : (hearing settings).Reach (fun _ _ => True) (world, words)) :
    Attributed settings (· ∈ words) world := by
  have hall : ∀ heard : Word → Prop, (∀ v ∈ words, heard v) → Attributed settings heard world := by
    refine h.inv (I := fun p => ∀ heard : Word → Prop, (∀ v ∈ p.2, heard v) → Attributed settings heard p.1) ?_ ?_
    · exact fun heard _ => ⟨fun _ _ hr => (nomatch hr), fun _ _ hp => (nomatch hp)⟩
    · rintro ⟨u, before⟩ a ⟨v, after⟩ - hu - hstep heard hheard
      obtain ⟨hstep, hnote⟩ := Machine.withHistory_step hstep
      simp only at hstep hnote hheard hu
      rw [hnote, noteWord_append] at hheard
      exact (hu heard fun x hx => hheard x (List.mem_append_right _ hx)).moved
        (fun x hx => hheard x (List.mem_append_left _ hx)) (moved_of_step hstep)
  exact hall _ fun _ hv => hv

/-- **Nothing is delivered but on somebody's word**: in every reachable state a delivered send names a message and a time,
and the message is one a receipt for a call of that send named, one a probe under the send's fingerprint found, or one its
owner attested in the audit. -/
theorem delivered_vouched {words : List Word} (h : (hearing settings).Reach (fun _ _ => True) (world, words))
    (hr : world.store.sends.get sid = some r) (hs : r.state = .delivered) :
    ∃ m, r.providerMessageId = some m ∧ r.deliveredAt.isSome = true ∧ Vouched (· ∈ words) world.store sid r m :=
  ((reach_attributed h).store sid r hr).delivered hs

/-- The sample send, delivered on its receipt. -/
theorem delivered_vouched_sample : ∃ world r, (hearing {}).exec ({}, []) (sampleRun ++ sampleDelivery 2 0) =
      some (world, [.receipt 0 "C1:1.0"]) ∧ world.store.sends.get 0 = some r ∧
    ∃ m, r.providerMessageId = some m ∧ r.deliveredAt.isSome = true ∧
      Vouched (· ∈ [Word.receipt 0 "C1:1.0"]) world.store 0 r m := by
  have hrun : ((hearing {}).exec (hearing {}).init (sampleRun ++ sampleDelivery 2 0)).any (fun p =>
      p.2 == [.receipt 0 "C1:1.0"] && (p.1.store.sends.get 0).any fun r => r.state == .delivered) = true := by
    decide +kernel
  obtain ⟨⟨world, words⟩, hexec, hreach, hp⟩ := Machine.reach_of_exec hrun
  rw [Bool.and_eq_true, beq_iff_eq] at hp
  obtain ⟨rfl, hp⟩ := hp
  obtain ⟨r, hr, hs⟩ := (Option.any_eq_true _ _).1 hp
  exact ⟨world, r, hexec, hr, delivered_vouched hreach hr (beq_iff_eq.1 hs)⟩

/-- **The checks on the `sends` table hold of every row**: the database refuses no statement of the gate or the worker for
them. -/
theorem sends_checked (h : (system settings).Reach (fun _ _ => True) world) (hr : world.store.sends.get sid = some r) :
    (r.state = .delivered → r.providerMessageId.isSome = true ∧ r.deliveredAt.isSome = true) ∧
      (r.state = .uncertain → r.dispatchedAt.isSome = true) := by
  have hw : Attributed settings (fun _ => True) world :=
    Machine.Reach.inv ⟨fun _ _ hr => (nomatch hr), fun _ _ hp => (nomatch hp)⟩
      (fun _ _ _ _ hi _ hs => hi.moved (fun _ _ => trivial) (moved_of_step hs)) h
  obtain ⟨hdelivered, huncertain⟩ := hw.store sid r hr
  refine ⟨fun hs => ?_, huncertain⟩
  obtain ⟨m, hm, hat, -⟩ := hdelivered hs
  exact ⟨by rw [hm]; rfl, hat⟩

theorem sends_checked_sample : ∃ world r, (system {}).exec {} (sampleRun ++ sampleDelivery 2 0) = some world ∧
    world.store.sends.get 0 = some r ∧
    (r.state = .delivered → r.providerMessageId.isSome = true ∧ r.deliveredAt.isSome = true) ∧
      (r.state = .uncertain → r.dispatchedAt.isSome = true) := by
  have hrun : ((system {}).exec (system {}).init (sampleRun ++ sampleDelivery 2 0)).any (fun w =>
      (w.store.sends.get 0).isSome) = true := by decide +kernel
  obtain ⟨world, hexec, hreach, hp⟩ := Machine.reach_of_exec hrun
  obtain ⟨r, hr⟩ := Option.isSome_iff_exists.1 hp
  exact ⟨world, r, hexec, hr, sends_checked hreach hr⟩

end Send
end SafeSend
