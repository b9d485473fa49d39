import SafeSend.Send.Evidence
/-!
# The draft a send's row names

A row's draft id is written by the worker, from what `prepare` answered and from what a receipt names.  Where a draft
prepared for a fingerprint was made for it, and what is handed to Gmail is the draft its row names, a Gmail row names a
draft made under its own key and goes on naming it, and a probe asks about that draft.  Which draft was made for which
fingerprint is a parameter.
-/
namespace SafeSend
namespace Send
namespace Posting

open Lib
open Lib.Prog (Uses Safe Contract)
open Queue (ClaimedJob Recovery)

/-- A Gmail row names a draft made under its key. -/
def RowsMade (made : String → String → Prop) (w : Store) : Prop :=
  ∀ sid r, w.sends.get sid = some r → r.provider = .gmail → ∀ id, r.providerDraftId = some id → made id r.idempotencyKey

/-- The row is the send's still, and where it is a Gmail one it names the draft the send did. -/
structure Follows (send r : SendRow) : Prop where
  claim : r.claim = send.claim
  draft : send.provider = .gmail → ∀ id, send.providerDraftId = some id → r.providerDraftId = some id

/-- Sends are followed, and calls keep what they were handed. -/
structure Stands (w w' : Store) : Prop where
  sends : ∀ sid r, w.sends.get sid = some r → ∃ r', w'.sends.get sid = some r' ∧ Follows r r'
  calls : ∀ n c, w.calls.get n = some c → ∃ c', w'.calls.get n = some c' ∧ c'.provider = c.provider ∧ c'.request = c.request

/-- What an operation owes: the draft a dispatch names is made under the row's key, a receipt names the row's own, and a
message is handed over, and asked after, for a row of the provider's, whose draft is the one asked about. -/
def Owed (made : String → String → Prop) (w : Store) : Op → Prop
  | .write sid (.dispatch draftId) => ∀ r, w.sends.get sid = some r → r.provider = .gmail →
    ∀ id, draftId = some id → made id r.idempotencyKey
  | .write sid (.delivered receipt _) => ∀ r, w.sends.get sid = some r → r.provider = .gmail →
    receipt.providerDraftId = none ∨ receipt.providerDraftId = r.providerDraftId
  | .sendCall provider request =>
    ∃ sid r, w.sends.get sid = some r ∧ r.provider = provider ∧ r.idempotencyKey = request.fingerprint
  | .probe provider request =>
    ∃ sid r, w.sends.get sid = some r ∧ r.provider = provider ∧ r.idempotencyKey = request.fingerprint ∧
      (provider = .gmail → ∀ id, request.providerDraftId = some id → r.providerDraftId = some id)
  | _ => True

/-- What is taken for granted: a draft prepared is the request's own or made for its fingerprint, what is handed to Gmail
is the draft its row names, and a receipt names no other draft than was handed over. -/
def Granted (made : String → String → Prop) (w : Store) : Op → Env → Prop
  | .prepare .gmail request, .prepared (.ok prepared) =>
    ∀ id, prepared.providerDraftId = some id → request.providerDraftId = some id ∨ made id request.fingerprint
  | .sendCall .gmail request, _ =>
    ∀ sid r, w.sends.get sid = some r → r.idempotencyKey = request.fingerprint →
      r.providerDraftId = request.providerDraftId
  | .sendAnswer call, .receipt (.ok receipt) => ∀ c, w.calls.get call = some c → c.provider = .gmail →
    receipt.providerDraftId = none ∨ receipt.providerDraftId = c.request.providerDraftId
  | _, _ => True

variable {made : String → String → Prop} {settings : Settings} {o : Op} {w w' : Store} {α : Type}

theorem Follows.refl (r : SendRow) : Follows r r := ⟨rfl, fun _ _ h => h⟩

theorem Follows.trans {r r' r'' : SendRow} (h : Follows r r') (h' : Follows r' r'') : Follows r r'' where
  claim := h'.claim.trans h.claim
  draft hp id hid := h'.draft ((provider_of_claim h.claim).trans hp) id (h.draft hp id hid)

theorem Stands.refl (w : Store) : Stands w w := ⟨fun _ r h => ⟨r, h, .refl r⟩, fun _ c h => ⟨c, h, rfl, rfl⟩⟩

theorem Stands.trans {w w' w'' : Store} (h : Stands w w') (h' : Stands w' w'') : Stands w w'' where
  sends sid r hr := by
    obtain ⟨r', hr', hf⟩ := h.sends sid r hr
    obtain ⟨r'', hr'', hf'⟩ := h'.sends sid r' hr'
    exact ⟨r'', hr'', hf.trans hf'⟩
  calls n c hc := by
    obtain ⟨c', hc', hp, hq⟩ := h.calls n c hc
    obtain ⟨c'', hc'', hp', hq'⟩ := h'.calls n c' hc'
    exact ⟨c'', hc'', hp'.trans hp, hq'.trans hq⟩

/-! ## Operations -/

/-- A write that pays what it owes leaves a Gmail row's draft, where it names one. -/
theorem follows_wrote {sid now : Nat} {u : Write} {r : SendRow} (ho : Owed made w (.write sid u))
    (hr : w.sends.get sid = some r) : Follows r (u.row now r) := by
  refine ⟨claim_row u now r, fun hp id hid => ?_⟩
  cases u with
  | dispatch draftId => simp only [Write.row, dispatchRow, hid, Option.some_or]
  | delivered receipt evidence =>
    have hreceipt := ho r hr hp
    simp only [Write.row, deliveredRow]
    rcases hreceipt with h | h
    · rw [h, Option.none_or, hid]
    · rw [h, hid, Option.some_or]
  | uncertain | error | terminal => exact hid

theorem follows_of_move {sid n : Nat} {r : SendRow} {q : Option SendRow} (ho : Owed made w o)
    (hm : SendMove w sid o q n) (hr : w.sends.get sid = some r) : ∃ r', q = some r' ∧ Follows r r' := by
  cases hm with
  | same => exact ⟨r, hr, .refl r⟩
  | claimed args hn hfree => rw [hn, w.sends.get_next] at hr; cases hr
  | wrote u hr' hg =>
    obtain rfl := Option.some.inj (hr.symm.trans hr')
    exact ⟨_, rfl, follows_wrote ho hr⟩
  | bumped hr' | retried _ _ hr' | attested _ _ _ hr' _ | resent _ _ _ hr' _ =>
    obtain rfl := Option.some.inj (hr.symm.trans hr')
    exact ⟨_, rfl, rfl, fun _ _ h => h⟩

theorem stands_of_did (ho : Owed made w o) (hd : Did settings w o w') : Stands w w' where
  sends sid _ hr := follows_of_move ho (hd.send sid) hr
  calls n c hc := by
    rcases hd.calls with he | ⟨provider, request, -, he⟩
    · exact ⟨c, he ▸ hc, rfl, rfl⟩
    · exact ⟨c, he ▸ Table.get_insert_of_get _ hc, rfl, rfl⟩

/-- The draft a row names after a write is one it named, or the one the write is to name. -/
theorem made_wrote {sid now : Nat} {u : Write} {r : SendRow} (h : RowsMade made w) (ho : Owed made w (.write sid u))
    (hr : w.sends.get sid = some r) (hp : r.provider = .gmail) {id : String}
    (hid : (u.row now r).providerDraftId = some id) : made id r.idempotencyKey := by
  cases u with
  | dispatch draftId =>
    simp only [Write.row, dispatchRow, Option.or_eq_some_iff] at hid
    rcases hid with hid | ⟨-, hid⟩
    · exact h sid r hr hp id hid
    · exact ho r hr hp id hid
  | delivered receipt evidence =>
    have hreceipt := ho r hr hp
    simp only [Write.row, deliveredRow, Option.or_eq_some_iff] at hid
    rcases hid with hid | ⟨-, hid⟩
    · rcases hreceipt with he | he
      · rw [he] at hid
        cases hid
      · exact h sid r hr hp id (he ▸ hid)
    · exact h sid r hr hp id hid
  | uncertain | error | terminal => exact h sid r hr hp id hid

theorem RowsMade.did (h : RowsMade made w) (ho : Owed made w o) (hd : Did settings w o w') : RowsMade made w' := by
  intro sid r' hr' hp id hid
  have hm := hd.send sid
  rw [hr'] at hm
  generalize hq : some r' = q at hm
  generalize w'.forced sid = n at hm
  cases hm with
  | same => exact h sid r' hq.symm hp id hid
  | claimed args =>
    obtain rfl := Option.some.inj hq
    cases hid
  | wrote u hr hg =>
    obtain rfl := Option.some.inj hq
    have hclaim := claim_row u w.now (by assumption)
    rw [key_of_claim hclaim]
    exact made_wrote h ho hr ((provider_of_claim hclaim).symm.trans hp) hid
  | bumped hr | retried _ _ hr | attested _ _ _ hr _ | resent _ _ _ hr _ =>
    obtain rfl := Option.some.inj hq
    exact h sid _ hr hp id hid

def posting (settings : Settings) (made : String → String → Prop) : Contract Op Op.Ans Env Store where
  sem := sem settings
  ok o e w := Granted made w o e
  inv := RowsMade made
  rely := Stands
  guar o w _ := Owed made w o
  refl := Stands.refl
  trans := Stands.trans

/-- One operation that pays what it owes, and then the rest from what stood. -/
theorem Safe.owing {P : Store → Prop} {post : α → Store → Prop} (hP : Prog.Stable (posting settings made) P)
    {f : o.Ans → SendProg α} (h : P w) (ho : ∀ t, P t → Owed made t o)
    (hk : ∀ t e u x, RowsMade made t → P u → Granted made t o e → sem settings o e t = some (x, u) →
      Safe (posting settings made) post (f x) u) :
    Safe (posting settings made) post (perform o >>= f) w :=
  Safe.perform hP h fun t e x u ht hi hok hs =>
    have hd := did_of_sem hs
    have hu := hi.did (ho t ht) hd
    ⟨hu, ho t ht, hk t e u x hi (hP t u ht (stands_of_did (ho t ht) hd) hu) hok hs⟩

/-- An operation that owes nothing. -/
def idle : Op → Bool
  | .write _ (.dispatch _) | .write _ (.delivered _ _) | .sendCall _ _ | .probe _ _ => false
  | _ => true

theorem owed_of_idle (h : idle o = true) : Owed made w o := by
  cases o <;> try trivial
  case write id u => cases u <;> trivial

theorem idle_of_api (h : o.api = true) : idle o = true := by
  cases o <;> first | rfl | cases h

theorem posting_of_idle : ∀ {p : SendProg α} (w : Store), Uses (fun o => idle o = true) p →
    Safe (posting settings made) (fun _ _ => True) p w
  | .ret _, _, _ => Safe.done
  | .op _ _, _, h => Safe.op (Prog.Stable.true _) trivial fun _ _ x u _ hi _ hs =>
    have ho := owed_of_idle (Uses.op_iff.1 h).1
    ⟨hi.did ho (did_of_sem hs), ho, posting_of_idle u ((Uses.op_iff.1 h).2 x)⟩

/-! ## The worker's programs -/

/-- What a program knows of the send it read. -/
structure Standing (made : String → String → Prop) (sid : Nat) (send : SendRow) (w : Store) : Prop where
  row : ∃ r, w.sends.get sid = some r ∧ Follows send r
  made : send.provider = .gmail → ∀ id, send.providerDraftId = some id → made id send.idempotencyKey

theorem stable_standing (sid : Nat) (send : SendRow) : Prog.Stable (posting settings made) (Standing made sid send) := by
  intro w t h hs _
  obtain ⟨r, hr, hf⟩ := h.row
  obtain ⟨r', hr', hf'⟩ := hs.sends sid r hr
  exact ⟨⟨r', hr', hf.trans hf'⟩, h.made⟩

theorem Standing.of_load (h : RowsMade made w) {sid : Nat} {send : SendRow} (hs : w.sends.get sid = some send) :
    Standing made sid send w := ⟨⟨send, hs, .refl send⟩, h sid send hs⟩

/-- The row of the send that was read, whichever it is by now, has the send's provider and key. -/
theorem Standing.same {sid : Nat} {send r : SendRow} (h : Standing made sid send w) (hr : w.sends.get sid = some r) :
    Follows send r ∧ r.provider = send.provider ∧ r.idempotencyKey = send.idempotencyKey := by
  obtain ⟨r', hr', hf⟩ := h.row
  obtain rfl := Option.some.inj (hr.symm.trans hr')
  exact ⟨hf, provider_of_claim hf.claim, key_of_claim hf.claim⟩

/-- The draft the send named is its row's. -/
theorem Standing.delivers {sid : Nat} {send : SendRow} (h : Standing made sid send w) (messageId evidence : String) :
    Owed made w (.write sid (.delivered ⟨messageId, send.providerDraftId⟩ evidence)) := by
  intro r hr hp
  obtain ⟨hf, hprov, -⟩ := h.same hr
  cases hid : send.providerDraftId with
  | none => exact .inl rfl
  | some id => exact .inr (hf.draft (hprov.symm.trans hp) id hid).symm

theorem Standing.asks {sid : Nat} {send : SendRow} (h : Standing made sid send w) (draft : DraftRow) :
    Owed made w (.probe send.provider (requestFor send draft)) := by
  obtain ⟨r, hr, hf⟩ := h.row
  exact ⟨sid, r, hr, provider_of_claim hf.claim, key_of_claim hf.claim, hf.draft⟩

theorem idle_of_notes (h : o.notes = true) : idle o = true := by
  cases o <;> try cases h
  case write id u => cases u <;> first | rfl | cases h

theorem posting_settleProbe {sid : Nat} (note : String) {send : SendRow} (attempts : Nat) (probe : ProbeResult)
    (h : Standing made sid send w) :
    Safe (posting settings made) (fun _ _ => True) (settleProbe sid note send attempts probe) w := by
  have hknown : Prog.Stable (posting settings made) (Standing made sid send) := stable_standing sid send
  unfold settleProbe
  split
  · split
    · exact posting_of_idle w (Uses.perform rfl fun _ => Uses.done)
    · rename_i messageId _
      exact Safe.owing hknown h (fun t ht => ht.delivers messageId probe.evidence) fun _ _ _ _ _ _ _ _ => Safe.done
  · exact posting_of_idle w (Uses.perform rfl fun _ => Uses.done)
  · split <;> exact posting_of_idle w (Uses.perform rfl fun _ => Uses.done)

theorem posting_reconcileDispatched {sid : Nat} (note : String) {send : SendRow} (h : Standing made sid send w) :
    Safe (posting settings made) (fun _ _ => True) (reconcileDispatched sid note send) w := by
  have hknown : Prog.Stable (posting settings made) (Standing made sid send) := stable_standing sid send
  unfold reconcileDispatched
  split
  · exact posting_of_idle w (Uses.perform rfl fun _ => Uses.done)
  · refine Safe.owing hknown h (fun _ _ => trivial) fun _ _ t draft _ ht _ _ => ?_
    cases draft with
    | none => exact posting_of_idle t (Uses.perform rfl fun _ => Uses.done)
    | some draft =>
      refine Safe.owing hknown ht (fun _ _ => trivial) fun _ _ t attempts _ ht _ _ => ?_
      refine Safe.owing hknown ht (fun t ht => ht.asks draft) fun _ _ t r _ ht _ _ => ?_
      cases r with
      | error exc => exact posting_of_idle t ((notes_probeFailed sid attempts exc).mono fun _ => idle_of_notes)
      | ok probe => exact posting_settleProbe note attempts probe ht

theorem posting_reconcileSend (sid : Nat) (note : String) (w : Store) :
    Safe (posting settings made) (fun _ _ => True) (reconcileSend sid note) w := by
  unfold reconcileSend
  refine Safe.owing (Prog.Stable.true _) trivial (fun _ _ => trivial) fun t e u x hi _ _ hs => ?_
  obtain ⟨rfl, rfl⟩ := sem_loadSend hs
  cases hx : u.sends.get sid with
  | none => exact Safe.done
  | some send =>
    show Safe _ _ (if _ then _ else _) u
    split
    · exact Safe.done
    · split
      · exact Safe.done
      · exact posting_reconcileDispatched note (Standing.of_load hi hx)

theorem posting_finalizeFailure (sid : Nat) (exc : Exn) (job : ClaimedJob)
    (artifact : Option (ProviderKind × SendRequest)) (w : Store) :
    Safe (posting settings made) (fun _ _ => True) (finalizeFailure sid exc job artifact) w := by
  unfold finalizeFailure
  simp only
  split
  · split
    · exact posting_of_idle w (Uses.perform rfl fun _ => Uses.done)
    · refine Safe.bind (Safe.mono (fun verdict t _ _ => ?_) (posting_reconcileSend sid _ w))
      cases verdict with
      | notSent | retryLater => exact posting_of_idle t (Uses.perform rfl fun _ => Uses.done)
      | _ => exact Safe.done
  · refine posting_of_idle w (Uses.perform rfl fun _ => ?_)
    unfold tidy
    split
    · split
      · exact Uses.perform rfl fun _ => Uses.done
      · exact Uses.done
    · exact Uses.done

/-- What a program knows once it has handed the message over: the call is the one it made, and the row names the draft
it handed over. -/
structure HandedOver (made : String → String → Prop) (sid : Nat) (send : SendRow) (request : SendRequest) (call : Nat)
    (w : Store) : Prop where
  standing : Standing made sid send w
  call : ∃ c, w.calls.get call = some c ∧ c.provider = send.provider ∧ c.request = request
  names : send.provider = .gmail → ∀ id, request.providerDraftId = some id →
    ∃ r, w.sends.get sid = some r ∧ r.providerDraftId = some id

theorem stable_handedOver (sid : Nat) (send : SendRow) (request : SendRequest) (call : Nat) :
    Prog.Stable (posting settings made) (HandedOver made sid send request call) := by
  intro w t h hs hi
  have hstanding : Prog.Stable (posting settings made) (Standing made sid send) := stable_standing sid send
  refine ⟨hstanding w t h.standing hs hi, ?_, fun hp id hid => ?_⟩
  · obtain ⟨c, hc, hprov, hreq⟩ := h.call
    obtain ⟨c', hc', hprov', hreq'⟩ := hs.calls call c hc
    exact ⟨c', hc', hprov'.trans hprov, hreq'.trans hreq⟩
  · obtain ⟨r, hr, hdraft⟩ := h.names hp id hid
    obtain ⟨r', hr', hf⟩ := hs.sends sid r hr
    exact ⟨r', hr', hf.draft ((h.standing.same hr).2.1.trans hp) id hdraft⟩

/-- Where the row names what is handed over, the program knows it when it has. -/
theorem Standing.handedOver {sid : Nat} {send : SendRow} {request : SendRequest} (h : Standing made sid send w)
    (hkey : request.fingerprint = send.idempotencyKey) (hok : ∀ e, Granted made w (.sendCall send.provider request) e) :
    HandedOver made sid send request w.calls.next
      { w with calls := w.calls.insert { provider := send.provider, request := request } } := by
  refine ⟨⟨h.row, h.made⟩, ⟨_, w.calls.get_insert_self _, rfl, rfl⟩, fun hp id hid => ?_⟩
  obtain ⟨r, hr, hf⟩ := h.row
  rw [hp] at hok
  exact ⟨r, hr, (hok .none sid r hr ((key_of_claim hf.claim).trans hkey.symm)).trans hid⟩

/-- The receipt of what was handed over names the row's draft. -/
theorem HandedOver.delivers {sid : Nat} {send : SendRow} {request : SendRequest} {call : Nat} {receipt : SendReceipt}
    (h : HandedOver made sid send request call w)
    (hreceipt : send.provider = .gmail →
      receipt.providerDraftId = none ∨ receipt.providerDraftId = request.providerDraftId) (evidence : String) :
    Owed made w (.write sid (.delivered receipt evidence)) := by
  intro r hr hp
  have hgmail : send.provider = .gmail := (h.standing.same hr).2.1.symm.trans hp
  rcases hreceipt hgmail with hnone | hsame
  · exact .inl hnone
  · cases hid : request.providerDraftId with
    | none => exact .inl (hsame.trans hid)
    | some id =>
      obtain ⟨r', hr', hdraft⟩ := h.names hgmail id hid
      obtain rfl := Option.some.inj (hr.symm.trans hr')
      exact .inr (by rw [hsame, hid, hdraft])

theorem posting_handOver (job : ClaimedJob) {send : SendRow} {request : SendRequest}
    (h : Standing made job.refId send w) (hkey : request.fingerprint = send.idempotencyKey) :
    Safe (posting settings made) (fun _ _ => True) (handOver job send request) w := by
  have hknown : Prog.Stable (posting settings made) (Standing made job.refId send) := stable_standing job.refId send
  have howes (t : Store) (ht : Standing made job.refId send t) : Owed made t (.sendCall send.provider request) := by
    obtain ⟨r, hr, hf⟩ := ht.row
    exact ⟨job.refId, r, hr, provider_of_claim hf.claim, (key_of_claim hf.claim).trans hkey.symm⟩
  simp only [handOver, providerSend]
  refine Safe.perform hknown h fun t e call u ht hi hok hs => ?_
  have hd := did_of_sem hs
  obtain ⟨rfl, rfl⟩ := sem_sendCall hs
  refine ⟨hi.did (howes t ht) hd, howes t ht, ?_⟩
  have hok' (e : Env) : Granted made t (.sendCall send.provider request) e := by
    cases hp : send.provider with
    | gmail =>
      rw [hp] at hok
      exact hok
    | slack => trivial
  have hover := ht.handedOver hkey hok'
  have hstable : Prog.Stable (posting settings made) (HandedOver made job.refId send request t.calls.next) :=
    stable_handedOver _ _ _ _
  refine Safe.perform hstable hover fun t e answer u ht hi hok hs => ?_
  obtain ⟨rfl, rfl⟩ := sem_sendAnswer hs
  refine ⟨hi, trivial, ?_⟩
  cases answer with
  | error exc => exact Safe.bind (Safe.mono (fun _ _ _ _ => Safe.done) (posting_finalizeFailure _ _ _ _ _))
  | ok receipt =>
    obtain ⟨c, hc, hprov, hreq⟩ := ht.call
    have hreceipt (hp : send.provider = .gmail) :
        receipt.providerDraftId = none ∨ receipt.providerDraftId = request.providerDraftId := by
      rw [← hreq]
      exact hok c hc (hprov.trans hp)
    refine Safe.owing hstable ht (fun t ht => ht.delivers hreceipt "") fun _ _ u _ _ _ _ _ => ?_
    exact posting_of_idle u (Uses.perform rfl fun _ => Uses.done)

theorem posting_dispatchSend (job : ClaimedJob) {send : SendRow} (h : Standing made job.refId send w) :
    Safe (posting settings made) (fun _ _ => True) (dispatchSend job send) w := by
  have hknown : Prog.Stable (posting settings made) (Standing made job.refId send) := stable_standing job.refId send
  unfold dispatchSend
  refine Safe.owing hknown h (fun _ _ => trivial) fun _ _ t draft _ ht _ _ => ?_
  cases draft with
  | none => exact Safe.done
  | some draft =>
    refine Safe.owing hknown ht (fun _ _ => trivial) fun _ _ t prepared _ ht hok hs => ?_
    obtain ⟨-, rfl⟩ := sem_prepare hs
    cases prepared with
    | error exc => exact Safe.bind (Safe.mono (fun _ _ _ _ => Safe.done) (posting_finalizeFailure _ _ _ _ _))
    | ok prepared =>
      have hmade (hp : send.provider = .gmail) (id : String) (hid : prepared.providerDraftId = some id) :
          made id send.idempotencyKey := by
        rw [hp] at hok
        rcases hok id hid with hown | hfresh
        · exact ht.made hp id hown
        · exact hfresh
      have howes (t : Store) (ht : Standing made job.refId send t) :
          Owed made t (.write job.refId (.dispatch prepared.providerDraftId)) := by
        intro r hr hp id hid
        obtain ⟨-, hprov, hkey⟩ := ht.same hr
        rw [hkey]
        exact hmade (hprov.symm.trans hp) id hid
      refine Safe.owing hknown ht howes fun _ _ t _ _ ht _ _ => posting_handOver job ht ?_
      rw [fingerprint_withPrepared]
      rfl

theorem posting_runSend (job : ClaimedJob) (w : Store) :
    Safe (posting settings made) (fun _ _ => True) (runSend job) w := by
  unfold runSend
  refine Safe.owing (Prog.Stable.true _) trivial (fun _ _ => trivial) fun t e u x hi _ _ hs => ?_
  obtain ⟨rfl, rfl⟩ := sem_loadSend hs
  cases hx : u.sends.get job.refId with
  | none => exact Safe.done
  | some send =>
    have hsend : Standing made job.refId send u := Standing.of_load hi hx
    show Safe _ _ (if _ then _ else _) u
    split
    · exact Safe.done
    · split
      · have hrec := Safe.standing (c := posting settings made) (stable_standing job.refId send)
          (fun _ _ _ _ _ _ ho hs => stands_of_did ho (did_of_sem hs)) hsend (posting_reconcileSend job.refId "" u)
        refine Safe.bind (Safe.mono (fun verdict t _ ht => ?_) hrec)
        cases verdict with
        | notSent => exact posting_dispatchSend job ht.2
        | _ => exact Safe.done
      · exact posting_dispatchSend job hsend

theorem posting_handler (job : ClaimedJob) (w : Store) :
    Safe (posting settings made) (fun _ _ => True) (handler job) w := by
  unfold handler
  split
  · exact posting_runSend job w
  · exact posting_of_idle w (Uses.single rfl)

/-! ## Along a run -/

/-- The rest of a process's program keeps its contract. -/
def Going (settings : Settings) (made : String → String → Prop) (w : Store) : Proc → Prop
  | .exec _ _ _ body => Safe (posting settings made) (fun _ _ => True) body w
  | .sweep _ _ body | .adrift body => Safe (posting settings made) (fun _ _ => True) body w
  | .request body => Safe (posting settings made) (fun _ _ => True) body w

theorem Going.stands {p : Proc} (h : Going settings made w p) (hs : Stands w w') : Going settings made w' p := by
  cases p <;> exact Safe.rely (c := posting settings made) h hs

theorem Going.next {p p' : Proc} {x : o.Ans} {e : Env} (h : Going settings made w p) (hi : RowsMade made w)
    (hn : p.Next o x p') (hok : Granted made w o e) (hs : sem settings o e w = some (x, w')) :
    Owed made w o ∧ Going settings made w' p' := by
  cases hn <;>
  · obtain ⟨-, howed, hk⟩ := Safe.answer (c := posting settings made) h hi hok hs
    exact ⟨howed, hk⟩

structure Tracked (settings : Settings) (made : String → String → Prop) (w : World) : Prop where
  rows : RowsMade made w.store
  procs : ∀ pid p, w.procs.get pid = some p → Going settings made w.store p

/-- What is granted of the step's operation. -/
def GrantedStep (made : String → String → Prop) (w : World) (a : Action) : Prop :=
  ∀ pid e o, a = .step pid e → w.nextOp pid = some o → Granted made w.store o e

variable {world t : World} {a : Action}

theorem stands_of_outside (h : w.outside settings a = some w') : Stands w w' := by
  have same {t : Store} (hs : t.sends = w.sends) (hc : t.calls = w.calls) : Stands w t :=
    ⟨fun _ r hr => ⟨r, by rw [hs]; exact hr, .refl r⟩, fun _ c hc' => ⟨c, by rw [hc]; exact hc', rfl, rfl⟩⟩
  cases a <;> simp only [Store.outside, Option.some.injEq, reduceCtorEq] at h <;> subst h
  case settle call accepted =>
    refine ⟨fun _ r hr => ⟨r, hr, .refl r⟩, fun n c hc => ?_⟩
    rcases w.calls.get_updateWhere_cases call (fun c => c.status == .pending)
      (fun c => { c with status := if accepted then .accepted else .dropped }) n with hs | ⟨rfl, c', hc', -, hs⟩
    · exact ⟨c, hs.trans hc, rfl, rfl⟩
    · obtain rfl := Option.some.inj (hc.symm.trans hc')
      exact ⟨_, hs, rfl, rfl⟩
  all_goals exact same rfl rfl

/-- **What an operation of a live process owes, it pays**, where what it is answered is granted. -/
theorem Tracked.owes (h : Tracked settings made world) {pid : Nat} {p p' : Proc} {e : Env} {x : o.Ans}
    (hp : world.procs.get pid = some p) (hn : p.Next o x p') (hok : Granted made world.store o e)
    (hs : sem settings o e world.store = some (x, w')) : Owed made world.store o :=
  ((h.procs pid p hp).next h.rows hn hok hs).1

theorem Tracked.stands (h : Tracked settings made world) (hok : GrantedStep made world a)
    (hm : Moved settings world a t) : Stands world.store t.store := by
  cases hm with
  | outside a store hout => exact stands_of_outside hout
  | ran pid e hp hn hs =>
    exact stands_of_did (h.owes hp hn (hok pid e _ rfl (nextOp_of_next hp hn)) hs) (did_of_sem hs)
  | called | claimed | swept | raised | lost | aborted | executed | recovered | answered | crashed =>
    exact ⟨(Stands.refl _).1, (Stands.refl _).2⟩

/-- **A step whose answer is granted keeps every row's draft its own, and every program on what it owes.** -/
theorem Tracked.moved (h : Tracked settings made world) (hok : GrantedStep made world a)
    (hm : Moved settings world a t) : Tracked settings made t := by
  have hstands := h.stands hok hm
  constructor
  · cases hm with
    | outside a store hout =>
      intro sid r hr
      exact h.rows sid r ((Store.outside_eq hout).1 ▸ hr)
    | ran pid e hp hn hs =>
      exact h.rows.did (h.owes hp hn (hok pid e _ rfl (nextOp_of_next hp hn)) hs) (did_of_sem hs)
    | called | claimed | swept | raised | lost | aborted | executed | recovered | answered | crashed => exact h.rows
  · intro pid p hp
    rcases hm.proc_cases hp with ⟨e, q, o, x, rfl, hq, hn, hs⟩ | hp | hbegins
    · exact ((h.procs pid q hq).next h.rows hn (hok pid e o rfl (nextOp_of_next hq hn)) hs).2
    · exact (h.procs pid p hp).stands hstands
    · cases hbegins with
      | raised => exact Safe.done
      | lost hsweep => exact (h.procs pid _ hsweep).stands hstands
      | called r => exact posting_of_idle _ ((api_request r).mono fun _ => idle_of_api)
      | claimed worker limit locked job => exact posting_handler job _
      | swept limit locked stale =>
        exact sweepJobs_safe (fun _ u => posting_of_idle u (Uses.single rfl)) stale _
          fun job _ _ u => posting_reconcileSend job.refId "" u

end Posting
end Send
end SafeSend
