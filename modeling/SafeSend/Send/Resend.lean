import SafeSend.Send.Stranded
import SafeSend.Send.Providers
/-!
# A forced resend

An uncertain send resolved to be sent again, its job executed while every provider serves what it can: prepares
answer, and a message is accepted unless it is a Gmail draft that Gmail no longer has.  A draft is deleted when it is
sent, so which drafts there still are is part of the state.
-/
namespace SafeSend
namespace Send

open Lib
open Lib.Prog (Safe Contract Runs Among Live)
open Queue (ClaimedJob)

/-! ## Providers that serve -/

/-- What `drafts.send` answers for a draft that is gone. -/
def Gmail.draftGone (detail : String) : Exn := .provider {
  provider := "google"
  code := "notFound"
  detail := detail
  status := some 404 }

/-- `r` is what the provider's `prepare` answers where its API serves it, with an id that the database takes. -/
def SendProvider.Readies (request : SendRequest) (r : Except Exn PreparedSend) : SendProvider → Prop
  | gmail => ∃ id, id ≠ "" ∧ Store.storable id = true ∧ Gmail.prepare request (.ok (some id)) = r
  | slack => Slack.prepare request = r
  | fake => Fake.prepare request = r

/-- The draft is among those Gmail has. -/
def holds (mailbox : List String) (draftId : Option String) : Bool := draftId.any mailbox.contains

/-- `r` is what the provider's `send` answers where its API serves what it can, in words that the database takes. -/
def SendProvider.Serves (mailbox : List String) (request : SendRequest) (r : Except Exn SendReceipt) :
    SendProvider → Prop
  | gmail => ∃ id detail, Store.storable id = true ∧ Store.storable detail = true ∧
      Gmail.send request (if holds mailbox request.providerDraftId then .ok (some id) else .error (Gmail.draftGone detail)) = r
  | slack => ∃ ts channel, ts ≠ "" ∧ Store.storable ts = true ∧ Store.storable channel = true ∧
      Slack.send request (.ok (ts, channel)) = r
  | fake => ∃ hex, Store.storable hex = true ∧ Fake.send request (.ok hex) = r

/-- The send names a draft, and Gmail no longer has it. -/
def SendProvider.gone (provider : SendProvider) (mailbox : List String) (draftId : Option String) : Bool :=
  provider == .gmail && truthy draftId && !holds mailbox draftId

/-- The store, and the drafts of the send that Gmail has. -/
structure Site where
  store : Store
  mailbox : List String

namespace Site

def accepts : Except Exn SendReceipt → Bool
  | .ok _ => true
  | .error _ => false

def drop (mailbox : List String) (draftId : Option String) : List String :=
  mailbox.filter fun id => draftId != some id

/-- The draft of the message a call handed over. -/
def draftOf (s : Site) (call : Nat) : Option String := (s.store.calls.get call).bind fun c => c.request.providerDraftId

/-- What an answer leaves at the provider, over the store the operation leaves. -/
def served (s : Site) (store : Store) : Op → Env → Site
  | .prepare _ request, .prepared (.ok prepared) =>
    { store := store
      mailbox := if truthy request.providerDraftId then s.mailbox else prepared.providerDraftId.toList ++ s.mailbox }
  | .sendAnswer call, .receipt r =>
    { store := store.settleCall call (accepts r)
      mailbox := if accepts r then drop s.mailbox (s.draftOf call) else s.mailbox }
  | .discard _ request, .finished (.ok ()) => { store := store, mailbox := drop s.mailbox request.providerDraftId }
  | _, _ => { store := store, mailbox := s.mailbox }

def sem (settings : Settings) (o : Op) (e : Env) (s : Site) : Option (o.Ans × Site) :=
  (Send.sem settings o e s.store).map fun r => (r.1, s.served r.2 o e)

/-- Every provider serves what it can. -/
def Obliges (registry : ProviderKind → SendProvider) (s : Site) : Op → Env → Prop
  | .prepare provider request, .prepared r => (registry provider).Readies request r
  | .sendAnswer call, .receipt r =>
    ∀ c, s.store.calls.get call = some c → (registry c.provider).Serves s.mailbox c.request r
  | _, _ => True

/-- Others leave the send alone: its row, its calls from `base` on and its drafts at Gmail; no draft row is deleted. -/
structure Spares (sid : Nat) (key : String) (base : Nat) (s t : Site) : Prop where
  row : t.store.sends.get sid = s.store.sends.get sid
  drafts : ∀ n, (s.store.drafts.get n).isSome → (t.store.drafts.get n).isSome
  calls : ∀ n c, base ≤ n → s.store.calls.get n = some c → c.request.fingerprint = key → t.store.calls.get n = some c
  next : s.store.calls.next ≤ t.store.calls.next
  mailbox : t.mailbox = s.mailbox

theorem Spares.refl (sid : Nat) (key : String) (base : Nat) (s : Site) : Spares sid key base s s :=
  ⟨rfl, fun _ h => h, fun _ _ _ h _ => h, Nat.le_refl _, rfl⟩

theorem Spares.trans {sid base : Nat} {key : String} {s t u : Site} (h : Spares sid key base s t)
    (h' : Spares sid key base t u) : Spares sid key base s u where
  row := h'.row.trans h.row
  drafts n hn := h'.drafts n (h.drafts n hn)
  calls n c hb hn hk := h'.calls n c hb (h.calls n c hb hn hk) hk
  next := Nat.le_trans h.next h'.next
  mailbox := h'.mailbox.trans h.mailbox

end Site

/-- An execution of the send's job among others that leave the send alone. -/
def serving (settings : Settings) (registry : ProviderKind → SendProvider) (sid : Nat) (key : String) (base : Nat) :
    Contract Op Op.Ans Env Site where
  sem := Site.sem settings
  ok o e s := s.Obliges registry o e
  inv _ := True
  rely := Site.Spares sid key base
  guar _ _ _ := True
  refl := Site.Spares.refl sid key base
  trans h h' := h.trans h'

/-- The send is delivered, and the provider accepted it in a call from `base` on. -/
def Resent (sid : Nat) (key : String) (base : Nat) (w : Store) : Prop :=
  (∃ q, w.sends.get sid = some q ∧ q.state = .delivered) ∧
    ∃ n c, base ≤ n ∧ w.calls.get n = some c ∧ c.status = .accepted ∧ c.request.fingerprint = key

/-! ## What a provider that serves answers -/

namespace SendProvider

variable {provider : SendProvider} {mailbox : List String} {request : SendRequest}

theorem prepares_of_readies {r : Except Exn PreparedSend} (h : provider.Readies request r) : provider.Prepares request r := by
  cases provider with
  | gmail =>
    obtain ⟨id, -, -, hr⟩ := h
    exact ⟨_, hr⟩
  | slack | fake => exact h

/-- A provider that serves never fails to prepare. -/
theorem readies_ok {r : Except Exn PreparedSend} (h : provider.Readies request r) (hconn : request.connectionId.isSome) :
    ∃ prepared, r = .ok prepared := by
  cases provider with
  | gmail =>
    obtain ⟨id, hid, -, rfl⟩ := h
    have hnew : Gmail.createDraft (.ok (some id)) = .ok id := by
      simp [Gmail.createDraft, bind, Except.bind, truthy, hid, pure, Except.pure]
    unfold Gmail.prepare
    split
    · exact ⟨_, rfl⟩
    · rw [if_neg (by simpa [Option.isSome_iff_ne_none] using hconn), hnew]
      exact ⟨_, rfl⟩
  | slack | fake => exact ⟨_, h.symm⟩

/-- **Preparing loses no draft and finds none again**: the request goes on with the draft it named, or with a new one. -/
theorem gone_prepared {prepared : PreparedSend} (s : Site) (w : Store) (kind : ProviderKind)
    (h : provider.Readies request (.ok prepared)) :
    provider.gone (s.served w (.prepare kind request) (.prepared (.ok prepared))).mailbox
        (withPrepared request prepared).providerDraftId = provider.gone s.mailbox request.providerDraftId ∧
      (provider = .gmail → truthy (withPrepared request prepared).providerDraftId = true) := by
  rcases prepares_ok (prepares_of_readies h) with ⟨rfl, ht, hsame⟩ | ⟨hne, -⟩
  · have hid : (withPrepared request prepared).providerDraftId = prepared.providerDraftId := by
      unfold withPrepared
      rw [if_pos ht]
    refine ⟨?_, fun _ => by rw [hid]; exact ht⟩
    by_cases hr : truthy request.providerDraftId = true
    · simp only [Site.served, if_pos hr, hid, hsame hr]
    · have hin : holds (prepared.providerDraftId.toList ++ s.mailbox) prepared.providerDraftId = true := by
        cases hp : prepared.providerDraftId with
        | none => rw [hp] at ht; cases ht
        | some id => simp [holds]
      simp only [Site.served, if_neg hr, hid, gone, hin, Bool.not_true, Bool.and_false]
      simp [hr]
  · have hb : (provider == .gmail) = false := by simpa using hne
    exact ⟨by simp only [gone, hb, Bool.false_and], fun hg => absurd hg hne⟩

/-- **A message is accepted unless its draft is gone.** -/
theorem serves_cases {r : Except Exn SendReceipt} (h : provider.Serves mailbox request r)
    (hconn : request.connectionId.isSome) (hdraft : provider = .gmail → truthy request.providerDraftId = true) :
    provider.gone mailbox request.providerDraftId = false ∧ (∃ receipt, r = .ok receipt) ∨
      provider.gone mailbox request.providerDraftId = true ∧ ∃ detail, r = .error (Gmail.draftGone detail) := by
  cases provider with
  | gmail =>
    obtain ⟨id, detail, -, -, rfl⟩ := h
    have ht := hdraft rfl
    have hc : ¬ request.connectionId.isNone = true := by simpa [Option.isSome_iff_ne_none] using hconn
    have hsend (sent : Except Exn (Option String)) : Gmail.send request sent =
        sent.map fun id => { providerMessageId := id.getD "", providerDraftId := request.providerDraftId } := by
      unfold Gmail.send
      rw [if_neg (by simp [ht]), if_neg hc]
      cases sent <;> rfl
    rw [hsend]
    by_cases hm : holds mailbox request.providerDraftId = true
    · exact .inl ⟨by simp [gone, hm], by rw [if_pos hm]; exact ⟨_, rfl⟩⟩
    · exact .inr ⟨by simp [gone, ht, hm], detail, by rw [if_neg hm]; rfl⟩
  | slack =>
    obtain ⟨ts, channel, hts, -, -, rfl⟩ := h
    exact .inl ⟨rfl, { providerMessageId := channel ++ ":" ++ ts }, if_neg hts⟩
  | fake =>
    obtain ⟨hex, -, rfl⟩ := h
    exact .inl ⟨rfl, _, rfl⟩

end SendProvider

theorem classify_draftGone (detail : String) : classify (Gmail.draftGone detail) = .permanent := by
  simp [classify, Gmail.draftGone, classifyProviderError, fallback, GOOGLE_NEEDS_RECONNECT, GOOGLE_CONFIG,
    GOOGLE_TRANSIENT, GOOGLE_PERMANENT]

/-! ## One execution -/

variable {settings : Settings} {registry : ProviderKind → SendProvider} {sid base : Nat} {key : String}

namespace Site

variable {o : Op} {s t : Site} {e : Env} {x : o.Ans}

theorem sem_eq_some (h : Site.sem settings o e s = some (x, t)) :
    ∃ w, Send.sem settings o e s.store = some (x, w) ∧ t = s.served w o e := by
  obtain ⟨⟨y, w⟩, hs, he⟩ := Option.map_eq_some_iff.1 h
  simp only [Prod.mk.injEq] at he
  obtain ⟨rfl, rfl⟩ := he
  exact ⟨w, hs, rfl⟩

/-- What the execution knows of its send between two operations. -/
structure At (sid base : Nat) (q : SendRow) (mailbox : List String) (s : Site) : Prop where
  row : s.store.sends.get sid = some q
  draft : (s.store.drafts.get q.draftId).isSome
  next : base ≤ s.store.calls.next
  mailbox : s.mailbox = mailbox

theorem At.spares {q : SendRow} {mailbox : List String} (h : At sid base q mailbox s) (hs : Spares sid key base s t) :
    At sid base q mailbox t where
  row := hs.row.trans h.row
  draft := hs.drafts _ h.draft
  next := Nat.le_trans h.next hs.next
  mailbox := hs.mailbox.trans h.mailbox

theorem stable_at (q : SendRow) (mailbox : List String) :
    Prog.Stable (serving settings registry sid key base) (At sid base q mailbox) := fun _ _ h hs _ => h.spares hs

/-- A call of the send, as it is. -/
theorem stable_call {n : Nat} {c : Call} (hn : base ≤ n) (hk : c.request.fingerprint = key) :
    Prog.Stable (serving settings registry sid key base) fun s => s.store.calls.get n = some c :=
  fun _ _ h hs _ => hs.calls n c hn h hk

/-- A guarded write to the row, where the guard matches. -/
theorem At.wrote {q : SendRow} {mailbox : List String} {u : Write} {x : Bool} (h : At sid base q mailbox s)
    (hg : u.guard q = true) (hdraft : (u.row s.store.now q).draftId = q.draftId)
    (hs : Site.sem settings (.write sid u) e s = some (x, t)) :
    At sid base (u.row s.store.now q) mailbox t ∧ t.store.calls = s.store.calls := by
  obtain ⟨w, hw, rfl⟩ := sem_eq_some hs
  obtain ⟨rfl, rfl⟩ := sem_write hw
  have hrow : (s.store.sends.updateWhere sid u.guard (u.row s.store.now)).get sid = some (u.row s.store.now q) :=
    Table.get_updateWhere_hit _ h.row hg
  exact ⟨⟨hrow, by rw [hdraft]; exact h.draft, h.next, h.mailbox⟩, rfl⟩

end Site

/-- How an execution leaves the send: delivered in a new call, or, its draft gone, failed for good. -/
inductive Ending (sid : Nat) (key : String) (base : Nat) : Bool → Site → Prop
  | delivered {s : Site} {q : SendRow} {n : Nat} {c : Call} (hrow : s.store.sends.get sid = some q)
      (hd : q.state = .delivered) (hn : base ≤ n) (hc : s.store.calls.get n = some c) (ha : c.status = .accepted)
      (hk : c.request.fingerprint = key) : Ending sid key base false s
  | failed {s : Site} {q : SendRow} (hrow : s.store.sends.get sid = some q) (hf : q.state = .failedPermanent) :
      Ending sid key base true s

theorem stable_ending (gone : Bool) :
    Prog.Stable (serving settings registry sid key base) (Ending sid key base gone) := by
  intro s t h hs _
  cases h with
  | delivered hrow hd hn hc ha hk => exact .delivered (hs.row.trans hrow) hd hn (hs.calls _ _ hn hc hk) ha hk
  | failed hrow hf => exact .failed (hs.row.trans hrow) hf

theorem Ending.resent_iff {gone : Bool} {s : Site} (h : Ending sid key base gone s) :
    Resent sid key base s.store ↔ gone = false := by
  cases h with
  | delivered hrow hd hn hc ha hk => exact ⟨fun _ => rfl, fun _ => ⟨⟨_, hrow, hd⟩, _, _, hn, hc, ha, hk⟩⟩
  | failed hrow hf =>
    refine ⟨?_, fun h => (nomatch h)⟩
    rintro ⟨⟨q, hq, hd⟩, -⟩
    rw [hrow, Option.some.injEq] at hq
    rw [← hq, hf] at hd
    cases hd

theorem Ending.congr {gone : Bool} {s t : Site} (h : Ending sid key base gone s) (hsends : t.store.sends = s.store.sends)
    (hcalls : t.store.calls = s.store.calls) : Ending sid key base gone t := by
  cases h with
  | delivered hrow hd hn hc ha hk => exact .delivered (by rw [hsends]; exact hrow) hd hn (by rw [hcalls]; exact hc) ha hk
  | failed hrow hf => exact .failed (by rw [hsends]; exact hrow) hf

/-- Tidying up and noting the connection's success touch neither the send nor its calls. -/
theorem Ending.discarded {gone : Bool} {provider : ProviderKind} {request : SendRequest} {s t : Site} {e : Env}
    {x : Except Exn Unit} (h : Ending sid key base gone s)
    (hs : Site.sem settings (.discard provider request) e s = some (x, t)) : Ending sid key base gone t := by
  obtain ⟨w, hw, rfl⟩ := Site.sem_eq_some hs
  cases e <;> first | cases hw; done | skip
  obtain ⟨rfl, rfl⟩ := answer_of_some hw
  cases x <;> exact h.congr rfl rfl

theorem Ending.recorded {gone : Bool} {id : Nat} {s t : Site} {e : Env} {x : Unit} (h : Ending sid key base gone s)
    (hs : Site.sem settings (.recordSuccess id) e s = some (x, t)) : Ending sid key base gone t := by
  obtain ⟨w, hw, rfl⟩ := Site.sem_eq_some hs
  cases e <;> first | cases hw; done | skip
  obtain ⟨rfl, -⟩ := answer_of_some hw
  exact h.congr rfl rfl

variable {q : SendRow} {mailbox : List String} {s : Site}

/-- The draft was gone: the send fails for good, whatever tidying up does. -/
theorem serving_finalizeFailure (detail : String) (job : ClaimedJob) (artifact : Option (ProviderKind × SendRequest))
    (hsid : job.refId = sid) (h : Site.At sid base q mailbox s) (hq : q.state = .inFlight) :
    Safe (serving settings registry sid key base) (fun _ t => Ending sid key base true t)
      (finalizeFailure job.refId (Gmail.draftGone detail) job artifact) s := by
  unfold finalizeFailure
  simp only [classify_draftGone]
  rw [if_neg (by decide), hsid]
  refine Safe.perform (Site.stable_at q mailbox) h fun t e x u ht _ _ hs => ⟨trivial, trivial, ?_⟩
  have hfailed : Ending sid key base true u := .failed (ht.wrote (by simp [Write.guard, inFlight, hq]) rfl hs).1.row rfl
  have hdone : Safe (serving settings registry sid key base) (fun _ t => Ending sid key base true t)
      (.ret () : SendProg Unit) u := Safe.ret (stable_ending true) hfailed
  unfold tidy
  cases artifact with
  | none => exact hdone
  | some a =>
    dsimp only
    split
    · refine Safe.perform (stable_ending true) hfailed fun t e x v ht _ _ hs => ⟨trivial, trivial, ?_⟩
      exact Safe.ret (stable_ending true) (ht.discarded hs)
    · exact hdone

/-- A call the provider has answered is settled as it answered. -/
theorem Site.answered {call : Nat} {c : Call} {e : Env} {r : Except Exn SendReceipt} {t : Site}
    (hc : s.store.calls.get call = some c) (hp : c.status = .pending)
    (hs : Site.sem settings (.sendAnswer call) e s = some (r, t)) :
    e = .receipt r ∧ t.store.sends = s.store.sends ∧ t.store.drafts = s.store.drafts ∧
      t.store.calls.next = s.store.calls.next ∧
      t.store.calls.get call = some { c with status := if Site.accepts r then .accepted else .dropped } := by
  obtain ⟨w, hw, rfl⟩ := Site.sem_eq_some hs
  obtain ⟨rfl, rfl⟩ := sem_sendAnswer hw
  exact ⟨rfl, rfl, rfl, rfl, Table.get_updateWhere_hit _ hc (by simp [hp])⟩

/-- **The message handed over**: delivered where it is accepted, failed for good where its draft was gone. -/
theorem serving_handOver (job : ClaimedJob) (send : SendRow) (request : SendRequest) (hsid : job.refId = sid)
    (h : Site.At sid base q mailbox s) (hq : q.state = .inFlight) (hconn : request.connectionId.isSome)
    (hkey : request.fingerprint = key)
    (hdraft : registry send.provider = .gmail → truthy request.providerDraftId = true) :
    Safe (serving settings registry sid key base)
      (fun _ t => Ending sid key base ((registry send.provider).gone mailbox request.providerDraftId) t)
      (handOver job send request) s := by
  simp only [handOver, providerSend]
  refine Safe.perform (Site.stable_at q mailbox) h fun t e call u ht _ _ hs => ⟨trivial, trivial, ?_⟩
  obtain ⟨w, hw, rfl⟩ := Site.sem_eq_some hs
  obtain ⟨rfl, rfl⟩ := sem_sendCall hw
  have hnew : (t.store.calls.insert (⟨send.provider, request, .pending⟩ : Call)).get t.store.calls.next =
      some ⟨send.provider, request, .pending⟩ := Table.get_insert_self _ _
  have hcalled : Site.At sid base q mailbox (t.served { t.store with
      calls := t.store.calls.insert { provider := send.provider, request := request } } (.sendCall send.provider request) e) :=
    ⟨ht.row, ht.draft, Nat.le_succ_of_le ht.next, ht.mailbox⟩
  refine Safe.perform ((Site.stable_at q mailbox).and (Site.stable_call (c := ⟨send.provider, request, .pending⟩)
    ht.next hkey)) ⟨hcalled, hnew⟩ fun v e' r v' hv _ hok hs' => ⟨trivial, trivial, ?_⟩
  obtain ⟨hat, hcall⟩ := hv
  obtain ⟨rfl, hsends, hdrafts, hnext, hsettled⟩ := Site.answered hcall rfl hs'
  have hserved := SendProvider.serves_cases (hok _ hcall) hconn hdraft
  rw [hat.mailbox] at hserved
  have hat' : Site.At sid base q v'.mailbox v' :=
    ⟨by rw [hsends]; exact hat.row, by rw [hdrafts]; exact hat.draft, by rw [hnext]; exact hat.next, rfl⟩
  rcases hserved with ⟨hgone, receipt, rfl⟩ | ⟨hgone, detail, rfl⟩
  · rw [hgone]
    refine Safe.perform ((Site.stable_at q v'.mailbox).and (Site.stable_call ht.next hkey)) ⟨hat', hsettled⟩
      fun a e₁ x₁ b hab _ _ hs₁ => ⟨trivial, trivial, ?_⟩
    rw [hsid] at hs₁
    obtain ⟨hrow, hcalls⟩ := hab.1.wrote (by simp [Write.guard, inFlight, hq]) rfl hs₁
    have hend : Ending sid key base false b :=
      .delivered hrow.row rfl ht.next (by rw [hcalls]; exact hab.2) rfl hkey
    refine Safe.perform (stable_ending false) hend fun a' e₂ x₂ b' hend' _ _ hs₂ => ⟨trivial, trivial, ?_⟩
    exact Safe.ret (stable_ending false) (hend'.recorded hs₂)
  · rw [hgone]
    refine Safe.bind (Safe.mono (fun _ _ _ he => ?_) (serving_finalizeFailure detail job _ hsid hat' hq))
    exact Safe.ret (stable_ending true) he

/-- **The dispatch of a send that was not dispatched.** -/
theorem serving_dispatchSend (job : ClaimedJob) (hsid : job.refId = sid) (h : Site.At sid base q mailbox s)
    (hq : q.state = .inFlight) (hkey : q.idempotencyKey = key) :
    Safe (serving settings registry sid key base)
      (fun _ t => Ending sid key base ((registry q.provider).gone mailbox q.providerDraftId) t) (dispatchSend job q) s := by
  unfold dispatchSend
  refine Safe.perform (Site.stable_at q mailbox) h fun t e x u ht _ _ hs => ⟨trivial, trivial, ?_⟩
  obtain ⟨w, hw, rfl⟩ := Site.sem_eq_some hs
  obtain ⟨rfl, rfl⟩ := sem_loadDraft hw
  have ht' : Site.At sid base q mailbox (t.served t.store (.loadDraft q.draftId) e) :=
    ⟨ht.row, ht.draft, ht.next, ht.mailbox⟩
  obtain ⟨draft, hdraft⟩ := Option.isSome_iff_exists.1 ht.draft
  rw [hdraft]
  refine Safe.perform (Site.stable_at q mailbox) ht' fun u e' r v hu _ hok hs' => ⟨trivial, trivial, ?_⟩
  obtain ⟨w', hw', rfl⟩ := Site.sem_eq_some hs'
  obtain ⟨rfl, rfl⟩ := sem_prepare hw'
  have hready : (registry q.provider).Readies (requestFor q draft) r := hok
  obtain ⟨prepared, rfl⟩ := SendProvider.readies_ok hready rfl
  obtain ⟨hgone, hid⟩ := SendProvider.gone_prepared u u.store q.provider hready
  rw [hu.mailbox, show (requestFor q draft).providerDraftId = q.providerDraftId from rfl] at hgone
  rw [← hgone]
  generalize hv : u.served u.store (.prepare q.provider (requestFor q draft)) (.prepared (.ok prepared)) = v
  have hat : Site.At sid base q v.mailbox v := by
    subst hv
    exact ⟨hu.row, hu.draft, hu.next, rfl⟩
  refine Safe.perform (Site.stable_at q v.mailbox) hat fun a e₁ x₁ b ha _ _ hs₁ => ⟨trivial, trivial, ?_⟩
  rw [hsid] at hs₁
  obtain ⟨hrow, -⟩ := ha.wrote (by simp [Write.guard, inFlight, hq]) rfl hs₁
  refine serving_handOver job q _ hsid hrow hq ?_ ?_ hid
  · rw [connectionId_withPrepared]
    rfl
  · rw [fingerprint_withPrepared]
    exact hkey

variable (settings registry) in
/-- **One execution of the job of a send in flight, its dispatch cleared.** -/
theorem serving_handler (job : ClaimedJob) (hk : job.kind = .send) (hsid : job.refId = sid)
    (h : Site.At sid base q mailbox s) (hq : q.state = .inFlight) (hkey : q.idempotencyKey = key)
    (hcleared : q.dispatchedAt = none) :
    Safe (serving settings registry sid key base)
      (fun _ t => Ending sid key base ((registry q.provider).gone mailbox q.providerDraftId) t) (handler job) s := by
  unfold handler
  rw [hk]
  unfold runSend
  refine Safe.perform (Site.stable_at q mailbox) h fun t e x u ht _ _ hs => ⟨trivial, trivial, ?_⟩
  obtain ⟨w, hw, rfl⟩ := Site.sem_eq_some hs
  obtain ⟨rfl, rfl⟩ := sem_loadSend hw
  rw [hsid, ht.row]
  dsimp only
  rw [if_neg (not_not.2 hq), if_neg (by rw [hcleared]; exact Bool.false_ne_true)]
  exact serving_dispatchSend job hsid ⟨ht.row, ht.draft, ht.next, ht.mailbox⟩ hq hkey

/-! ## An execution there is -/

/-- The draft ids in the table are texts that it took. -/
def DraftIdsStorable (w : Store) : Prop := ∀ id r, w.sends.get id = some r → r.providerDraftId.all Store.storable = true

theorem all_or {α : Type} {p : α → Bool} {a b : Option α} (ha : a.all p = true) (hb : b.all p = true) :
    (a.or b).all p = true := by
  cases a <;> assumption

/-- A write that the database takes leaves it a draft id that it takes. -/
theorem draftId_wrote {u : Write} {now : Nat} {r : SendRow} (hu : u.storable = true)
    (hr : r.providerDraftId.all Store.storable = true) : (u.row now r).providerDraftId.all Store.storable = true := by
  cases u with
  | dispatch draftId =>
    refine all_or hr ?_
    cases draftId with
    | none => rfl
    | some id => simpa [Write.storable, Write.texts] using hu
  | delivered receipt evidence =>
    refine all_or ?_ hr
    cases hid : receipt.providerDraftId with
    | none => rfl
    | some id =>
      simp only [Write.storable, Write.texts, hid, Option.toList_some, List.all_cons, List.all_nil, Bool.and_eq_true] at hu
      exact hu.2.2.1
  | uncertain | error | terminal => exact hr

theorem DraftIdsStorable.sem {w w' : Store} {o : Op} {e : Env} {x : o.Ans} (h : DraftIdsStorable w)
    (hs : sem settings o e w = some (x, w')) : DraftIdsStorable w' := by
  intro id r hr
  have hm := (did_of_sem hs).send id
  rw [hr] at hm
  generalize w'.forced id = n at hm
  generalize hq : some r = q at hm
  cases hm with
  | same => exact h id r hq.symm
  | wrote u hr' =>
    obtain rfl := Option.some.inj hq
    exact draftId_wrote (storable_of_sem hs) (h id _ hr')
  | @bumped r' hr' | @retried r' _ _ hr' | @attested r' _ _ _ hr' | @resent r' _ _ _ hr' =>
    obtain rfl := Option.some.inj hq
    exact h id r' hr'
  | claimed =>
    obtain rfl := Option.some.inj hq
    rfl

theorem reach_draftIdsStorable {ok : World → Action → Prop} {w : World} (h : (system settings).Reach ok w) :
    DraftIdsStorable w.store := by
  refine Machine.Reach.inv (I := fun w => DraftIdsStorable w.store) (fun _ _ h => by cases h) (fun u a v _ hi _ hs => ?_) h
  cases moved_of_step hs with
  | outside a store hout =>
    intro id r hr
    exact hi id r ((Store.outside_eq hout).1 ▸ hr)
  | ran pid e hp hn hsem => exact hi.sem hsem
  | called | claimed | swept | raised | lost | aborted | executed | recovered | answered | crashed => exact hi

theorem SendProvider.exists_readies (provider : SendProvider) (request : SendRequest) (hconn : request.connectionId.isSome)
    (hid : request.providerDraftId.all Store.storable = true) :
    ∃ prepared, provider.Readies request (.ok prepared) ∧ prepared.providerDraftId.all Store.storable = true := by
  cases provider with
  | gmail =>
    have hready : SendProvider.Readies request (Gmail.prepare request (.ok (some "r1"))) .gmail :=
      ⟨"r1", by decide, by decide, rfl⟩
    obtain ⟨prepared, hp⟩ := readies_ok hready hconn
    rw [hp] at hready
    refine ⟨prepared, hready, ?_⟩
    unfold Gmail.prepare at hp
    split at hp
    · obtain rfl := Except.ok.inj hp
      exact hid
    · rw [if_neg (by simpa [Option.isSome_iff_ne_none] using hconn)] at hp
      obtain rfl := Except.ok.inj hp
      decide
  | slack | fake => exact ⟨_, rfl, rfl⟩

theorem delivered_storable {m : String} {draftId : Option String} (hm : Store.storable m = true)
    (hid : draftId.all Store.storable = true) :
    (Write.delivered { providerMessageId := m, providerDraftId := draftId } "").storable = true := by
  have hempty : Store.storable "" = true := rfl
  cases draftId with
  | none => simp [Write.storable, Write.texts, hm, hempty]
  | some id => simpa [Write.storable, Write.texts, hm, hempty] using hid

theorem SendProvider.exists_serves (provider : SendProvider) (mailbox : List String) {request : SendRequest}
    (hconn : request.connectionId.isSome) (hdraft : provider = .gmail → truthy request.providerDraftId = true)
    (hid : request.providerDraftId.all Store.storable = true) :
    (∃ receipt, provider.Serves mailbox request (.ok receipt) ∧ (Write.delivered receipt "").storable = true) ∨
      provider.Serves mailbox request (.error (Gmail.draftGone "")) := by
  cases provider with
  | gmail =>
    have hserves : SendProvider.Serves mailbox request _ .gmail := ⟨"m1", "", by decide, by decide, rfl⟩
    unfold Gmail.send at hserves
    rw [if_neg (by simp [hdraft rfl]), if_neg (by simpa [Option.isSome_iff_ne_none] using hconn)] at hserves
    by_cases hm : holds mailbox request.providerDraftId = true
    · rw [if_pos hm] at hserves
      exact .inl ⟨_, hserves, delivered_storable (by decide) hid⟩
    · rw [if_neg hm] at hserves
      exact .inr hserves
  | slack => exact .inl ⟨_, ⟨"1.0", "C1", by decide, by decide, by decide, rfl⟩, by decide⟩
  | fake => exact .inl ⟨_, ⟨"00", by decide, rfl⟩, delivered_storable (by decide) hid⟩

variable (settings registry sid key base) in
/-- A write of texts the database takes can always be carried out. -/
theorem write_answered {u : Write} (hu : u.storable = true) (id : Nat) (s : Site) :
    ∃ e x t, (serving settings registry sid key base).ok (.write id u) e s ∧
      (serving settings registry sid key base).sem (.write id u) e s = some (x, t) ∧ True :=
  ⟨.none, _, _, trivial, congrArg (Option.map _) (sem_storable hu id s.store), trivial⟩

/-- What follows a failure for good comes to its end. -/
theorem live_finalizeFailure (id : Nat) (job : ClaimedJob) (artifact : Option (ProviderKind × SendRequest)) :
    Live (serving settings registry sid key base) (finalizeFailure id (Gmail.draftGone "") job artifact) := by
  unfold finalizeFailure
  simp only [classify_draftGone]
  rw [if_neg (by decide)]
  refine Live.perform (fun _ => True) (fun s => write_answered settings registry sid base key (by decide) id s) fun _ _ => ?_
  unfold tidy
  cases artifact with
  | none => exact Live.ret ()
  | some a =>
    dsimp only
    split
    · exact Live.perform (fun _ => True) (fun s => ⟨.finished (.ok ()), _, _, trivial, rfl, trivial⟩) fun _ _ => Live.ret ()
    · exact Live.ret ()

theorem live_handOver (job : ClaimedJob) (send : SendRow) {request : SendRequest} (hconn : request.connectionId.isSome)
    (hdraft : registry send.provider = .gmail → truthy request.providerDraftId = true)
    (hid : request.providerDraftId.all Store.storable = true) :
    Live (serving settings registry sid key base) (handOver job send request) := by
  intro s
  simp only [handOver, providerSend]
  have hown (r : Except Exn SendReceipt) (hr : (registry send.provider).Serves s.mailbox request r) :
      ∀ c, (s.store.calls.insert { provider := send.provider, request := request }).get s.store.calls.next = some c →
        (registry c.provider).Serves s.mailbox c.request r := by
    intro c hc
    rw [Table.get_insert_self, Option.some.injEq] at hc
    subst hc
    exact hr
  rcases (registry send.provider).exists_serves s.mailbox hconn hdraft hid with ⟨receipt, hserves, hreceipt⟩ | hserves
  · have hdelivered : Live (serving settings registry sid key base) (do
        let _ ← markDelivered job.refId receipt ""
        perform (.recordSuccess send.connectionId)
        return .ok () : SendProg (Except Exn Unit)) :=
      Live.perform (fun _ => True) (fun s => write_answered settings registry sid base key hreceipt _ s) fun _ _ =>
        Live.perform (fun _ => True) (fun s => ⟨.none, _, _, trivial, rfl, trivial⟩) fun _ _ => Live.ret _
    obtain ⟨a, t, hrun⟩ := hdelivered _
    refine ⟨a, t, Among.perform (e := .none) trivial rfl ?_⟩
    exact Among.perform (e := Env.receipt (.ok receipt)) (hown _ hserves) rfl hrun
  · have hfailed : Live (serving settings registry sid key base) (do
        finalizeFailure job.refId (Gmail.draftGone "") job (some (send.provider, request))
        return .error (Gmail.draftGone "") : SendProg (Except Exn Unit)) :=
      Live.bind (live_finalizeFailure _ _ _) fun _ => Live.ret _
    obtain ⟨a, t, hrun⟩ := hfailed _
    refine ⟨a, t, Among.perform (e := .none) trivial rfl ?_⟩
    exact Among.perform (e := Env.receipt (.error (Gmail.draftGone ""))) (hown _ hserves) rfl hrun

variable (settings registry sid key base) in
theorem live_dispatchSend (job : ClaimedJob) (send : SendRow) (hid : send.providerDraftId.all Store.storable = true) :
    Live (serving settings registry sid key base) (dispatchSend job send) := by
  unfold dispatchSend
  refine Live.perform (fun _ => True) (fun s => ⟨.none, _, _, trivial, rfl, trivial⟩) fun found _ => ?_
  cases found with
  | none => exact Live.ret _
  | some draft =>
    obtain ⟨prepared, hready, hprepared⟩ :=
      (registry send.provider).exists_readies (requestFor send draft) rfl hid
    refine Live.perform (· = .ok prepared) (fun s => ⟨.prepared (.ok prepared), _, _, hready, rfl, rfl⟩) fun r hr => ?_
    subst hr
    have hdispatch : (Write.dispatch prepared.providerDraftId).storable = true := by
      cases hp : prepared.providerDraftId with
      | none => rfl
      | some id =>
        rw [hp] at hprepared
        exact Bool.and_eq_true_iff.2 ⟨hprepared, rfl⟩
    refine Live.perform (fun _ => True) (fun s => write_answered settings registry sid base key hdispatch _ s) fun _ _ => ?_
    refine live_handOver job send ?_ ?_ ?_
    · rw [connectionId_withPrepared]
      rfl
    · exact (SendProvider.gone_prepared ⟨{}, []⟩ {} send.provider hready).2
    · unfold withPrepared
      split
      · exact hprepared
      · exact hid

variable (settings registry key base) in
/-- An execution of the send's job. -/
theorem execution_exists {q : SendRow} (job : ClaimedJob) (s : Site) (hk : job.kind = .send) (hsid : job.refId = sid)
    (hrow : s.store.sends.get sid = some q) (hq : q.state = .inFlight) (hcleared : q.dispatchedAt = none)
    (hid : q.providerDraftId.all Store.storable = true) :
    ∃ a t, Among (serving settings registry sid key base) (handler job) s a t := by
  obtain ⟨a, t, hrun⟩ := live_dispatchSend settings registry sid base key job q hid s
  refine ⟨a, t, ?_⟩
  unfold handler
  rw [hk]
  unfold runSend
  refine Among.perform (e := .none) trivial rfl ?_
  rw [hsid, hrow]
  dsimp only
  rw [if_neg (not_not.2 hq), if_neg (by rw [hcleared]; exact Bool.false_ne_true)]
  exact hrun

/-! ## The resolution -/

/-- A job of the send that a worker may claim. -/
def Claimable (sid : Nat) (w : Store) : Prop :=
  ∃ n j, w.jobs.get n = some j ∧ j.kind = .send ∧ j.refId = sid ∧ j.state = .ready ∧ j.runAt ≤ w.now ∧
    j.attempts < j.maxAttempts

theorem claimable_of_resumed {w : Store} {jobs : Queue.Jobs} {partition : String}
    (h : Store.resumeOrEnqueue settings w.now jobs sid partition = some w.jobs) : Claimable sid w := by
  rcases resumeOrEnqueue_cases h with ⟨n, hn, hr⟩ | ⟨jobs₁, -, he⟩
  · obtain ⟨j, hj, hk, hid⟩ := latestSendJob_eq_some hn
    unfold Queue.operatorRetry at hr
    simp only at hr
    split at hr
    · cases hr
    · simp only [Option.some.injEq, Prod.mk.injEq] at hr
      obtain ⟨j', hj', hres⟩ := Table.affected_iff.1 hr.1
      obtain rfl := Option.some.inj (hj.symm.trans hj')
      refine ⟨n, Queue.resumeRow w.now 1 j, ?_, hk, hid, rfl, Nat.le_refl _, ?_⟩
      · rw [← hr.2]
        exact Table.get_updateWhere_hit _ hj hres
      · exact Nat.lt_of_lt_of_le (Nat.lt_succ_self _) (Nat.le_max_right _ _)
  · refine ⟨jobs₁.next, Queue.newRow settings w.now (Store.retryJob sid partition), ?_, rfl, rfl, rfl, Nat.le_refl _,
      settings.maxAttempts_pos⟩
    rw [he]
    exact jobs₁.get_insert_self _

/-- **What a forced resend of an uncertain send leaves**: the row cleared for a dispatch, its draft id kept, and a job. -/
theorem resolveWrite_resend {w s : Store} {r q : SendRow} {note : Option String} {partition : String}
    (hr : w.sends.get sid = some r) (hu : r.state = .uncertain)
    (h : w.resolveWrite settings sid r.userId .forcedResend note partition = (.ok q, s)) :
    s.sends.get sid = some (resendRow r) ∧ s.drafts = w.drafts ∧ s.calls = w.calls ∧ Claimable sid s := by
  unfold Store.resolveWrite at h
  simp only at h
  split at h
  · rename_i w' row hw
    simp only [Option.map_map, Option.map_eq_some_iff, Function.comp_apply, Prod.mk.injEq] at hw
    obtain ⟨jobs, hjobs, rfl, -⟩ := hw
    obtain rfl := (Prod.mk.inj h).2
    exact ⟨Table.get_updateWhere_hit _ hr (by simp [inDoubt, hu]), rfl, rfl, claimable_of_resumed hjobs⟩
  · cases h
  · cases h

theorem runs_resend {w s : Store} {r : SendRow} {userId : Nat} {note : Option String} {x : SendPayload × String}
    (hr : w.sends.get sid = some r) (hu : r.state = .uncertain)
    (h : Runs (Send.sem settings) (resolveSend sid userId "forced_resend" note) w (.ok x) s) :
    s.sends.get sid = some (resendRow r) ∧ s.drafts = w.drafts ∧ s.calls = w.calls ∧ Claimable sid s := by
  have hres : RESOLUTIONS.lookup "forced_resend" = some .forcedResend := by decide
  unfold resolveSend at h
  rw [hres] at h
  obtain ⟨e, row, u, hs, h⟩ := Prog.runs_perform h
  obtain ⟨rfl, rfl⟩ := sem_sendOf hs
  rw [hr, Option.filter_some] at h
  by_cases howner : r.userId = userId
  · subst howner
    rw [if_pos (beq_self_eq_true _)] at h
    dsimp only at h
    rw [if_neg (not_not.2 hu)] at h
    obtain ⟨e', written, v, hs', h⟩ := Prog.runs_perform h
    cases e' <;> first | cases hs' | skip
    cases written with
    | error err => cases (Prog.runs_ret h).1
    | ok q =>
      obtain ⟨-, rfl⟩ := Prog.runs_ret h
      exact resolveWrite_resend hr hu (Option.some.inj hs')
  · rw [if_neg (by simpa using howner)] at h
    cases (Prog.runs_ret h).1

/-- **An execution of the job after the resolution** ends the one way or the other. -/
theorem ending_of_resend {ok : World → Action → Prop} {w : World} (h : (system settings).Reach ok w)
    {r : SendRow} (hr : w.store.sends.get sid = some r) (hu : r.state = .uncertain) {userId : Nat} {note : Option String}
    {x : SendPayload × String} {s : Store}
    (hres : Runs (sem settings) (resolveSend sid userId "forced_resend" note) w.store (.ok x) s) {job : ClaimedJob}
    (hk : job.kind = .send) (hsid : job.refId = sid) {a : Except Exn Unit} {t : Site}
    (hrun : Among (serving settings registry sid r.idempotencyKey s.calls.next) (handler job) ⟨s, mailbox⟩ a t) :
    Ending sid r.idempotencyKey s.calls.next ((registry r.provider).gone mailbox r.providerDraftId) t := by
  obtain ⟨hrow, hdrafts, -, -⟩ := runs_resend hr hu hres
  obtain ⟨d, hd, -⟩ := (reach_coherent h).store.origin sid r hr
  have hat : Site.At sid s.calls.next (resendRow r) mailbox ⟨s, mailbox⟩ := by
    refine ⟨hrow, ?_, Nat.le_refl _, rfl⟩
    rw [hdrafts]
    exact Option.isSome_iff_exists.2 ⟨d, hd⟩
  have hsafe := serving_handler settings registry job hk hsid hat rfl rfl rfl
  have hend := Prog.Safe.among (fun _ _ _ _ => trivial) hrun trivial hsafe
  exact hend

/-- **A forced resend delivers unless the send names a Gmail draft that is gone.**  From every reachable state with an
uncertain send: the resolution leaves a job a worker may claim; where every provider serves what it can, the job has an
execution, and each execution, among others that leave the send alone, ends with the send delivered by a new acceptance
exactly if Gmail still has the draft the send names, or the send names none. -/
theorem resend_delivers {ok : World → Action → Prop} {w : World} (h : (system settings).Reach ok w)
    (registry : ProviderKind → SendProvider) {r : SendRow} (hr : w.store.sends.get sid = some r)
    (hu : r.state = .uncertain) {userId : Nat} {note : Option String} {x : SendPayload × String} {s : Store}
    (hres : Runs (sem settings) (resolveSend sid userId "forced_resend" note) w.store (.ok x) s) :
    Claimable sid s ∧ ∀ (mailbox : List String) (job : ClaimedJob), job.kind = .send → job.refId = sid →
      (∃ a t, Among (serving settings registry sid r.idempotencyKey s.calls.next) (handler job) ⟨s, mailbox⟩ a t) ∧
        ∀ a t, Among (serving settings registry sid r.idempotencyKey s.calls.next) (handler job) ⟨s, mailbox⟩ a t →
          (Resent sid r.idempotencyKey s.calls.next t.store ↔
            (registry r.provider).gone mailbox r.providerDraftId = false) :=
  let ⟨hrow, _, _, hjob⟩ := runs_resend hr hu hres
  ⟨hjob, fun mailbox job hk hsid =>
    ⟨execution_exists settings registry s.calls.next r.idempotencyKey job ⟨s, mailbox⟩ hk hsid hrow rfl rfl
      (reach_draftIdsStorable h sid r hr), fun _ _ hrun => (ending_of_resend h hr hu hres hk hsid hrun).resent_iff⟩⟩

/-! ## Two resends -/

def registered : ProviderKind → SendProvider
  | .gmail => .gmail
  | .slack => .slack

/-- The resolution of the sample's send, and what it leaves. -/
def resent (w : World) : Option (SendRow × (SendPayload × String) × Store) :=
  (w.store.sends.get 0).bind fun r =>
    if r.state = .uncertain then
      ((resolveSend 0 1 "forced_resend" none).runWith (sem {}) [.none, .none] w.store).bind fun t =>
        t.1.toOption.map fun x => (r, x, t.2)
    else none

theorem resent_eq_some {w : World} {r : SendRow} {x : SendPayload × String} {s : Store} (h : resent w = some (r, x, s)) :
    w.store.sends.get 0 = some r ∧ r.state = .uncertain ∧
      Runs (sem {}) (resolveSend 0 1 "forced_resend" none) w.store (.ok x) s := by
  obtain ⟨r', hr, h⟩ := Option.bind_eq_some_iff.1 h
  split at h
  · rename_i hu
    obtain ⟨⟨a, t⟩, hrun, h⟩ := Option.bind_eq_some_iff.1 h
    cases a with
    | error e => cases h
    | ok y =>
      cases h
      exact ⟨hr, hu, Prog.runs_of_runWith hrun⟩
  · cases h

/-- A crash after the post, and three probes that could not tell. -/
def doubtfulPost : List Action :=
  sampleRun ++
    [.step 2 .none, .step 2 .none, .step 2 (.prepared (.ok {})), .step 2 .none, .step 2 .none, .crash 2,
      .tick 400000000, .sweep 5 (fun _ => false), .step 3 .none, .step 3 .none, .step 3 .none,
      .step 3 (.probed (.ok { verdict := .inconclusive })), .step 3 .none, .step 3 .none, .finish 3 "" noDraw] ++
    [4, 5].flatMap fun pid => [.claim "host:2" 5 (fun _ => false), .step pid .none, .step pid .none, .step pid .none,
      .step pid .none, .step pid (.probed (.ok { verdict := .inconclusive })), .step pid .none, .finish pid "" noDraw]

/-- The Slack post of that run is sent again, and delivered. -/
theorem resend_delivers_post :
    ∃ w r x s, (system {}).exec {} doubtfulPost = some w ∧ resent w = some (r, x, s) ∧ Claimable 0 s ∧
      ∀ (mailbox : List String) (job : ClaimedJob), job.kind = .send → job.refId = 0 →
        (∃ a t, Among (serving {} registered 0 r.idempotencyKey s.calls.next) (handler job) ⟨s, mailbox⟩ a t) ∧
          ∀ a t, Among (serving {} registered 0 r.idempotencyKey s.calls.next) (handler job) ⟨s, mailbox⟩ a t →
            (Resent 0 r.idempotencyKey s.calls.next t.store ↔
              (registered r.provider).gone mailbox r.providerDraftId = false) := by
  have hrun : ((system {}).exec (system {}).init doubtfulPost).any (fun w => (resent w).isSome) = true := by decide +kernel
  obtain ⟨w, hw, hreach, hp⟩ := Machine.reach_of_exec hrun
  obtain ⟨⟨r, x, s⟩, hres⟩ := Option.isSome_iff_exists.1 hp
  obtain ⟨hr, hu, hruns⟩ := resent_eq_some hres
  exact ⟨w, r, x, s, hw, hres, resend_delivers hreach registered hr hu hruns⟩

def lostDigest : String := confirmationDigest .gmail "dana@example.org" "dana@example.org" none "hello"

/-- Gmail sends the draft and the worker crashes; asked for the draft, Gmail no longer has it. -/
def lostDraft : List Action := [
  .connect { userId := 1, provider := .gmail, displayName := "Acme" },
  .call (.createDraft { userId := 1, channel := .gmail, recipient := "dana@example.org", body := "hello" }),
  .step 0 .none, .step 0 (.key sampleKey), .finish 0 "" noDraw,
  .call (.sendDraft 0 1 (some lostDigest)),
  .step 1 .none, .step 1 .none, .step 1 .none, .step 1 .none, .finish 1 "" noDraw,
  .claim "host:1" 5 (fun _ => false),
  .step 2 .none, .step 2 .none, .step 2 (.prepared (.ok { providerDraftId := some "r1" })), .step 2 .none, .step 2 .none,
  .settle 0 true, .crash 2, .tick 400000000, .sweep 5 (fun _ => false), .step 3 .none, .step 3 .none, .step 3 .none,
  .step 3 (.probed (.ok { verdict := .found, evidence := "draft r1 no longer exists at Gmail" })), .step 3 .none,
  .step 3 .none, .finish 3 "" noDraw]

/-- A draft Gmail accepted is no longer there. -/
def Spent (w : Store) (mailbox : List String) : Prop :=
  ∀ n c, w.calls.get n = some c → c.provider = .gmail → c.status = .accepted →
    holds mailbox c.request.providerDraftId = false

/-- That draft's send is resolved to be sent again, asks Gmail to send the draft that is gone, and fails for good. -/
theorem resend_fails :
    ¬ ∀ (w : World) (sid : Nat) (r : SendRow) (userId : Nat) (note : Option String) (x : SendPayload × String) (s : Store)
      (mailbox : List String) (job : ClaimedJob) (a : Except Exn Unit) (t : Site),
      (system {}).Reach (fun _ _ => True) w → w.store.sends.get sid = some r → r.state = .uncertain →
      Runs (sem {}) (resolveSend sid userId "forced_resend" note) w.store (.ok x) s → Spent s mailbox →
      job.kind = .send → job.refId = sid →
      Among (serving {} registered sid r.idempotencyKey s.calls.next) (handler job) ⟨s, mailbox⟩ a t →
      Resent sid r.idempotencyKey s.calls.next t.store := by
  intro hclaim
  have hrun : ((system {}).exec (system {}).init lostDraft).any (fun w => (resent w).any fun p =>
      p.1.provider == .gmail && p.1.providerDraftId == some "r1") = true := by decide +kernel
  obtain ⟨w, -, hreach, hp⟩ := Machine.reach_of_exec hrun
  obtain ⟨⟨r, x, s⟩, hres, hp⟩ := (Option.any_eq_true _ _).1 hp
  obtain ⟨hr, hu, hruns⟩ := resent_eq_some hres
  simp only [Bool.and_eq_true, beq_iff_eq] at hp
  let job : ClaimedJob := ⟨1, .send, 0, 1, 6, none, none, some "host:2", none, none⟩
  obtain ⟨hrow, -⟩ := runs_resend hr hu hruns
  obtain ⟨a, t, hexec⟩ := execution_exists {} registered s.calls.next r.idempotencyKey job ⟨s, []⟩ rfl rfl hrow rfl rfl
    (reach_draftIdsStorable hreach 0 r hr)
  have hgone : (registered r.provider).gone [] r.providerDraftId = true := by
    rw [hp.1, hp.2]
    decide
  have hend := (ending_of_resend hreach hr hu hruns rfl rfl hexec).resent_iff
  rw [hgone] at hend
  have hspent : Spent s [] := fun _ c _ _ _ => by cases hid : c.request.providerDraftId <;> rfl
  exact Bool.noConfusion (hend.1 (hclaim w 0 r 1 none x s [] job a t hreach hr hu hruns hspent rfl rfl hexec))

end Send
end SafeSend
