import SafeSend.Connections.Tokens
import SafeSend.Send.Decision
/-!
# A draft's connection fits its channel

A connection given to `create_draft` by its id is checked for its owner and not for its provider.  Where none is given
that is of another provider than the draft's channel, every draft and every send is on a connection of its owner and of
its own provider, and no provider is shown another's credential.
-/
namespace SafeSend
namespace Send
namespace Suited

open Lib
open Lib.Prog (Uses Safe Contract)
open Queue (ClaimedJob Recovery)

/-- The kind of token a provider's client asks for: the Gmail client's, and the Slack client's on the calls of a send. -/
def tokenKind : ProviderKind → Connections.TokenKind
  | .gmail => .oauth
  | .slack => .bot

/-- The endpoint an operation may contact, and the connection whose credential it presents there. -/
def contacts : Op → Option (ProviderKind × Nat)
  | .prepare provider request | .sendCall provider request | .probe provider request | .discard provider request =>
    request.connectionId.map fun n => (provider, n)
  | _ => none

/-- The connection of the id is the user's, and of the provider. -/
def Suits (w : Store) (n userId : Nat) (provider : ProviderKind) : Prop :=
  ∃ c, w.connections.get n = some c ∧ c.userId = userId ∧ c.provider = provider

/-- An operation contacts a provider with a connection of that provider. -/
def Placed (w : Store) (o : Op) : Prop :=
  ∀ endpoint n, contacts o = some (endpoint, n) → ∃ c, w.connections.get n = some c ∧ c.provider = endpoint

/-- A credential stored for one provider is presented at another's endpoint. -/
def misplaced (w : Store) (o : Op) : Bool :=
  (contacts o).any fun p => (w.connections.get p.2).any fun c =>
    c.provider != p.1 && (Connections.columnFor c.provider (tokenKind p.1)).isSome

structure Fitting (w : World) : Prop where
  drafts : ∀ id d, w.store.drafts.get id = some d → Suits w.store d.connectionId d.userId d.channel
  sends : ∀ sid r, w.store.sends.get sid = some r → Suits w.store r.connectionId r.userId r.provider ∧
    ∃ d, w.store.drafts.get r.draftId = some d ∧ d.channel = r.provider
  presented : ∀ pid o, w.nextOp pid = some o → misplaced w.store o = false

/-! ## What lasts -/

/-- A connection keeps its owner and its provider. -/
def Kept (w w' : Store) : Prop :=
  ∀ n c, w.connections.get n = some c →
    ∃ c', w'.connections.get n = some c' ∧ c'.userId = c.userId ∧ c'.provider = c.provider

theorem Kept.refl (w : Store) : Kept w w := fun _ c hc => ⟨c, hc, rfl, rfl⟩

theorem Kept.trans {w w' w'' : Store} (h : Kept w w') (h' : Kept w' w'') : Kept w w'' := by
  intro n c hc
  obtain ⟨c', hc', hu, hp⟩ := h n c hc
  obtain ⟨c'', hc'', hu', hp'⟩ := h' n c' hc'
  exact ⟨c'', hc'', hu'.trans hu, hp'.trans hp⟩

theorem Kept.of_connections {w w' : Store} (h : w'.connections = w.connections) : Kept w w' := by
  intro n c hc
  exact ⟨c, by rw [h]; exact hc, rfl, rfl⟩

variable {settings : Settings} {o : Op} {w w' : Store} {α : Type}

theorem Suits.kept {n userId : Nat} {provider : ProviderKind} (h : Suits w n userId provider) (hk : Kept w w') :
    Suits w' n userId provider := by
  obtain ⟨c, hc, hu, hp⟩ := h
  obtain ⟨c', hc', hu', hp'⟩ := hk n c hc
  exact ⟨c', hc', hu'.trans hu, hp'.trans hp⟩

theorem Placed.not_misplaced (h : Placed w o) : misplaced w o = false := by
  unfold misplaced
  cases ho : contacts o with
  | none => rfl
  | some p =>
    obtain ⟨c, hc, hp⟩ := h p.1 p.2 ho
    simp [hc, hp]

/-- An edit of a connection's status keeps the rest of it. -/
theorem kept_modify (w : Store) (n : Nat) (f : ConnectionRow → ConnectionRow)
    (hf : ∀ c, (f c).userId = c.userId ∧ (f c).provider = c.provider) :
    Kept w { w with connections := w.connections.modify n f } := by
  intro m c hc
  by_cases hm : m = n
  · subst hm
    refine ⟨f c, ?_, hf c⟩
    simp only [Table.get_modify, if_true, hc, Option.map_some]
  · exact ⟨c, (w.connections.get_modify_of_ne f hm).trans hc, rfl, rfl⟩

theorem connections_updateDraft (w : Store) (id userId : Nat) (edit : DraftEdit) :
    (w.updateDraft id userId edit).2.connections = w.connections := by
  unfold Store.updateDraft
  split
  · rfl
  · split
    · rfl
    · split
      · rfl
      · split <;> rfl

theorem connections_claimAndEnqueue (settings : Settings) (w : Store) (args : ClaimArgs) :
    (w.claimAndEnqueue settings args).2.connections = w.connections := by
  unfold Store.claimAndEnqueue
  split <;> rfl

theorem connections_operatorRetryWrite (settings : Settings) (w : Store) (id userId : Nat) (partition : String) :
    (w.operatorRetryWrite settings id userId partition).2.connections = w.connections := by
  unfold Store.operatorRetryWrite
  simp only
  split <;> rfl

theorem connections_resolveWrite (settings : Settings) (w : Store) (id userId : Nat) (resolution : Resolution)
    (note : Option String) (partition : String) :
    (w.resolveWrite settings id userId resolution note partition).2.connections = w.connections := by
  unfold Store.resolveWrite
  cases resolution with
  | markedDelivered =>
    simp only
    split
    · rename_i w' row h
      simp only [Option.map_some, Option.some.injEq, Prod.mk.injEq] at h
      rw [← h.1]
      rfl
    · rfl
    · rfl
  | forcedResend =>
    simp only
    split
    · rename_i w' row h
      simp only [Option.map_map, Option.map_eq_some_iff, Function.comp_apply, Prod.mk.injEq] at h
      obtain ⟨jobs, -, rfl, -⟩ := h
      rfl
    · rfl
    · rfl

/-- **No operation changes a connection's owner or its provider**: a success recorded on one writes its status. -/
theorem kept_of_sem {e : Env} {x : o.Ans} (h : sem settings o e w = some (x, w')) : Kept w w' := by
  have same {t : Store} (ht : t.connections = w.connections) : Kept w t := Kept.of_connections ht
  cases o with
  | write id u => exact same (by rw [(sem_write h).1]; rfl)
  | recordSuccess id =>
    cases e with
    | none =>
      rw [store_of_some h]
      refine kept_modify w _ _ fun c => ?_
      split <;> exact ⟨rfl, rfl⟩
    | _ => cases h
  | insertDraft args =>
    cases e with
    | key k => exact same (by rw [store_of_some (Option.ite_none_right_eq_some.1 h).2])
    | _ => cases h
  | updateDraft => cases e <;> first | exact same (by rw [store_of_some h, connections_updateDraft]) | cases h
  | claimAndEnqueue => cases e <;> first | exact same (by rw [store_of_some h, connections_claimAndEnqueue]) | cases h
  | operatorRetryWrite => cases e <;> first | exact same (by rw [store_of_some h, connections_operatorRetryWrite]) | cases h
  | resolveWrite => cases e <;> first | exact same (by rw [store_of_some h, connections_resolveWrite]) | cases h
  | _ => cases e <;> first | exact same (by rw [store_of_some h]; rfl) | exact same (by rw [store_of_some h]) | cases h

theorem kept_of_outside {a : Action} (h : w.outside settings a = some w') : Kept w w' := by
  cases a <;> simp only [Store.outside, Option.some.injEq, reduceCtorEq] at h <;> subst h
  case connect row => exact fun n c hc => ⟨c, Table.get_insert_of_get row hc, rfl, rfl⟩
  case connectionStatus id status => exact kept_modify w id _ fun c => ⟨rfl, rfl⟩
  all_goals exact Kept.of_connections rfl

theorem kept_of_moved {w t : World} {a : Action} (h : Moved settings w a t) : Kept w.store t.store := by
  rcases h.store with ⟨_, _, _, _, _, _, -, -, hs, -⟩ | hout | ⟨jobs, he⟩
  · exact kept_of_sem hs
  · exact kept_of_outside hout
  · exact Kept.of_connections (by rw [he])

/-! ## What a program owes -/

/-- A draft is booked on a connection that suits it, and a provider is contacted with a connection of its own. -/
def Owed (w : Store) : Op → Prop
  | .insertDraft args => Suits w args.connectionId args.userId args.channel
  | o => Placed w o

/-- What the program of a process, which is the call `call` where it creates a draft, takes for granted of what it reads:
the connection of a send suits it, and the connection the call names is of the draft's channel, where it is the
caller's. -/
def Granted (call : Option NewDraft) (w : Store) : Op → Prop
  | .loadSend id => ∀ r, w.sends.get id = some r → Suits w r.connectionId r.userId r.provider
  | .connectionById id => ∀ a c, call = some a → w.connections.get id = some c → c.userId = a.userId → c.provider = a.channel
  | _ => True

def suiting (settings : Settings) (call : Option NewDraft) : Contract Op Op.Ans Env Store where
  sem := sem settings
  ok o _ w := Granted call w o
  inv _ := True
  rely := Kept
  guar o w _ := Owed w o
  refl := Kept.refl
  trans := Kept.trans

variable {call : Option NewDraft}

/-- An operation that books no draft and contacts no provider. -/
def idle : Op → Bool
  | .insertDraft _ => false
  | o => (contacts o).isNone

theorem owed_of_idle (h : idle o = true) : Owed w o := by
  have hnone : contacts o = none := by
    cases o <;> first | rfl | exact Option.isNone_iff_eq_none.1 h
  have hplaced : Placed w o := fun endpoint n he => by
    rw [hnone] at he
    cases he
  cases o <;> first | exact hplaced | cases h

theorem suiting_of_idle : ∀ {p : SendProg α} (w : Store), Uses (fun o => idle o = true) p →
    Safe (suiting settings call) (fun _ _ => True) p w
  | .ret _, _, _ => Safe.done
  | .op _ _, _, h => Safe.op (Prog.Stable.true _) trivial fun _ _ x u _ _ _ _ =>
    ⟨trivial, owed_of_idle (Uses.op_iff.1 h).1, suiting_of_idle u ((Uses.op_iff.1 h).2 x)⟩

/-- One idle operation, and then the rest from what stood. -/
theorem Safe.idle {P : Store → Prop} {post : α → Store → Prop} (hP : Prog.Stable (suiting settings call) P)
    {f : o.Ans → SendProg α} (ho : idle o = true) (h : P w)
    (hk : ∀ t x, P t → Safe (suiting settings call) post (f x) t) :
    Safe (suiting settings call) post (perform o >>= f) w :=
  Safe.perform hP h fun t _ x u ht _ _ hs =>
    ⟨trivial, owed_of_idle ho, hk u x (hP t u ht (kept_of_sem hs) trivial)⟩

theorem stable_suits (n userId : Nat) (provider : ProviderKind) :
    Prog.Stable (suiting settings call) fun w => Suits w n userId provider := fun _ _ h hk _ => h.kept hk

/-- The request's connection is one of the provider. -/
def At (provider : ProviderKind) (request : SendRequest) (w : Store) : Prop :=
  ∀ n, request.connectionId = some n → ∃ c, w.connections.get n = some c ∧ c.provider = provider

theorem stable_at (provider : ProviderKind) (request : SendRequest) :
    Prog.Stable (suiting settings call) (At provider request) := by
  intro w t h hk _ n hn
  obtain ⟨c, hc, hp⟩ := h n hn
  obtain ⟨c', hc', -, hp'⟩ := hk n c hc
  exact ⟨c', hc', hp'.trans hp⟩

theorem At.placed {provider : ProviderKind} {request : SendRequest} (h : At provider request w)
    (ho : contacts o = request.connectionId.map fun n => (provider, n)) : Placed w o := by
  intro endpoint n he
  rw [ho, Option.map_eq_some_iff] at he
  obtain ⟨m, hm, he⟩ := he
  simp only [Prod.mk.injEq] at he
  obtain ⟨rfl, rfl⟩ := he
  exact h m hm

theorem Suits.at {send : SendRow} (h : Suits w send.connectionId send.userId send.provider) (draft : DraftRow) :
    At send.provider (requestFor send draft) w := by
  intro n hn
  obtain ⟨c, hc, -, hp⟩ := h
  obtain rfl : send.connectionId = n := Option.some.inj hn
  exact ⟨c, hc, hp⟩

/-! ## The worker's programs -/

theorem idle_of_writes (h : o.writes = true) : idle o = true := by
  cases o <;> first | rfl | cases h

theorem suiting_reconcileDispatched (id : Nat) (note : String) {send : SendRow}
    (h : Suits w send.connectionId send.userId send.provider) :
    Safe (suiting settings call) (fun _ _ => True) (reconcileDispatched id note send) w := by
  have hknown : Prog.Stable (suiting settings call) fun w => Suits w send.connectionId send.userId send.provider :=
    stable_suits _ _ _
  unfold reconcileDispatched
  split
  · exact suiting_of_idle w (Uses.perform rfl fun _ => Uses.done)
  · refine Safe.idle hknown rfl h fun t draft ht => ?_
    cases draft with
    | none => exact suiting_of_idle t (Uses.perform rfl fun _ => Uses.done)
    | some draft =>
      refine Safe.idle hknown rfl ht fun t attempts ht => ?_
      refine Safe.perform hknown ht fun t e r u ht _ _ _ => ⟨trivial, (ht.at draft).placed rfl, ?_⟩
      cases r with
      | error exc =>
        exact suiting_of_idle u ((notes_probeFailed id attempts exc).mono fun _ ho => idle_of_writes (writes_of_notes ho))
      | ok probe => exact suiting_of_idle u ((writes_settleProbe id note send attempts probe).mono fun _ => idle_of_writes)

theorem suiting_reconcileSend (id : Nat) (note : String) (w : Store) :
    Safe (suiting settings call) (fun _ _ => True) (reconcileSend id note) w := by
  unfold reconcileSend
  refine Safe.perform (Prog.Stable.true _) trivial fun t e x u _ _ hok hs => ⟨trivial, owed_of_idle (o := .loadSend id) rfl, ?_⟩
  obtain ⟨rfl, rfl⟩ := sem_loadSend hs
  cases hx : u.sends.get id with
  | none => exact Safe.done
  | some send =>
    show Safe _ _ (if _ then _ else _) u
    split
    · exact Safe.done
    · split
      · exact Safe.done
      · exact suiting_reconcileDispatched id note (hok send hx)

theorem suiting_tidy (artifact : Option (ProviderKind × SendRequest)) (h : ∀ p r, artifact = some (p, r) → At p r w) :
    Safe (suiting settings call) (fun _ _ => True) (tidy artifact) w := by
  unfold tidy
  split
  · rename_i provider request
    split
    · exact Safe.perform (stable_at provider request) (h provider request rfl) fun t _ _ _ ht _ _ _ =>
        ⟨trivial, ht.placed rfl, Safe.done⟩
    · exact Safe.done
  · exact Safe.done

theorem suiting_finalizeFailure (id : Nat) (exc : Exn) (job : ClaimedJob) (artifact : Option (ProviderKind × SendRequest))
    (h : ∀ p r, artifact = some (p, r) → At p r w) :
    Safe (suiting settings call) (fun _ _ => True) (finalizeFailure id exc job artifact) w := by
  have hstable : Prog.Stable (suiting settings call) fun w => ∀ p r, artifact = some (p, r) → At p r w :=
    fun s t hs hk hi p r he => stable_at p r s t (hs p r he) hk hi
  unfold finalizeFailure
  simp only
  split
  · split
    · exact suiting_of_idle w (Uses.perform rfl fun _ => Uses.done)
    · refine Safe.bind (Safe.mono (fun verdict t _ _ => ?_) (suiting_reconcileSend id _ w))
      cases verdict with
      | notSent | retryLater => exact suiting_of_idle t (Uses.perform rfl fun _ => Uses.done)
      | _ => exact Safe.done
  · exact Safe.idle hstable rfl h fun t _ ht => suiting_tidy artifact ht

theorem suiting_handOver (job : ClaimedJob) {send : SendRow} {request : SendRequest} (h : At send.provider request w) :
    Safe (suiting settings call) (fun _ _ => True) (handOver job send request) w := by
  have hknown : Prog.Stable (suiting settings call) (At send.provider request) := stable_at _ _
  simp only [handOver, providerSend]
  refine Safe.perform hknown h fun t e n u ht _ _ hs => ⟨trivial, ht.placed rfl, ?_⟩
  refine Safe.idle hknown rfl (hknown t u ht (kept_of_sem hs) trivial) fun t answer ht => ?_
  cases answer with
  | error exc =>
    refine Safe.bind (Safe.mono (fun _ _ _ _ => Safe.done) (suiting_finalizeFailure job.refId exc job _ fun p r he => ?_))
    simp only [Option.some.injEq, Prod.mk.injEq] at he
    obtain ⟨rfl, rfl⟩ := he
    exact ht
  | ok receipt => exact suiting_of_idle t (Uses.perform rfl fun _ => Uses.perform rfl fun _ => Uses.done)

theorem suiting_dispatchSend (job : ClaimedJob) {send : SendRow}
    (h : Suits w send.connectionId send.userId send.provider) :
    Safe (suiting settings call) (fun _ _ => True) (dispatchSend job send) w := by
  have hknown : Prog.Stable (suiting settings call) fun w => Suits w send.connectionId send.userId send.provider :=
    stable_suits _ _ _
  unfold dispatchSend
  refine Safe.idle hknown rfl h fun t draft ht => ?_
  cases draft with
  | none => exact Safe.done
  | some draft =>
    refine Safe.perform hknown ht fun t e prepared u ht _ _ hs => ⟨trivial, (ht.at draft).placed rfl, ?_⟩
    have hu := hknown t u ht (kept_of_sem hs) trivial
    cases prepared with
    | error exc =>
      refine Safe.bind (Safe.mono (fun _ _ _ _ => Safe.done) (suiting_finalizeFailure job.refId exc job none ?_))
      intro _ _ he
      cases he
    | ok prepared =>
      refine Safe.idle hknown rfl hu fun t _ ht => suiting_handOver job fun n hn => ?_
      rw [connectionId_withPrepared] at hn
      exact ht.at draft n hn

theorem suiting_runSend (job : ClaimedJob) (w : Store) :
    Safe (suiting settings call) (fun _ _ => True) (runSend job) w := by
  unfold runSend
  refine Safe.perform (Prog.Stable.true _) trivial fun t e x u _ _ hok hs =>
    ⟨trivial, owed_of_idle (o := .loadSend job.refId) rfl, ?_⟩
  obtain ⟨rfl, rfl⟩ := sem_loadSend hs
  cases hx : u.sends.get job.refId with
  | none => exact Safe.done
  | some send =>
    have hsend : Suits u send.connectionId send.userId send.provider := hok send hx
    show Safe _ _ (if _ then _ else _) u
    split
    · exact Safe.done
    · split
      · have hrec : Safe (suiting settings call) (fun _ _ => True) (reconcileSend job.refId "") u :=
          suiting_reconcileSend job.refId "" u
        have hkept := Safe.frame (stable_suits send.connectionId send.userId send.provider)
          (fun _ _ _ _ _ _ _ hs => kept_of_sem hs) (quiet_reconcileSend job.refId "") hsend hrec
        refine Safe.bind (Safe.mono (fun verdict t _ ht => ?_) hkept)
        cases verdict with
        | notSent => exact suiting_dispatchSend job ht.2
        | _ => exact Safe.done
      · exact suiting_dispatchSend job hsend

theorem suiting_handler (job : ClaimedJob) (w : Store) :
    Safe (suiting settings call) (fun _ _ => True) (handler job) w := by
  unfold handler
  split
  · exact suiting_runSend job w
  · exact suiting_of_idle w (Uses.single rfl)

/-! ## The calls of the API -/

theorem sem_firstConnection_suits {n userId : Nat} {provider : ProviderKind} {activeOnly : Bool} {e : Env}
    {c : ConnectionRow} (h : sem settings (.firstConnection userId provider activeOnly) e w = some (some (n, c), w')) :
    w' = w ∧ Suits w n userId provider := by
  cases e <;> first | cases h | skip
  obtain ⟨rfl, hx⟩ := answer_of_some h
  obtain ⟨hc, hp⟩ := Table.first_eq_some hx.symm
  simp only [Bool.and_eq_true, beq_iff_eq] at hp
  exact ⟨rfl, c, hc, hp.1.1, hp.1.2⟩

/-- **A connection resolved for a draft suits it**, where the one the call names is of the draft's channel. -/
theorem suiting_resolveConnection (a : NewDraft) (w : Store) :
    Safe (suiting settings (some a)) (fun r t => ∀ n c, r = .ok (n, c) → Suits t n a.userId a.channel)
      (resolveConnection a.userId a.channel a.connectionId) w := by
  have hstable (r : Except GateExn (Nat × ConnectionRow)) : Prog.Stable (suiting settings (some a))
      fun t => ∀ n c, r = .ok (n, c) → Suits t n a.userId a.channel :=
    fun t u h hk _ n c he => (h n c he).kept hk
  unfold resolveConnection
  cases a.connectionId with
  | some id =>
    simp only [connectionById]
    rw [Prog.bind_assoc]
    refine Safe.perform (Prog.Stable.true _) trivial fun t e x u _ _ hok hs =>
      ⟨trivial, owed_of_idle (o := .connectionById id) rfl, ?_⟩
    obtain ⟨rfl, rfl⟩ := sem_connectionById hs
    cases hx : u.connections.get id with
    | none => exact Safe.ret (hstable _) fun _ _ he => by cases he
    | some connection =>
      refine Safe.ret (hstable _) fun n c he => ?_
      split at he
      · cases he
      · rename_i howner
        rw [not_not] at howner
        obtain ⟨rfl, rfl⟩ := Prod.mk.inj (Except.ok.inj he)
        exact ⟨connection, hx, howner, hok a connection rfl hx howner⟩
  | none =>
    refine Safe.perform (Prog.Stable.true _) trivial fun t e x u _ _ _ hs =>
      ⟨trivial, owed_of_idle (o := .firstConnection a.userId a.channel true) rfl, ?_⟩
    cases x with
    | some found =>
      obtain ⟨rfl, hsuits⟩ := sem_firstConnection_suits hs
      refine Safe.ret (hstable _) fun n c he => ?_
      obtain rfl := Except.ok.inj he
      exact hsuits
    | none =>
      refine Safe.idle (o := .firstConnection a.userId a.channel false) (Prog.Stable.true _) rfl trivial fun t broken _ => ?_
      exact Safe.ret (hstable _) fun _ _ he => by cases he

theorem idle_of_draftless (h : o.draftless = true) : idle o = true := by
  cases o <;> first | rfl | cases h

theorem suiting_createDraft (a : NewDraft) (w : Store) :
    Safe (suiting settings (some a)) (fun _ _ => True) (createDraft a) w := by
  unfold createDraft
  split
  · exact Safe.done
  · split
    · exact Safe.done
    · split
      · exact Safe.done
      · refine Safe.bind (Safe.mono (fun r t _ hr => ?_) (suiting_resolveConnection a w))
        cases r with
        | error e => exact Safe.done
        | ok found =>
          have hinert := inert_of_asks (asks_resolveRecipient a.channel a.recipient found.1)
          have hquiet : Safe (suiting settings (some a)) (fun _ _ => True)
              (resolveRecipient a.channel a.recipient found.1) t :=
            suiting_of_idle t (hinert.mono fun o ho => idle_of_draftless (Bool.and_eq_true_iff.1 ho).1)
          have hrec := Safe.frame (stable_suits found.1 a.userId a.channel) (fun _ _ _ _ _ _ _ hs => kept_of_sem hs)
            hinert (hr found.1 found.2 rfl) hquiet
          refine Safe.bind (Safe.mono (fun display u _ hu => ?_) hrec)
          exact Safe.perform (stable_suits found.1 a.userId a.channel) hu.2 fun _ _ _ _ hv _ _ _ =>
            ⟨trivial, hv, Safe.done⟩

/-- The call a request is, where it creates a draft. -/
def callOf : Request → Option NewDraft
  | .createDraft a => some a
  | _ => none

theorem suiting_request (r : Request) (w : Store) : Safe (suiting settings (callOf r)) (fun _ _ => True) r.prog w := by
  have hless {β : Type} {p : SendProg β} {call : Option NewDraft} (h : Uses (fun o => o.draftless = true) p) :
      Safe (suiting settings call) (fun _ _ => True) p w := suiting_of_idle w (h.mono fun o ho => idle_of_draftless ho)
  have discard {β : Type} {p : SendProg β} {call : Option NewDraft}
      (h : Safe (suiting settings call) (fun _ _ => True) p w) :
      Safe (suiting settings call) (fun _ _ => True) (do let _ ← p : SendProg Unit) w :=
    Safe.bind (Safe.mono (fun _ _ _ _ => Safe.done) h)
  cases r <;> rw [Request.prog] <;> apply discard
  case createDraft a => exact suiting_createDraft a w
  case updateDraft id userId c => exact hless (draftless_of_inert (inert_updateDraft id userId c))
  case sendDraft id userId confirmed => exact hless (draftless_of_editless (editless_sendDraft id userId confirmed))
  case operatorRetry id userId => exact hless (draftless_of_editless (editless_operatorRetry id userId))
  case resolveSend id userId resolution note =>
    exact hless (draftless_of_editless (editless_resolveSend id userId resolution note))

/-! ## Along a run -/

/-- What each process was called to do, where it creates a draft. -/
abbrev Calls := Nat → Option NewDraft

def noteCall (w : World) (a : Action) (calls : Calls) : Calls :=
  match a with
  | .call r => fun pid => if pid = w.procs.next then callOf r else calls pid
  | _ => calls

theorem noteCall_self (w : World) (r : Request) (calls : Calls) : noteCall w (.call r) calls w.procs.next = callOf r :=
  if_pos rfl

/-- The call of a process that is there already stays its own. -/
theorem noteCall_of_live {w : World} {pid : Nat} {p : Proc} {a : Action} {calls : Calls}
    (hp : w.procs.get pid = some p) : noteCall w a calls pid = calls pid := by
  cases a <;> try rfl
  case call r =>
    refine if_neg fun hpid => ?_
    rw [hpid, w.procs.get_next] at hp
    cases hp

/-- The system, with the calls beside it. -/
def called (settings : Settings) : Machine (World × Calls) Action := (system settings).withHistory noteCall fun _ => none

/-- A connection a `create_draft` call names is of the draft's channel, where it is the caller's. -/
def chosen (s : World × Calls) : Action → Bool
  | .step pid _ =>
    match s.2 pid, s.1.nextOp pid with
    | some a, some (.connectionById id) =>
      (s.1.store.connections.get id).all fun c => c.userId != a.userId || c.provider == a.channel
    | _, _ => true
  | _ => true

/-- The rest of a process's program keeps its contract. -/
def Going (settings : Settings) (call : Option NewDraft) (w : Store) : Proc → Prop
  | .exec _ _ _ body => Safe (suiting settings call) (fun _ _ => True) body w
  | .sweep _ _ body | .adrift body => Safe (suiting settings call) (fun _ _ => True) body w
  | .request body => Safe (suiting settings call) (fun _ _ => True) body w

theorem Going.kept {p : Proc} (h : Going settings call w p) (hk : Kept w w') : Going settings call w' p := by
  cases p <;> exact Safe.rely (c := suiting settings call) h hk

theorem Going.next {p p' : Proc} {x : o.Ans} {e : Env} (h : Going settings call w p) (hn : p.Next o x p')
    (hok : Granted call w o) (hs : sem settings o e w = some (x, w')) : Owed w o ∧ Going settings call w' p' := by
  cases hn <;>
  · obtain ⟨-, howed, hk⟩ := Safe.answer (c := suiting settings call) h trivial hok hs
    exact ⟨howed, hk⟩

def DraftsSuit (w : Store) : Prop := ∀ id d, w.drafts.get id = some d → Suits w d.connectionId d.userId d.channel

structure Suiting (settings : Settings) (w : World) (calls : Calls) : Prop where
  drafts : DraftsSuit w.store
  procs : ∀ pid p, w.procs.get pid = some p → Going settings (calls pid) w.store p

theorem DraftsSuit.did (h : DraftsSuit w) (hd : Did settings w o w') (hk : Kept w w') (ho : Owed w o) : DraftsSuit w' := by
  intro id d' hd'
  rcases hd.draft id with hs | ⟨_, edit, d, -, hdraft, -, hs⟩ | ⟨args, k, rfl, -, -, hs⟩
  · exact (h id d' (hs ▸ hd')).kept hk
  · rw [hs, Option.some.injEq] at hd'
    subst hd'
    exact (h id d hdraft).kept hk
  · rw [hs, Option.some.injEq] at hd'
    subst hd'
    exact Suits.kept ho hk

/-- A send's connection is its draft's, and so is its provider. -/
theorem suits_send (hd : DraftsSuit w) (hw : WellFormed w) {sid : Nat} {r : SendRow} (hr : w.sends.get sid = some r) :
    Suits w r.connectionId r.userId r.provider ∧ ∃ d, w.drafts.get r.draftId = some d ∧ d.channel = r.provider := by
  obtain ⟨d, hdraft, ho⟩ := hw.origin sid r hr
  have hsuits := hd r.draftId d hdraft
  simp only [DraftRow.origin, Prod.mk.injEq] at ho
  obtain ⟨hu, hn, hc, -⟩ := ho
  rw [hn, hu, hc] at hsuits
  exact ⟨hsuits, d, hdraft, hc⟩

variable {world t : World} {calls : Calls}

theorem granted_of_chosen (hd : DraftsSuit world.store) (hw : WellFormed world.store) {pid : Nat} {e : Env}
    (hok : chosen (world, calls) (.step pid e) = true) (ho : world.nextOp pid = some o) :
    Granted (calls pid) world.store o := by
  cases o <;> first | trivial | skip
  case loadSend id => exact fun r hr => (suits_send hd hw hr).1
  case connectionById id =>
    intro a c ha hc hu
    simp only [chosen, ha, ho, hc, Option.all_some, Bool.or_eq_true, bne_iff_ne, ne_eq, beq_iff_eq] at hok
    exact hok.resolve_left (not_not_intro hu)

/-- **Drafts stay on connections that suit them, and every program on what it owes.** -/
theorem Suiting.moved {a : Action} (h : Suiting settings world calls) (hw : WellFormed world.store)
    (hok : chosen (world, calls) a = true) (hm : Moved settings world a t) : Suiting settings t (noteCall world a calls) := by
  have hkept := kept_of_moved hm
  constructor
  · cases hm with
    | outside a store hout =>
      intro id d hd
      exact (h.drafts id d ((Store.outside_eq hout).2 ▸ hd)).kept hkept
    | ran pid e hp hn hs =>
      have hgranted := granted_of_chosen h.drafts hw hok (nextOp_of_next hp hn)
      exact h.drafts.did (did_of_sem hs) hkept ((h.procs pid _ hp).next hn hgranted hs).1
    | called | claimed | swept | raised | lost | aborted | executed | recovered | answered | crashed => exact h.drafts
  · intro pid p hp
    rcases hm.proc_cases hp with ⟨e, q, o, x, rfl, hq, hn, hs⟩ | hp | hbegins
    · have hgranted := granted_of_chosen h.drafts hw hok (nextOp_of_next hq hn)
      exact ((h.procs pid q hq).next hn hgranted hs).2
    · rw [noteCall_of_live hp]
      exact (h.procs pid p hp).kept hkept
    · cases hbegins with
      | raised => exact Safe.done
      | lost hsweep =>
        rw [noteCall_of_live hsweep]
        exact (h.procs pid _ hsweep).kept hkept
      | called r hpid =>
        subst hpid
        rw [noteCall_self]
        exact suiting_request r _
      | claimed worker limit locked job => exact suiting_handler job _
      | swept limit locked stale =>
        exact sweepJobs_safe (fun _ u => suiting_of_idle u (Uses.single rfl)) stale _
          fun job _ _ u => suiting_reconcileSend job.refId "" u

variable (settings) in
/-- An operation that contacts a provider can always be answered, and nothing is assumed of what it reads. -/
theorem answered_of_contacts {p : ProviderKind × Nat} (h : contacts o = some p) (call : Option NewDraft) (w : Store) :
    Granted call w o ∧ ∃ e x u, sem settings o e w = some (x, u) := by
  cases o <;> first | cases h | skip
  case prepare => exact ⟨trivial, .prepared (.error (.other "")), _, _, rfl⟩
  case sendCall => exact ⟨trivial, .none, _, _, rfl⟩
  case probe => exact ⟨trivial, .probed (.error (.other "")), _, _, rfl⟩
  case discard => exact ⟨trivial, .finished (.ok ()), _, _, rfl⟩

theorem Suiting.presented (h : Suiting settings world calls) {pid : Nat} (ho : world.nextOp pid = some o) :
    misplaced world.store o = false := by
  cases hc : contacts o with
  | none =>
    unfold misplaced
    rw [hc]
    rfl
  | some p =>
    obtain ⟨hgranted, e, x, u, hs⟩ := answered_of_contacts settings hc (calls pid) world.store
    obtain ⟨q, q', hq, hn⟩ := next_of_nextOp ho x
    have howed : Owed world.store o := ((h.procs pid q hq).next hn hgranted hs).1
    refine Placed.not_misplaced ?_
    cases o <;> first | exact howed | cases hc

/-- **Where every connection that is named fits its draft, everything does**: in every state reached, each draft and each
send is on a connection of its owner and its own provider, and no provider is shown another's credential. -/
theorem credentials_fit {s : World × Calls} (h : (called settings).Reach (fun s a => chosen s a = true) s) :
    Fitting s.1 := by
  have key : Coherent settings s.1 ∧ Suiting settings s.1 s.2 := by
    refine Machine.Reach.inv (I := fun s => Coherent settings s.1 ∧ Suiting settings s.1 s.2) ⟨?_, ?_, ?_⟩
      (fun s a t _ hi hok hs => ?_) h
    · have hstart : (system settings).Reach (fun _ _ => True) (system settings).init := Machine.Reach.init
      exact reach_coherent hstart
    · intro _ _ hd
      cases hd
    · intro _ _ hp
      cases hp
    · obtain ⟨hstep, hnote⟩ := Machine.withHistory_step hs
      have hm := moved_of_step hstep
      rw [hnote]
      exact ⟨hi.1.moved hm, hi.2.moved hi.1.store hok hm⟩
  obtain ⟨hc, hs⟩ := key
  exact ⟨hs.drafts, fun _ _ hr => suits_send hs.drafts hc.store hr, fun _ _ ho => hs.presented ho⟩

/-- The sample's draft is on the connection its channel defaults to, and its message is at the provider. -/
theorem credentials_fit_sample :
    ∃ s, (called {}).exec (called {}).init (sampleRun ++ sampleDelivery 2 0) = some s ∧
      (s.1.store.sends.get 0).isSome = true ∧ Fitting s.1 := by
  have hrun : ((called {}).exec (called {}).init (sampleRun ++ sampleDelivery 2 0)).any
      (fun s => (s.1.store.sends.get 0).isSome) = true := by decide +kernel
  have hall : (called {}).allowed chosen (called {}).init (sampleRun ++ sampleDelivery 2 0) = true := by decide +kernel
  obtain ⟨s, hs, -, hsend⟩ := Machine.reach_of_exec hrun
  exact ⟨s, hs, hsend, credentials_fit (Machine.Steps.of_exec (fun _ _ h => h) hs hall)⟩

/-- An email drafted on the user's Slack connection, confirmed, and about to be prepared at Gmail. -/
def slackForGmail : List Action := [
  .connect { userId := 1, provider := .slack, displayName := "Acme" },
  .call (.createDraft { userId := 1, channel := .gmail, recipient := "b@acme.example", body := "hello", connectionId := some 0 }),
  .step 0 .none, .step 0 (.key sampleKey), .finish 0 "" noDraw,
  .call (.sendDraft 0 1 (some (confirmationDigest .gmail "b@acme.example" "b@acme.example" none "hello"))),
  .step 1 .none, .step 1 .none, .step 1 .none, .step 1 .none, .finish 1 "" noDraw,
  .claim "host:1" 5 (fun _ => false), .step 2 .none, .step 2 .none]

/-- The workspace's bot token goes to Google. -/
theorem slack_token_to_gmail : ¬ ∀ w, (system {}).Reach (fun _ _ => True) w → Fitting w := by
  intro hclaim
  have hrun : ((system {}).exec (system {}).init slackForGmail).any
      (fun w => (w.nextOp 2).any (misplaced w.store)) = true := by decide +kernel
  obtain ⟨w, -, hreach, hbad⟩ := Machine.reach_of_exec hrun
  obtain ⟨o, ho, hbad⟩ := (Option.any_eq_true _ _).1 hbad
  rw [(hclaim w hreach).presented 2 o ho] at hbad
  cases hbad

end Suited
end Send
end SafeSend
