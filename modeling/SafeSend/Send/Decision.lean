import SafeSend.Send.WellFormed
/-!
# The decision table

What `send_draft` answers for a draft, in any state that drafts, edits, sends and the worker can lead to.  The draft's
own send is the one its key finds, and its connection is still there to be read.
-/
namespace SafeSend
namespace Send

open Lib
open Lib.Prog (Uses Safe Contract Runs)
open Queue (ClaimedJob Recovery)

/-! ## The draft's connection -/

def Linked (w : Store) : Prop := ∀ id d, w.drafts.get id = some d → (w.connections.get d.connectionId).isSome

/-- No connection is forgotten. -/
def Lasting (w w' : Store) : Prop := ∀ n, (w.connections.get n).isSome → (w'.connections.get n).isSome

/-- A draft is booked on a connection that exists. -/
def Books (w : Store) : Op → Prop
  | .insertDraft args => (w.connections.get args.connectionId).isSome
  | _ => True

def linking (settings : Settings) : Contract Op Op.Ans Env Store where
  sem := sem settings
  ok _ _ _ := True
  inv _ := True
  rely := Lasting
  guar o w _ := Books w o
  refl _ _ h := h
  trans h h' n hn := h' n (h n hn)

variable {settings : Settings} {o : Op} {w w' : Store} {α : Type}

theorem Did.lasting (h : Did settings w o w') : Lasting w w' := by
  cases h with
  | connection _ connections hkept => exact fun n hn => (hkept n).trans hn
  | _ => exact fun _ hn => hn

theorem Linked.did (h : Linked w) (hd : Did settings w o w') (hb : Books w o) : Linked w' := by
  intro id d' hd'
  rcases hd.draft id with hs | ⟨_, edit, d, -, hdraft, -, hs⟩ | ⟨args, k, rfl, -, -, hs⟩
  · exact hd.lasting _ (h id d' (hs ▸ hd'))
  · rw [hs, Option.some.injEq] at hd'
    subst hd'
    exact hd.lasting _ (h id d hdraft)
  · rw [hs, Option.some.injEq] at hd'
    subst hd'
    exact hd.lasting _ hb

theorem books_of_draftless (h : o.draftless = true) : Books w o := by
  cases o <;> first | cases h; done | trivial

theorem books_of_worker (h : o.api = false) : Books w o := by
  cases o <;> first | cases h; done | trivial

/-- A program none of whose operations books a draft. -/
theorem linking_of_uses : ∀ {p : SendProg α} (w : Store), Uses (fun o => ∀ w, Books w o) p →
    Safe (linking settings) (fun _ _ => True) p w
  | .ret _, _, _ => Safe.done
  | .op _ _, _, h => Safe.op (Prog.Stable.true _) trivial fun t _ x u _ _ _ _ =>
    ⟨trivial, (Uses.op_iff.1 h).1 t, linking_of_uses u ((Uses.op_iff.1 h).2 x)⟩

theorem stable_connection (n : Nat) : Prog.Stable (linking settings) fun w => (w.connections.get n).isSome :=
  fun _ _ h hr _ => hr n h

theorem sem_connectionById {n : Nat} {e : Env} {x : Option ConnectionRow}
    (h : sem settings (.connectionById n) e w = some (x, w')) : w' = w ∧ x = w.connections.get n := by
  cases e <;> first | exact answer_of_some h | cases h

theorem sem_firstConnection {userId : Nat} {provider : ProviderKind} {activeOnly : Bool} {e : Env}
    {x : Option (Nat × ConnectionRow)} (h : sem settings (.firstConnection userId provider activeOnly) e w = some (x, w')) :
    w' = w ∧ ∀ n c, x = some (n, c) → w.connections.get n = some c := by
  cases e <;> first | cases h; done | skip
  obtain ⟨rfl, rfl⟩ := answer_of_some h
  exact ⟨rfl, fun n c hf => (Table.first_eq_some hf).1⟩

/-- **A connection that was resolved is there.** -/
theorem linking_resolveConnection (userId : Nat) (channel : ProviderKind) (connectionId : Option Nat) (w : Store) :
    Safe (linking settings) (fun r t => ∀ n c, r = .ok (n, c) → (t.connections.get n).isSome)
      (resolveConnection userId channel connectionId) w := by
  have hstable (r : Except GateExn (Nat × ConnectionRow)) :
      Prog.Stable (linking settings) fun t => ∀ n c, r = .ok (n, c) → (t.connections.get n).isSome :=
    fun t u h hr _ n c he => hr n (h n c he)
  unfold resolveConnection
  cases connectionId with
  | some id =>
    simp only [connectionById]
    rw [Prog.bind_assoc]
    refine Safe.perform (Prog.Stable.true _) trivial fun t e x u _ _ _ hs => ⟨trivial, trivial, ?_⟩
    obtain ⟨rfl, rfl⟩ := sem_connectionById hs
    cases hx : u.connections.get id with
    | none => exact Safe.ret (hstable _) fun _ _ he => nomatch he
    | some connection =>
      refine Safe.ret (hstable _) fun n c he => ?_
      split at he
      · cases he
      · obtain ⟨rfl, -⟩ := Prod.mk.inj (Except.ok.inj he)
        rw [hx]
        rfl
  | none =>
    refine Safe.perform (Prog.Stable.true _) trivial fun t e x u _ _ _ hs => ⟨trivial, trivial, ?_⟩
    obtain ⟨rfl, hfound⟩ := sem_firstConnection hs
    cases x with
    | some found =>
      refine Safe.ret (hstable _) fun n c he => ?_
      rw [hfound n c (congrArg some (Except.ok.inj he))]
      rfl
    | none =>
      refine Safe.perform (Prog.Stable.true _) trivial fun t e x u _ _ _ _ => ⟨trivial, trivial, ?_⟩
      exact Safe.ret (hstable _) fun _ _ he => nomatch he

theorem linking_createDraft (a : NewDraft) (w : Store) :
    Safe (linking settings) (fun _ _ => True) (createDraft a) w := by
  unfold createDraft
  split
  · exact Safe.done
  · split
    · exact Safe.done
    · split
      · exact Safe.done
      · refine Safe.bind (Safe.mono (fun r t _ hr => ?_) (linking_resolveConnection a.userId a.channel a.connectionId w))
        cases r with
        | error e => exact Safe.done
        | ok found =>
          have hbooked : Prog.Stable (linking settings) fun w => (w.connections.get found.1).isSome :=
            stable_connection found.1
          have hinert := inert_of_asks (asks_resolveRecipient a.channel a.recipient found.1)
          have hquiet : Safe (linking settings) (fun _ _ => True) (resolveRecipient a.channel a.recipient found.1) t :=
            linking_of_uses t (hinert.mono fun o ho _ => books_of_draftless (Bool.and_eq_true_iff.1 ho).1)
          have hrec := Safe.frame hbooked (fun _ _ _ _ _ _ _ hs => (did_of_sem hs).lasting) hinert
            (hr found.1 found.2 rfl) hquiet
          refine Safe.bind (Safe.mono (fun display u _ hu => ?_) hrec)
          exact Safe.perform hbooked hu.2 fun _ _ _ _ hv _ _ _ => ⟨trivial, hv, Safe.done⟩

theorem linking_request (r : Request) (w : Store) : Safe (linking settings) (fun _ _ => True) r.prog w := by
  have hless {β : Type} {p : SendProg β} (h : Uses (fun o => o.draftless = true) p) :
      Safe (linking settings) (fun _ _ => True) p w := linking_of_uses w (h.mono fun o ho _ => books_of_draftless ho)
  have discard {β : Type} {p : SendProg β} (h : Safe (linking settings) (fun _ _ => True) p w) :
      Safe (linking settings) (fun _ _ => True) (do let _ ← p : SendProg Unit) w :=
    Safe.bind (Safe.mono (fun _ _ _ _ => Safe.done) h)
  cases r <;> rw [Request.prog] <;> apply discard
  case createDraft a => exact linking_createDraft a w
  case updateDraft id userId c => exact hless (draftless_of_inert (inert_updateDraft id userId c))
  case sendDraft id userId confirmed => exact hless (draftless_of_editless (editless_sendDraft id userId confirmed))
  case operatorRetry id userId => exact hless (draftless_of_editless (editless_operatorRetry id userId))
  case resolveSend id userId resolution note =>
    exact hless (draftless_of_editless (editless_resolveSend id userId resolution note))

def Proc.Linking (settings : Settings) (w : Store) : Proc → Prop
  | .exec _ _ _ body => Safe (linking settings) (fun _ _ => True) body w
  | .sweep _ _ body | .adrift body => Safe (linking settings) (fun _ _ => True) body w
  | .request body => Safe (linking settings) (fun _ _ => True) body w

theorem Proc.Linking.lasting {p : Proc} (h : p.Linking settings w) (hl : Lasting w w') : p.Linking settings w' := by
  cases p <;> exact Safe.rely (c := linking settings) h hl

theorem Proc.Linking.next {p p' : Proc} {x : o.Ans} {e : Env} (h : p.Linking settings w) (hn : p.Next o x p')
    (hs : sem settings o e w = some (x, w')) : Books w o ∧ p'.Linking settings w' := by
  cases hn <;>
  · obtain ⟨-, hbooks, hk⟩ := Safe.answer (c := linking settings) h trivial trivial hs
    exact ⟨hbooks, hk⟩

theorem Store.outside_lasting {a : Action} (h : w.outside settings a = some w') : Lasting w w' := by
  cases a <;> simp only [Store.outside, Option.some.injEq, reduceCtorEq] at h <;> subst h <;> intro n hn
  case connect row =>
    obtain ⟨c, hc⟩ := Option.isSome_iff_exists.1 hn
    exact Option.isSome_iff_exists.2 ⟨c, Table.get_insert_of_get row hc⟩
  case connectionStatus id status => exact (w.connections.isSome_get_modify id _ n).trans hn
  all_goals exact hn

structure Linking (settings : Settings) (w : World) : Prop where
  store : Linked w.store
  procs : ∀ pid p, w.procs.get pid = some p → p.Linking settings w.store

theorem Moved.lasting {w t : World} {a : Action} (h : Moved settings w a t) : Lasting w.store t.store := by
  rcases h.store with ⟨_, _, _, _, _, _, -, -, hs, -⟩ | hout | ⟨jobs, he⟩
  · exact (did_of_sem hs).lasting
  · exact Store.outside_lasting hout
  · rw [he]
    exact fun _ hn => hn

theorem Linking.moved {w t : World} {a : Action} (h : Linking settings w) (hm : Moved settings w a t) :
    Linking settings t where
  store := by
    rcases hm.store with ⟨pid, p, p', o, x, e, hp, hn, hs, -⟩ | hout | ⟨jobs, he⟩
    · exact h.store.did (did_of_sem hs) ((h.procs pid p hp).next hn hs).1
    · intro id d hd
      exact hm.lasting _ (h.store id d ((Store.outside_eq hout).2 ▸ hd))
    · rw [he]
      exact h.store
  procs pid p hp := by
    cases hm.proc hp with
    | kept pid hp => exact (h.procs pid p hp).lasting hm.lasting
    | ran pid e hp hn hs => exact ((h.procs pid _ hp).next hn hs).2
    | raised => exact Safe.done
    | lost pid hsweep => exact (h.procs pid _ hsweep).lasting hm.lasting
    | called r => exact linking_request r _
    | claimed job => exact linking_of_uses _ ((worker_handler job).mono fun _ ho _ => books_of_worker ho)
    | swept stale =>
      exact linking_of_uses _ ((worker_of_quiet (quiet_sweepJobs stale)).mono fun _ ho _ => books_of_worker ho)

/-- **A draft's connection is there to be read**, in every reachable state. -/
theorem reach_linked {ok : World → Action → Prop} {w : World} (h : (system settings).Reach ok w) : Linked w.store :=
  have hl : Linking settings w := Machine.Reach.inv ⟨fun _ _ hd => (nomatch hd), fun _ _ hp => (nomatch hp)⟩
    (fun _ _ _ _ hi _ hs => hi.moved (moved_of_step hs)) h
  hl.store

/-! ## A call on its own

A call no other process comes between: what its parts answer. -/

variable {id userId : Nat} {t : Store}

theorem runs_connectionById {r : Except GateExn ConnectionRow} {c : ConnectionRow} (hc : w.connections.get id = some c)
    (h : Runs (sem settings) (connectionById id) w r t) : t = w ∧ r = .ok c := by
  unfold connectionById at h
  obtain ⟨e, x, u, hs, h⟩ := Prog.runs_perform h
  obtain ⟨rfl, rfl⟩ := sem_connectionById hs
  rw [hc] at h
  obtain ⟨rfl, rfl⟩ := Prog.runs_ret h
  exact ⟨rfl, rfl⟩

theorem runs_getDraft {r : Except GateExn DraftView} {d : DraftRow} {c : ConnectionRow} (hd : w.drafts.get id = some d)
    (hc : w.connections.get d.connectionId = some c) (h : Runs (sem settings) (getDraft id d.userId) w r t) :
    t = w ∧ r = .ok (draftView id d d.connectionId c) := by
  unfold getDraft at h
  obtain ⟨e, x, u, hs, h⟩ := Prog.runs_perform h
  obtain ⟨rfl, rfl⟩ := sem_draftOf hs
  rw [hd, Option.filter_some, if_pos (beq_self_eq_true _)] at h
  obtain ⟨r', v, hr, h⟩ := Prog.runs_bind h
  obtain ⟨rfl, rfl⟩ := runs_connectionById hc hr
  obtain ⟨rfl, rfl⟩ := Prog.runs_ret h
  exact ⟨rfl, rfl⟩

theorem sem_clock {e : Env} {x : Nat} (h : sem settings .clock e w = some (x, w')) : w' = w ∧ x = w.now := by
  cases e <;> first | exact answer_of_some h | cases h

theorem sem_loadSendByKey {key : String} {e : Env} {x : Option (Nat × SendRow)}
    (h : sem settings (.loadSendByKey userId key) e w = some (x, w')) : w' = w ∧ x = w.sendByKey userId key := by
  cases e <;> first | exact answer_of_some h | cases h

theorem sem_claimAndEnqueue {a : ClaimArgs} {e : Env} {x : ClaimResult}
    (h : sem settings (.claimAndEnqueue a) e w = some (x, w')) : (x, w') = w.claimAndEnqueue settings a := by
  cases e <;> first | exact (Option.some.inj h).symm | cases h

/-- The replay of a send under the digest it was confirmed with. -/
def replayed (id : Nat) (row : SendRow) (now : Nat) : SendOutcome :=
  ⟨sendPayload id row (some (replaySource row.createdAt now)), 200, true⟩

theorem runs_replay {row : SendRow} {confirmed : String} {a : Except GateExn SendOutcome}
    (h : Runs (sem settings) (replay id row confirmed) w a t) :
    t = w ∧ a = if row.confirmedSha256 = confirmed then .ok (replayed id row w.now) else .error bodyMismatch := by
  unfold replay at h
  by_cases hc : row.confirmedSha256 = confirmed
  · rw [if_neg (not_not_intro hc), replayPayload] at h
    rw [if_pos hc]
    obtain ⟨e, x, u, hs, h⟩ := Prog.runs_perform h
    obtain ⟨rfl, rfl⟩ := sem_clock hs
    obtain ⟨rfl, rfl⟩ := Prog.runs_ret h
    exact ⟨rfl, rfl⟩
  · rw [if_pos hc] at h
    rw [if_neg hc]
    obtain ⟨rfl, rfl⟩ := Prog.runs_ret h
    exact ⟨rfl, rfl⟩

/-- What a claim of the draft is made with. -/
def claimOf (id : Nat) (d : DraftRow) (confirmed : String) : ClaimArgs :=
  ⟨d.userId, id, d.connectionId, d.channel, d.idempotencyKey, confirmed⟩

/-- **The decision table as the code walks it**: the three checks in their order. -/
theorem runs_sendDraft {d : DraftRow} {c : ConnectionRow} {digest : Option String} {a : Except GateExn SendOutcome}
    (hd : w.drafts.get id = some d) (hc : w.connections.get d.connectionId = some c)
    (h : Runs (sem settings) (sendDraft id d.userId digest) w a t) :
    (truthy digest = false ∧ t = w ∧ a = .error confirmationRequired) ∨
      truthy digest = true ∧
        ((∃ sid r, w.sendByKey d.userId d.idempotencyKey = some (sid, r) ∧ t = w ∧
            a = if r.confirmedSha256 = digest.getD "" then .ok (replayed sid r w.now) else .error bodyMismatch) ∨
          w.sendByKey d.userId d.idempotencyKey = none ∧
            ((digest.getD "" ≠ d.digest ∧ t = w ∧ a = .error bodyChanged) ∨
              digest.getD "" = d.digest ∧
                t = (w.claimAndEnqueue settings (claimOf id d d.digest)).2 ∧
                a = .ok ⟨sendPayload w.sends.next (Store.newSend w.now (claimOf id d d.digest)) none, 201, false⟩)) := by
  unfold sendDraft at h
  obtain ⟨r, u, hr, h⟩ := Prog.runs_bind h
  obtain ⟨rfl, rfl⟩ := runs_getDraft hd hc hr
  cases ht : truthy digest with
  | false =>
    simp only [ht, Bool.not_false, if_true] at h
    obtain ⟨rfl, rfl⟩ := Prog.runs_ret h
    exact .inl ⟨rfl, rfl, rfl⟩
  | true =>
    simp only [ht, Bool.not_true, Bool.false_eq_true, if_false] at h
    refine .inr ⟨rfl, ?_⟩
    obtain ⟨e, x, v, hs, h⟩ := Prog.runs_perform h
    obtain ⟨rfl, rfl⟩ := sem_loadSendByKey hs
    cases hx : v.sendByKey d.userId d.idempotencyKey with
    | some found =>
      simp only [draftView, hx] at h
      obtain ⟨rfl, rfl⟩ := runs_replay h
      exact .inl ⟨found.1, found.2, rfl, rfl, rfl⟩
    | none =>
      rw [show v.sendByKey d.userId (draftView id d d.connectionId c).draft.idempotencyKey = none from hx] at h
      dsimp only at h
      refine .inr ⟨rfl, ?_⟩
      by_cases hdig : digest.getD "" = (draftView id d d.connectionId c).confirmation.confirmSha256
      · rw [if_neg (not_not_intro hdig), hdig] at h
        obtain ⟨e, x, v', hs, h⟩ := Prog.runs_perform h
        have hclaim : (x, v') = v.claimAndEnqueue settings (claimOf id d d.digest) := sem_claimAndEnqueue hs
        have hwon : x = ⟨v.sends.next, Store.newSend v.now (claimOf id d d.digest), true⟩ := by
          have hfst := congrArg Prod.fst hclaim
          simpa only [claimOf, Store.claimAndEnqueue, hx] using hfst
        subst hwon
        obtain ⟨rfl, rfl⟩ := Prog.runs_ret h
        exact .inr ⟨hdig, congrArg Prod.snd hclaim, rfl⟩
      · rw [if_pos hdig] at h
        obtain ⟨rfl, rfl⟩ := Prog.runs_ret h
        exact .inl ⟨hdig, rfl, rfl⟩

/-! ## The table -/

/-- What the first send of a draft books: one send, and its job. -/
def Store.withSend (settings : Settings) (w : Store) (row : SendRow) : Store :=
  { w with
    sends := w.sends.insert row
    jobs := w.jobs.insert (Queue.newRow settings w.now (Store.sendJob w.sends.next row)) }

/-- The answers to a call with `digest` on the draft `id`, whose row is `d`. -/
structure DecisionTable (settings : Settings) (w : Store) (id : Nat) (d : DraftRow) (digest : Option String)
    (a : Except GateExn SendOutcome) (t : Store) : Prop where
  /-- An empty digest is none. -/
  unconfirmed : digest = none ∨ digest = some "" → t = w ∧ a = .error confirmationRequired
  existing : ∀ c sid r, digest = some c → c ≠ "" → w.sends.get sid = some r → r.draftId = id →
    t = w ∧ a = if r.confirmedSha256 = c then .ok (replayed sid r w.now) else .error bodyMismatch
  changed : ∀ c, digest = some c → c ≠ "" → (∀ sid r, w.sends.get sid = some r → r.draftId ≠ id) → c ≠ d.digest →
    t = w ∧ a = .error bodyChanged
  created : ∀ c, digest = some c → c ≠ "" → (∀ sid r, w.sends.get sid = some r → r.draftId ≠ id) → c = d.digest →
    t = w.withSend settings (Store.newSend w.now (claimOf id d c)) ∧
      a = .ok ⟨sendPayload w.sends.next (Store.newSend w.now (claimOf id d c)) none, 201, false⟩

/-- The send under a draft's key is the draft's. -/
theorem sendByKey_iff (hw : WellFormed w) {d : DraftRow} (hd : w.drafts.get id = some d) {sid : Nat} {r : SendRow} :
    w.sendByKey d.userId d.idempotencyKey = some (sid, r) ↔ w.sends.get sid = some r ∧ r.draftId = id := by
  constructor
  · intro h
    obtain ⟨hr, -, hkey⟩ := sendByKey_eq_some h
    obtain ⟨e, he, ho⟩ := hw.origin sid r hr
    simp only [DraftRow.origin, Prod.mk.injEq] at ho
    exact ⟨hr, hw.keys _ _ e d he hd (ho.2.2.2.trans hkey)⟩
  · rintro ⟨hr, rfl⟩
    obtain ⟨e, he, ho⟩ := hw.origin sid r hr
    obtain rfl := Option.some.inj (hd.symm.trans he)
    simp only [DraftRow.origin, Prod.mk.injEq] at ho
    cases hs : w.sendByKey d.userId d.idempotencyKey with
    | none => exact absurd ⟨ho.1.symm, ho.2.2.2.symm⟩ (sendByKey_eq_none hs hr)
    | some found =>
      obtain ⟨n, q⟩ := found
      obtain ⟨hq, -, hkey⟩ := sendByKey_eq_some hs
      obtain rfl := hw.key_inj hq hr (hkey.trans ho.2.2.2)
      rw [hr] at hq
      rw [Option.some.inj hq]

/-- The key of a send not yet inserted is no job's. -/
theorem claim_withSend (hw : WellFormed w) {a : ClaimArgs} (hfree : w.sendByKey a.userId a.idempotencyKey = none) :
    (w.claimAndEnqueue settings a).2 = w.withSend settings (Store.newSend w.now a) := by
  have hdup : Queue.duplicate w.jobs (some (sendKey w.sends.next)) = false := by
    simp only [Queue.duplicate, Option.isSome_some, Bool.true_and]
    refine Table.any_eq_false.2 fun n j hj => ?_
    cases hk : j.dedupeKey == some (sendKey w.sends.next) with
    | false => rfl
    | true =>
      obtain ⟨r, hr⟩ := hw.named n j _ hj (beq_iff_eq.1 hk)
      rw [w.sends.get_next] at hr
      cases hr
  have henq : (Queue.enqueue settings w.now w.jobs (Store.sendJob w.sends.next (Store.newSend w.now a))).2 =
      w.jobs.insert (Queue.newRow settings w.now (Store.sendJob w.sends.next (Store.newSend w.now a))) := by
    unfold Queue.enqueue
    rw [show Queue.duplicate w.jobs (Store.sendJob _ _).dedupeKey = false from hdup]
    rfl
  simp only [Store.claimAndEnqueue, hfree, Store.withSend, henq]

theorem decides_of_runs (hw : WellFormed w) {d : DraftRow} {c : ConnectionRow} {digest : Option String}
    {a : Except GateExn SendOutcome} (hd : w.drafts.get id = some d) (hc : w.connections.get d.connectionId = some c)
    (h : Runs (sem settings) (sendDraft id d.userId digest) w a t) : DecisionTable settings w id d digest a t := by
  have hgiven {c : String} (hdig : digest = some c) (hne : c ≠ "") : truthy digest = true := by
    simp only [hdig, truthy, Option.any_some, Bool.not_eq_true', String.isEmpty_eq_false_iff]
    exact hne
  have hfree (hnone : ∀ sid r, w.sends.get sid = some r → r.draftId ≠ id) :
      w.sendByKey d.userId d.idempotencyKey = none :=
    Option.eq_none_iff_forall_ne_some.2 fun found hf =>
      hnone found.1 found.2 ((sendByKey_iff hw hd).1 hf).1 ((sendByKey_iff hw hd).1 hf).2
  rcases runs_sendDraft hd hc h with ⟨ht, rfl, rfl⟩ | ⟨ht, ⟨sid, r, hs, rfl, rfl⟩ | ⟨hnone, hrest⟩⟩
  · refine ⟨fun _ => ⟨rfl, rfl⟩, fun c _ _ hdig hne => ?_, fun c hdig hne => ?_, fun c hdig hne => ?_⟩ <;>
    · rw [hgiven hdig hne] at ht
      cases ht
  · refine ⟨?_, fun c sid' r' hdig _ hr' hid => ?_, fun c _ _ hn => ?_, fun c _ _ hn => ?_⟩
    · rintro (rfl | rfl) <;> cases ht
    · rw [(sendByKey_iff hw hd).2 ⟨hr', hid⟩, Option.some.injEq, Prod.mk.injEq] at hs
      obtain ⟨rfl, rfl⟩ := hs
      exact ⟨rfl, by rw [hdig, Option.getD_some]⟩
    all_goals
      rw [hfree hn] at hs
      cases hs
  · refine ⟨?_, fun c sid r _ _ hr hid => ?_, fun c hdig _ _ hne => ?_, fun c hdig _ _ heq => ?_⟩
    · rintro (rfl | rfl) <;> cases ht
    · rw [(sendByKey_iff hw hd).2 ⟨hr, hid⟩] at hnone
      cases hnone
    · rcases hrest with ⟨-, rfl, rfl⟩ | ⟨he, -, -⟩
      · exact ⟨rfl, rfl⟩
      · rw [hdig] at he
        exact absurd he hne
    · rcases hrest with ⟨he, -, -⟩ | ⟨-, rfl, rfl⟩
      · rw [hdig] at he
        exact absurd heq he
      · rw [heq]
        exact ⟨claim_withSend hw hnone, rfl⟩

theorem answered_of_draftless (settings : Settings) {o : Op} (h : o.draftless = true) (w : Store) :
    ∃ e x t, sem settings o e w = some (x, t) := by
  cases o <;> first | cases h; done | exact ⟨.none, _, _, rfl⟩ | exact ⟨.named none, _, _, rfl⟩

/-- **The send decision table**, in every state reachable by any steps: a call on a draft is answered, and its answers
and what it leaves are the table's; and no draft has two sends. -/
theorem send_draft_decides {ok : World → Action → Prop} {world : World} (h : (system settings).Reach ok world)
    {d : DraftRow} (hd : world.store.drafts.get id = some d) (digest : Option String) :
    (∃ a t, Runs (sem settings) (sendDraft id d.userId digest) world.store a t) ∧
      (∀ a t, Runs (sem settings) (sendDraft id d.userId digest) world.store a t →
        DecisionTable settings world.store id d digest a t) ∧
      ∀ m n r q, world.store.sends.get m = some r → world.store.sends.get n = some q → r.draftId = id → q.draftId = id →
        m = n := by
  have hw := (reach_coherent h).store
  obtain ⟨c, hc⟩ := Option.isSome_iff_exists.1 (reach_linked h id d hd)
  refine ⟨?_, fun a t hr => decides_of_runs hw hd hc hr, fun m n r q hr hq hm hn => hw.draft_inj hr hq (hm.trans hn.symm)⟩
  have hless := draftless_of_editless (editless_sendDraft id d.userId digest)
  exact Prog.runs_of_uses (hless.mono fun o ho => answered_of_draftless settings ho) _

/-- The sample's draft, sent once: the same call again. -/
theorem send_draft_decides_again :
    ∃ w d, (system {}).exec {} sampleRun = some w ∧ w.store.drafts.get 0 = some d ∧
      ∃ a t, Runs (sem {}) (sendDraft 0 d.userId (some sampleDigest)) w.store a t ∧
        DecisionTable {} w.store 0 d (some sampleDigest) a t := by
  have hrun : ((system {}).exec (system {}).init sampleRun).any (fun w => (w.store.drafts.get 0).isSome) = true := by
    decide +kernel
  obtain ⟨w, hw, hreach, hd⟩ := Machine.reach_of_exec hrun
  obtain ⟨d, hd⟩ := Option.isSome_iff_exists.1 hd
  obtain ⟨⟨a, t, hr⟩, hall, -⟩ := send_draft_decides hreach hd (some sampleDigest)
  exact ⟨w, d, hw, hd, a, t, hr, hall a t hr⟩

end Send
end SafeSend
