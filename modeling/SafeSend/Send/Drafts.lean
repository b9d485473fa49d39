import SafeSend.Send.WellFormed
/-!
# What every draft keeps

A law of drafts: something that holds of a draft as it is created, and of a draft as it is edited if it held before.  A
call writes what it has read and resolved a few steps earlier, so the law is asked of an edit that was made from one
row and lands on another of the same origin.
-/
namespace SafeSend
namespace Send

open Lib
open Lib.Prog (Uses Safe Contract)

/-- What a recipient may be displayed as, where the provider may give these names. -/
def Displays (named : String → Nat → Option String → Prop) (channel : ProviderKind) (recipient : String)
    (connectionId : Nat) (display : String) : Prop :=
  if channel = .gmail ∨ Text.startsWith recipient "#" then display = recipient
  else ∃ r, named recipient connectionId r ∧ display = if truthy r then r.getD "" else knownChannel recipient

/-- What an edit made from the row displays the next recipient as. -/
def NextDisplay (named : String → Nat → Option String → Prop) (d : DraftRow) (next display : String) : Prop :=
  if next = d.recipient then display = d.recipientDisplay else Displays named d.channel next d.connectionId display

/-- What a change writes, made from the row. -/
def DraftChange.edit (c : DraftChange) (d : DraftRow) (display : String) : DraftEdit :=
  ⟨c.recipient.getD d.recipient, display, c.subject, c.body⟩

structure DraftLaw where
  /-- The names the provider may give channels. -/
  named : String → Nat → Option String → Prop
  /-- The changes that are asked for. -/
  asked : DraftChange → Prop
  good : DraftRow → Prop

namespace DraftLaw

/-- The law is kept by what creates a draft and by what edits one. -/
structure Kept (l : DraftLaw) : Prop where
  created : ∀ (a : NewDraft) (connectionId : Nat) (display key : String), Text.blank a.body = false →
    Text.blank a.recipient = false → (a.subject.isSome → a.channel = .gmail) →
    Displays l.named a.channel a.recipient connectionId display →
    l.good (Store.newDraft ⟨a.userId, connectionId, a.channel, a.recipient, display, a.subject, a.body⟩ key)
  edited : ∀ (userId : Nat) (c : DraftChange) (d d' : DraftRow) (display : String), l.asked c → l.good d → l.good d' →
    d'.origin = d.origin → NextDisplay l.named d (c.recipient.getD d.recipient) display →
    Store.editAllowed userId (c.edit d display) d' = true → l.good (Store.editRow (c.edit d display) d')

/-- Every draft is good. -/
def Holds (l : DraftLaw) (w : Store) : Prop := ∀ id d, w.drafts.get id = some d → l.good d

/-- The provider names channels as the law says, and calls ask for the changes it says. -/
def allows (l : DraftLaw) (w : World) : Action → Prop
  | .call (.updateDraft _ _ c) => l.asked c
  | .step pid e => ∀ recipient connectionId r, w.nextOp pid = some (.channelName recipient connectionId) →
    e = .named r → l.named recipient connectionId r
  | _ => True

end DraftLaw

variable {l : DraftLaw} {settings : Settings} {w w' : Store} {o : Op}

/-- A channel's name is one the provider may give. -/
def Given (l : DraftLaw) : Op → Env → Prop
  | .channelName recipient connectionId, e => ∀ r, e = .named r → l.named recipient connectionId r
  | _, _ => True

/-- Programs count on good drafts, on origins that stay and on the provider's names. -/
def drafting (settings : Settings) (l : DraftLaw) : Contract Op Op.Ans Env Store where
  sem := sem settings
  ok o e _ := Given l o e
  inv := l.Holds
  rely := Extends
  guar _ _ _ := True
  refl := Extends.refl
  trans := Extends.trans

theorem DraftLaw.Holds.did (h : l.Holds w) (hd : Did settings w o w')
    (hbook : ∀ args k, o = .insertDraft args → l.good (Store.newDraft args k))
    (hedit : ∀ id userId e d, o = .updateDraft id userId e → w.drafts.get id = some d →
      Store.editAllowed userId e d = true → l.good (Store.editRow e d)) : l.Holds w' := by
  intro id d hget
  rcases hd.draft id with hs | ⟨userId, e, d₀, ho, hd₀, hallowed, hs⟩ | ⟨args, k, ho, -, -, hs⟩
  · exact h id d (hs ▸ hget)
  · obtain rfl := Option.some.inj (hs.symm.trans hget)
    exact hedit id userId e d₀ ho hd₀ hallowed
  · obtain rfl := Option.some.inj (hs.symm.trans hget)
    exact hbook args k ho

/-- The operations that write drafts. -/
def Op.edits : Op → Bool
  | insertDraft _ | updateDraft _ _ _ => true
  | _ => false

theorem DraftLaw.Holds.of_edits (h : l.Holds w) (hd : Did settings w o w') (ho : o.edits = false) : l.Holds w' := by
  refine h.did hd (fun args k he => ?_) fun id userId e d he => ?_
  · rw [he] at ho
    cases ho
  · rw [he] at ho
    cases ho

variable {α : Type}

/-- A program that writes no draft. -/
theorem drafting_of_uses : ∀ {p : SendProg α} (w : Store), Uses (fun o => o.edits = false) p →
    Safe (drafting settings l) (fun _ _ => True) p w
  | .ret _, _, _ => Safe.done
  | .op _ _, _, h => Safe.op (Prog.Stable.true _) trivial fun _ _ x u _ hi _ hs =>
    ⟨hi.of_edits (did_of_sem hs) (Uses.op_iff.1 h).1, trivial, drafting_of_uses u ((Uses.op_iff.1 h).2 x)⟩

theorem drafting_of_asks {p : SendProg α} (w : Store) (h : Uses (fun o => o.asks = true) p) :
    Safe (drafting settings l) (fun _ _ => True) p w :=
  drafting_of_uses w (h.mono fun o ho => by cases o <;> first | rfl | cases ho)

theorem drafting_of_editless {p : SendProg α} (w : Store) (h : Uses (fun o => o.editless = true) p) :
    Safe (drafting settings l) (fun _ _ => True) p w :=
  drafting_of_uses w (h.mono fun o ho => by cases o <;> first | rfl | cases ho)

theorem drafting_of_worker {p : SendProg α} (w : Store) (h : Uses (fun o => o.api = false) p) :
    Safe (drafting settings l) (fun _ _ => True) p w :=
  drafting_of_uses w (h.mono fun o ho => by cases o <;> first | rfl | cases ho)

theorem sem_channelName {recipient : String} {connectionId : Nat} {e : Env} {x : Option String}
    (h : sem settings (.channelName recipient connectionId) e w = some (x, w')) : w' = w ∧ e = .named x := by
  cases e <;> first | exact (answer_of_some h).2 ▸ ⟨(answer_of_some h).1, rfl⟩ | cases h

/-- **A recipient is resolved to something it may be displayed as.** -/
theorem drafting_resolveRecipient (channel : ProviderKind) (recipient : String) (connectionId : Nat) (w : Store) :
    Safe (drafting settings l) (fun display _ => Displays l.named channel recipient connectionId display)
      (resolveRecipient channel recipient connectionId) w := by
  have hstable (display : String) : Prog.Stable (drafting settings l) fun _ =>
      Displays l.named channel recipient connectionId display := fun _ _ h _ _ => h
  unfold resolveRecipient
  by_cases hg : channel = .gmail
  · rw [if_pos hg]
    exact Safe.ret (hstable _) (by rw [Displays, if_pos (.inl hg)])
  · rw [if_neg hg]
    by_cases hs : Text.startsWith recipient "#" = true
    · rw [if_pos hs]
      exact Safe.ret (hstable _) (by rw [Displays, if_pos (.inr hs)])
    · rw [if_neg hs]
      refine Safe.perform (Prog.Stable.true _) trivial fun t e x u _ hi hok hsem => ⟨?_, trivial, ?_⟩
      · exact hi.of_edits (did_of_sem hsem) rfl
      · obtain ⟨-, rfl⟩ := sem_channelName hsem
        refine Safe.ret (hstable _) ?_
        rw [Displays, if_neg (not_or.2 ⟨hg, hs⟩)]
        exact ⟨x, hok x rfl, rfl⟩

theorem drafting_createDraft (hl : l.Kept) (a : NewDraft) (w : Store) :
    Safe (drafting settings l) (fun _ _ => True) (createDraft a) w := by
  unfold createDraft
  split
  · exact Safe.done
  next hbody =>
    split
    · exact Safe.done
    next hrecipient =>
      split
      · exact Safe.done
      next hsubject =>
        refine Safe.bind (Safe.mono (fun r t _ _ => ?_) (drafting_of_asks w (asks_resolveConnection _ _ _)))
        cases r with
        | error e => exact Safe.done
        | ok found =>
          refine Safe.bind (Safe.mono (fun display t _ hdisplay => ?_)
            (drafting_resolveRecipient a.channel a.recipient found.1 t))
          refine Safe.perform (Prog.Stable.true _) trivial fun t e x u _ hi _ hs => ⟨?_, trivial, Safe.done⟩
          refine hi.did (did_of_sem hs) (fun args k he => ?_) fun id userId edit d he => by cases he
          cases he
          have hchannel : a.subject.isSome → a.channel = .gmail := by
            intro hs
            by_contra hc
            exact hsubject ⟨hs, hc⟩
          exact hl.created a found.1 display k (Bool.eq_false_iff.2 hbody) (Bool.eq_false_iff.2 hrecipient) hchannel
            hdisplay

/-- The view was read off a good row, and the draft's row still has its origin. -/
def ReadFrom (l : DraftLaw) (id : Nat) (view : DraftView) (d : DraftRow) (w : Store) : Prop :=
  (∃ c, view = draftView id d d.connectionId c) ∧ l.good d ∧ ∃ d', w.drafts.get id = some d' ∧ d'.origin = d.origin

theorem stable_readFrom (id : Nat) (view : DraftView) (d : DraftRow) :
    Prog.Stable (drafting settings l) (ReadFrom l id view d) := by
  rintro w w' ⟨hview, hgood, d', hd', ho⟩ hext -
  obtain ⟨d'', hd'', ho'⟩ := hext.drafts id d' hd'
  exact ⟨hview, hgood, d'', hd'', ho'.trans ho⟩

theorem drafting_getDraft (id userId : Nat) (w : Store) :
    Safe (drafting settings l) (fun r t => ∀ view, r = .ok view → ∃ d, ReadFrom l id view d t) (getDraft id userId) w := by
  have hstable (r : Except GateExn DraftView) :
      Prog.Stable (drafting settings l) fun t => ∀ view, r = .ok view → ∃ d, ReadFrom l id view d t := by
    intro t u h hr hi view hv
    obtain ⟨d, hd⟩ := h view hv
    exact ⟨d, stable_readFrom id view d t u hd hr hi⟩
  unfold getDraft
  refine Safe.perform (Prog.Stable.true _) trivial fun t e x u _ hi _ hs => ?_
  obtain ⟨rfl, rfl⟩ := sem_draftOf hs
  refine ⟨hi, trivial, ?_⟩
  cases hx : (u.drafts.get id).filter fun d => d.userId == userId with
  | none => exact Safe.ret (hstable _) fun view hv => by cases hv
  | some row =>
    obtain ⟨hrow, -⟩ := Option.filter_eq_some_iff.1 hx
    have horigin : Prog.Stable (drafting settings l) fun w => ∃ d, w.drafts.get id = some d ∧ d.origin = row.origin := by
      rintro w w' ⟨d, hd, ho⟩ hext -
      obtain ⟨d', hd', ho'⟩ := hext.drafts id d hd
      exact ⟨d', hd', ho'.trans ho⟩
    have hgood : l.good row := hi id row hrow
    refine Safe.perform horigin ⟨row, hrow, rfl⟩ fun t e x v ht hi _ hs => ?_
    have hext : Extends t v := (did_of_sem hs).extends
    refine ⟨hi.of_edits (did_of_sem hs) rfl, trivial, ?_⟩
    cases x with
    | none => exact Safe.ret (hstable _) fun view hv => by cases hv
    | some connection =>
      refine Safe.ret (hstable _) fun view hv => ?_
      obtain rfl := Except.ok.inj hv
      obtain ⟨d, hd, ho⟩ := ht
      obtain ⟨d', hd', ho'⟩ := hext.drafts id d hd
      exact ⟨row, ⟨connection, rfl⟩, hgood, d', hd', ho'.trans ho⟩

theorem drafting_nextDisplay {id : Nat} {view : DraftView} {d : DraftRow} (next : String) (h : ReadFrom l id view d w) :
    Safe (drafting settings l) (fun display t => NextDisplay l.named d next display ∧ ReadFrom l id view d t)
      (nextDisplay view next) w := by
  obtain ⟨c, rfl⟩ := h.1
  refine Safe.frame (stable_readFrom id _ d) (fun _ _ _ _ _ _ _ hs => (did_of_sem hs).extends) (asks_nextDisplay _ next) h ?_
  show Safe _ _ (if next = d.recipient then _ else _) w
  by_cases hn : next = d.recipient
  · rw [if_pos hn]
    exact Safe.ret (fun _ _ h _ _ => h) (by rw [NextDisplay, if_pos hn]; rfl)
  · rw [if_neg hn]
    refine Safe.mono (fun display t _ hdisplay => ?_) (drafting_resolveRecipient d.channel next d.connectionId w)
    rw [NextDisplay, if_neg hn]
    exact hdisplay

theorem drafting_updateDraft (hl : l.Kept) (id userId : Nat) {c : DraftChange} (hc : l.asked c) (w : Store) :
    Safe (drafting settings l) (fun _ _ => True) (updateDraft id userId c) w := by
  unfold updateDraft
  refine Safe.bind (Safe.mono (fun r t _ hr => ?_) (drafting_getDraft id userId w))
  cases r with
  | error e => exact Safe.done
  | ok view =>
    obtain ⟨d, hread⟩ := hr view rfl
    have hrecipient : view.draft.recipient = d.recipient := by
      obtain ⟨conn, rfl⟩ := hread.1
      rfl
    refine Safe.bind (Safe.mono (fun display t _ hdisplay => ?_)
      (drafting_nextDisplay (c.recipient.getD view.draft.recipient) hread))
    rw [hrecipient] at hdisplay ⊢
    refine Safe.perform (stable_readFrom id view d) hdisplay.2 fun t e x u ht hi _ hs => ⟨?_, trivial, ?_⟩
    · refine hi.did (did_of_sem hs) (fun args k he => by cases he) fun id' userId' edit d' he hd' hallowed => ?_
      cases he
      obtain ⟨-, hgood, d'', hd'', ho⟩ := ht
      obtain rfl := Option.some.inj (hd'.symm.trans hd'')
      exact hl.edited userId c d d' display hc hgood (hi id d' hd') ho hdisplay.1 hallowed
    · cases x with
      | error e => exact Safe.done
      | ok row =>
        refine Safe.bind (Safe.mono (fun r v _ _ => ?_) (drafting_of_asks u (asks_connectionById row.connectionId)))
        cases r with
        | error e => exact Safe.done
        | ok connection => exact Safe.done

/-! ## Along a run -/

theorem drafting_request (hl : l.Kept) {r : Request} (hr : ∀ id userId c, r = .updateDraft id userId c → l.asked c)
    (w : Store) : Safe (drafting settings l) (fun _ _ => True) r.prog w := by
  have discard {β : Type} {p : SendProg β} (h : Safe (drafting settings l) (fun _ _ => True) p w) :
      Safe (drafting settings l) (fun _ _ => True) (do let _ ← p : SendProg Unit) w :=
    Safe.bind (Safe.mono (fun _ _ _ _ => Safe.done) h)
  cases r <;> rw [Request.prog] <;> apply discard
  case createDraft a => exact drafting_createDraft hl a w
  case updateDraft id userId c => exact drafting_updateDraft hl id userId (hr id userId c rfl) w
  case sendDraft id userId confirmed => exact drafting_of_editless w (editless_sendDraft id userId confirmed)
  case operatorRetry id userId => exact drafting_of_editless w (editless_operatorRetry id userId)
  case resolveSend id userId resolution note => exact drafting_of_editless w (editless_resolveSend id userId resolution note)

def Proc.Drafting (settings : Settings) (l : DraftLaw) (w : Store) : Proc → Prop
  | .exec _ _ _ body => Safe (drafting settings l) (fun _ _ => True) body w
  | .sweep _ _ body | .adrift body => Safe (drafting settings l) (fun _ _ => True) body w
  | .request body => Safe (drafting settings l) (fun _ _ => True) body w

theorem Proc.Drafting.extends {p : Proc} (h : p.Drafting settings l w) (hext : Extends w w') :
    p.Drafting settings l w' := by
  cases p <;> exact Safe.rely (c := drafting settings l) h hext

theorem Proc.Drafting.next {p p' : Proc} {x : o.Ans} {e : Env} (h : p.Drafting settings l w) (hn : p.Next o x p')
    (hi : l.Holds w) (hok : Given l o e) (hs : sem settings o e w = some (x, w')) :
    l.Holds w' ∧ p'.Drafting settings l w' := by
  cases hn <;>
  · obtain ⟨hi', -, hk⟩ := Safe.answer (c := drafting settings l) h hi hok hs
    exact ⟨hi', hk⟩

structure Drafting (settings : Settings) (l : DraftLaw) (w : World) : Prop where
  store : l.Holds w.store
  procs : ∀ pid p, w.procs.get pid = some p → p.Drafting settings l w.store

/-- **Every step keeps every draft good, and every program to the law.** -/
theorem Drafting.moved (hl : l.Kept) {w t : World} {a : Action} (h : Drafting settings l w) (hok : l.allows w a)
    (hm : Moved settings w a t) : Drafting settings l t := by
  have hgiven {pid : Nat} {e : Env} {p p' : Proc} {o : Op} {x : o.Ans} (ha : a = .step pid e)
      (hp : w.procs.get pid = some p) (hn : p.Next o x p') : Given l o e := by
    subst ha
    cases o <;> first | trivial | skip
    exact fun r he => hok _ _ r (nextOp_of_next hp hn) he
  constructor
  · cases hm with
    | outside a store hout =>
      intro id d hd
      exact h.store id d ((Store.outside_eq hout).2 ▸ hd)
    | ran pid e hp hn hs => exact ((h.procs pid _ hp).next hn h.store (hgiven rfl hp hn) hs).1
    | called | claimed | swept | raised | lost | aborted | executed | recovered | answered | crashed => exact h.store
  · intro pid p hp
    rcases hm.proc_cases hp with ⟨e, q, o, x, rfl, hq, hn, hs⟩ | hp | hbegins
    · exact ((h.procs pid q hq).next hn h.store (hgiven rfl hq hn) hs).2
    · exact (h.procs pid p hp).extends hm.extends
    · cases hbegins with
      | raised => exact Safe.done
      | lost hsweep => exact (h.procs pid _ hsweep).extends hm.extends
      | called r =>
        refine drafting_request hl (fun id userId c hr => ?_) _
        subst hr
        exact hok
      | claimed worker limit locked job => exact drafting_of_worker _ (worker_handler job)
      | swept limit locked stale => exact drafting_of_worker _ (worker_of_quiet (quiet_sweepJobs stale))

/-- **Every draft of a reachable state is good.** -/
theorem reach_drafts (hl : l.Kept) {w : World} (h : (system settings).Reach l.allows w) : l.Holds w.store :=
  have hdrafting : Drafting settings l w := by
    refine Machine.Reach.inv (I := Drafting settings l) ?_ (fun _ _ _ _ hi hok hs => hi.moved hl hok (moved_of_step hs)) h
    exact
      { store := fun id d hd => by cases hd
        procs := fun pid p hp => by cases hp }
  hdrafting.store

end Send
end SafeSend
