import SafeSend.Lib.Parallel
import SafeSend.Send.Edited
/-!
# Edits that overlap

`update_draft` reads the draft, asks the provider for a name if the recipient moves, and then updates the row.  A
subject or a body it was not given it leaves to the row; a recipient it was not given it writes back as it read it.
-/
namespace SafeSend
namespace Send

open Lib
open Lib.Prog (Uses Safe Contract Beside Turn)

variable {settings : Settings} {w w' : Store} {id userId : Nat} {c : DraftChange} {α : Type}

/-! ## The display -/

/-- Every draft is displayed as its recipient was resolved. -/
def naming (named : String → Nat → Option String → Prop) : DraftLaw where
  named := named
  asked _ := True
  good d := Displays named d.channel d.recipient d.connectionId d.recipientDisplay

theorem naming_kept (named : String → Nat → Option String → Prop) : (naming named).Kept where
  created a connectionId display key _ _ _ hdisplay := hdisplay
  edited userId c d d' display _ hd _ ho hnext _ := by
    have hchannel : d'.channel = d.channel := congrArg (fun o => o.2.2.1) ho
    have hconnection : d'.connectionId = d.connectionId := congrArg (fun o => o.2.1) ho
    show Displays named d'.channel (c.recipient.getD d.recipient) d'.connectionId display
    rw [hchannel, hconnection]
    rw [NextDisplay] at hnext
    split at hnext
    next heq =>
      rw [heq, hnext]
      exact hd
    next => exact hnext

/-! ## Calls side by side -/

/-- The row carries the change. -/
structure Carries (c : DraftChange) (d : DraftRow) : Prop where
  recipient : ∀ r, c.recipient = some r → d.recipient = r
  subject : ∀ s, c.subject = some s → d.subject = some s
  body : ∀ b, c.body = some b → d.body = b

/-- No field is given by both changes. -/
structure DraftChange.Apart (c c' : DraftChange) : Prop where
  recipient : c.recipient = none ∨ c'.recipient = none
  subject : c.subject = none ∨ c'.subject = none
  body : c.body = none ∨ c'.body = none

/-- The fields the change gives are as they were. -/
structure Spares (c : DraftChange) (d d' : DraftRow) : Prop where
  recipient : c.recipient ≠ none → d'.recipient = d.recipient
  subject : c.subject ≠ none → d'.subject = d.subject
  body : c.body ≠ none → d'.body = d.body

/-- The fields the change does not give are as they were. -/
structure Touches (c : DraftChange) (d d' : DraftRow) : Prop where
  recipient : c.recipient = none → d'.recipient = d.recipient
  subject : c.subject = none → d'.subject = d.subject
  body : c.body = none → d'.body = d.body

theorem Touches.spares {c c' : DraftChange} {d d' : DraftRow} (h : Touches c d d') (ha : c.Apart c') : Spares c' d d' where
  recipient hc := h.recipient (ha.recipient.resolve_right hc)
  subject hc := h.subject (ha.subject.resolve_right hc)
  body hc := h.body (ha.body.resolve_right hc)

theorem Carries.spared {d d' : DraftRow} (h : Carries c d) (hs : Spares c d d') : Carries c d' where
  recipient r hr := (hs.recipient (by rw [hr]; exact Option.some_ne_none r)).trans (h.recipient r hr)
  subject s hc := (hs.subject (by rw [hc]; exact Option.some_ne_none s)).trans (h.subject s hc)
  body b hb := (hs.body (by rw [hb]; exact Option.some_ne_none b)).trans (h.body b hb)

/-- The draft is there after, with its row so related. -/
def RowTo (id : Nat) (R : DraftRow → DraftRow → Prop) (w w' : Store) : Prop :=
  ∀ d, w.drafts.get id = some d → ∃ d', w'.drafts.get id = some d' ∧ R d d'

/-- The call writes a recipient it was given, or the one the draft has. -/
def writesBack (c : DraftChange) (w : Store) : Op → Bool
  | .updateDraft id _ edit => c.recipient.isSome || (w.drafts.get id).all fun d => edit.recipient == d.recipient
  | _ => true

/-- A call relies on the fields it gives being left to it, and touches no others. -/
def editor (settings : Settings) (id : Nat) (c : DraftChange) : Contract Op Op.Ans Env Store where
  sem := sem settings
  ok o _ w := writesBack c w o = true
  inv _ := True
  rely := RowTo id (Spares c)
  guar _ := RowTo id (Touches c)
  refl w d hd := ⟨d, hd, fun _ => rfl, fun _ => rfl, fun _ => rfl⟩
  trans {w w' w''} h h' d hd := by
    obtain ⟨d', hd', hs⟩ := h d hd
    obtain ⟨d'', hd'', hs'⟩ := h' d' hd'
    exact ⟨d'', hd'', fun hc => (hs'.recipient hc).trans (hs.recipient hc),
      fun hc => (hs'.subject hc).trans (hs.subject hc), fun hc => (hs'.body hc).trans (hs.body hc)⟩

theorem rowTo_touches_refl (id : Nat) (c : DraftChange) (w : Store) : RowTo id (Touches c) w w :=
  fun d hd => ⟨d, hd, fun _ => rfl, fun _ => rfl, fun _ => rfl⟩

/-- A program that only reads. -/
theorem editor_of_asks : ∀ {p : SendProg α} (w : Store), Uses (fun o => o.asks = true) p →
    Safe (editor settings id c) (fun _ _ => True) p w
  | .ret _, _, _ => Safe.done
  | .op _ _, _, h => Safe.op (Prog.Stable.true _) trivial fun t _ x u _ _ _ hs => by
    obtain ⟨ho, hk⟩ := Uses.op_iff.1 h
    obtain rfl := sem_asks ho hs
    exact ⟨trivial, rowTo_touches_refl id c u, editor_of_asks u (hk x)⟩

/-- The draft carries the change. -/
def Carried (id : Nat) (c : DraftChange) (w : Store) : Prop := ∃ d, w.drafts.get id = some d ∧ Carries c d

theorem stable_carried (settings : Settings) (id : Nat) (c : DraftChange) :
    Prog.Stable (editor settings id c) (Carried id c) := by
  rintro w w' ⟨d, hd, hc⟩ hr -
  obtain ⟨d', hd', hs⟩ := hr d hd
  exact ⟨d', hd', hc.spared hs⟩

/-- A call that returned has its edit in the draft. -/
def Landed (id : Nat) (c : DraftChange) (r : Except GateExn DraftView) (w : Store) : Prop :=
  (∃ v, r = .ok v) → Carried id c w

theorem editor_failed (x : GateExn) (w : Store) :
    Safe (editor settings id c) (Landed id c) (.ret (.error x) : SendProg (Except GateExn DraftView)) w := by
  have hno (t : Store) : Landed id c (.error x) t := by
    rintro ⟨v, hv⟩
    cases hv
  exact Safe.ret (fun _ t _ _ _ => hno t) (hno w)

theorem updateDraft_cases (w : Store) (id userId : Nat) (e : DraftEdit) :
    (∃ x, w.updateDraft id userId e = (.error x, w)) ∨ ∃ d, w.drafts.get id = some d ∧
      w.updateDraft id userId e = (.ok (Store.editRow e d), { w with drafts := w.drafts.modify id (Store.editRow e) }) := by
  cases hd : w.drafts.get id with
  | none => exact .inl ⟨.noRow, by rw [Store.updateDraft, hd]⟩
  | some d =>
    by_cases hu : d.userId = userId
    · rcases updateDraft_of_get e hd hu with ⟨-, hok⟩ | ⟨-, herr⟩
      · exact .inr ⟨d, rfl, hok⟩
      · exact .inl herr
    · exact .inl ⟨.noRow, by simp only [Store.updateDraft, hd, ne_eq, hu, not_false_eq_true, if_true]⟩

/-- What an edit that gives what the change gives does to the draft it is accepted for. -/
theorem edit_of_change {e : DraftEdit} {d : DraftRow} (hr : ∀ r, c.recipient = some r → e.recipient = r)
    (hs : e.subject = c.subject) (hb : e.body = c.body) (hback : c.recipient = none → e.recipient = d.recipient) :
    Touches c d (Store.editRow e d) ∧ Carries c (Store.editRow e d) := by
  refine ⟨⟨hback, fun hn => ?_, fun hn => ?_⟩, hr, fun s hc => ?_, fun b hc => ?_⟩
  · show e.subject.or d.subject = d.subject
    rw [hs, hn]
    rfl
  · show e.body.getD d.body = d.body
    rw [hb, hn]
    rfl
  · show e.subject.or d.subject = some s
    rw [hs, hc]
    rfl
  · show e.body.getD d.body = b
    rw [hb, hc]
    rfl

/-- **The update**, and a rest that only reads. -/
theorem editor_write {e : DraftEdit} (hr : ∀ r, c.recipient = some r → e.recipient = r) (hs : e.subject = c.subject)
    (hb : e.body = c.body) {k : Except DbError DraftRow → SendProg (Except GateExn DraftView)}
    (herror : ∀ x, k (.error x) = .ret (.error (.db x))) (hok : ∀ row, Uses (fun o => o.asks = true) (k (.ok row)))
    (w : Store) :
    Safe (editor settings id c) (Landed id c) (perform (.updateDraft id userId e) >>= k) w := by
  refine Safe.perform (Prog.Stable.true _) trivial fun t env x u _ _ hwrites hsem => ⟨trivial, ?_⟩
  have hupdate : t.updateDraft id userId e = (x, u) := by
    cases env <;> first | exact Option.some.inj hsem | cases hsem
  rcases updateDraft_cases t id userId e with ⟨x', hx⟩ | ⟨d, hd, hx⟩
  · obtain ⟨rfl, rfl⟩ := Prod.mk.inj (hx.symm.trans hupdate)
    rw [herror]
    exact ⟨rowTo_touches_refl id c t, editor_failed _ t⟩
  · obtain ⟨rfl, rfl⟩ := Prod.mk.inj (hx.symm.trans hupdate)
    have hback : c.recipient = none → e.recipient = d.recipient := by
      intro hn
      have hwrites : writesBack c t (.updateDraft id userId e) = true := hwrites
      simpa only [writesBack, hn, hd, Option.isSome_none, Bool.false_or, Option.all_some, beq_iff_eq] using hwrites
    obtain ⟨htouches, hcarries⟩ := edit_of_change hr hs hb hback
    have hafter : (t.drafts.modify id (Store.editRow e)).get id = some (Store.editRow e d) := by
      rw [Table.get_modify_self, hd]
      rfl
    refine ⟨fun d' hd' => ?_, ?_⟩
    · obtain rfl := Option.some.inj (hd.symm.trans hd')
      exact ⟨_, hafter, htouches⟩
    · have hcarried : Carried id c { t with drafts := t.drafts.modify id (Store.editRow e) } := ⟨_, hafter, hcarries⟩
      have hself : ∀ o : Op, o.asks = true → ∀ (env : Env) (s t : Store) (x : o.Ans), True →
          sem settings o env s = some (x, t) → RowTo id (Spares c) s t := by
        intro o ho env s t x _ hs
        rw [sem_asks ho hs]
        exact (editor settings id c).refl s
      refine Safe.mono (fun r v _ hv _ => hv.2)
        (Safe.frame (stable_carried settings id c) hself (hok _) hcarried (editor_of_asks _ (hok _)))

/-- **A call that returns has its edit carried**, whatever the others do to the fields it does not give. -/
theorem editor_updateDraft (id userId : Nat) (c : DraftChange) (w : Store) :
    Safe (editor settings id c) (Landed id c) (updateDraft id userId c) w := by
  unfold updateDraft
  refine Safe.bind (Safe.mono (fun r t _ _ => ?_) (editor_of_asks w (asks_getDraft id userId)))
  cases r with
  | error e => exact editor_failed e t
  | ok current =>
    refine Safe.bind (Safe.mono (fun display t _ _ => ?_) (editor_of_asks t (asks_nextDisplay current _)))
    refine editor_write (fun r hr => by rw [hr]; rfl) rfl rfl (fun _ => rfl) (fun row => ?_) t
    refine Uses.bind (fun r => ?_) (asks_connectionById row.connectionId)
    cases r with
    | error e => exact Uses.done
    | ok connection => exact Uses.done

/-! ## Any interleaving -/

section

variable {ι : Type} [DecidableEq ι]

/-- A call that was given no recipient writes back the one the draft has; nobody else writes the draft. -/
def upToDateEdits (id : Nat) (c : ι → DraftChange) (w : Beside Op Op.Ans ι (Except GateExn DraftView) Store) :
    Turn ι Env Store → Bool
  | .of i _ =>
    match w.progs i with
    | .op o _ => writesBack (c i) w.shared o
    | .ret _ => true
  | .others store => store.drafts.get id == w.shared.drafts.get id

/-- Nobody but the calls writes the draft. -/
def undisturbed (id : Nat) (w : Beside Op Op.Ans ι (Except GateExn DraftView) Store) : Turn ι Env Store → Bool
  | .of _ _ => true
  | .others store => store.drafts.get id == w.shared.drafts.get id

/-- The calls of the users side by side. -/
def edits (settings : Settings) (id : Nat) (userId : ι → Nat) (c : ι → DraftChange) (w : Store) :
    Machine (Beside Op Op.Ans ι (Except GateExn DraftView) Store) (Turn ι Env Store) :=
  Prog.beside (sem settings) (fun i => updateDraft id (userId i) (c i)) w

/-- **No edit is lost** among calls that give different fields, in every interleaving in which each writes back the
recipient the draft has; **and every draft of a reachable state is displayed as its recipient was resolved**. -/
theorem no_edit_lost (settings : Settings) (id : Nat) (userId : ι → Nat) (c : ι → DraftChange) (w₀ : Store)
    (hapart : ∀ i j, i ≠ j → (c i).Apart (c j)) :
    (∀ w, (edits settings id userId c w₀).Reach (fun w a => upToDateEdits id c w a = true) w →
      ∀ i v, w.progs i = .ret (.ok v) → Carried id (c i) w.shared) ∧
      ∀ named w, (system settings).Reach (naming named).allows w → ∀ n d, w.store.drafts.get n = some d →
        Displays named d.channel d.recipient d.connectionId d.recipientDisplay := by
  refine ⟨fun w hw i v hv => ?_, fun named w hw => reach_drafts (naming_kept named) hw⟩
  have hguar : ∀ i j, i ≠ j → ∀ (_ : Op) (s t : Store), RowTo id (Touches (c i)) s t → RowTo id (Spares (c j)) s t := by
    intro i j hij _ s t h d hd
    obtain ⟨d', hd', ht⟩ := h d hd
    exact ⟨d', hd', ht.spares (hapart i j hij)⟩
  have hwithin : (edits settings id userId c w₀).Reach (Beside.within fun i => editor settings id (c i)) w := by
    refine Machine.Reach.mono (fun w a ha => ?_) hw
    cases a with
    | of i e =>
      intro o k hop
      simp only [upToDateEdits, hop] at ha
      exact ha
    | others store =>
      intro j d hd
      rw [upToDateEdits, beq_iff_eq] at ha
      exact ⟨d, ha.trans hd, fun _ => rfl, fun _ => rfl, fun _ => rfl⟩
  have hsafe : ∀ i, Safe (editor settings id (c i)) (Landed id (c i)) (updateDraft id (userId i) (c i)) w₀ :=
    fun i => editor_updateDraft id (userId i) (c i) w₀
  have hsem : ∀ i, (editor settings id (c i)).sem = sem settings := fun _ => rfl
  exact Safe.beside_post hsem (fun _ _ _ h _ => h) hguar (fun _ => trivial) hsafe hwithin hv ⟨v, rfl⟩

end

/-! ## A recipient and a body -/

def emailStore : Store :=
  { connections := Table.empty.insert { userId := 1, provider := .gmail, displayName := "ada@acme.example" }
    drafts := Table.empty.insert
      { userId := 1, connectionId := 0, channel := .gmail, recipient := "dana@acme.example"
        recipientDisplay := "dana@acme.example", subject := none, body := "hello", idempotencyKey := sampleKey } }

/-- One call moves the draft to another recipient, the other edits its body. -/
def recipientOrBody (i : Bool) : DraftChange :=
  if i then { recipient := some "dana@home.example" } else { body := some "goodbye" }

theorem recipientOrBody_apart (i j : Bool) (h : i ≠ j) : (recipientOrBody i).Apart (recipientOrBody j) := by
  cases i <;> cases j <;> first | exact absurd rfl h | exact ⟨by decide, by decide, by decide⟩

def sampleEdits : Machine (Beside Op Op.Ans Bool (Except GateExn DraftView) Store) (Turn Bool Env Store) :=
  edits {} 0 (fun _ => 1) recipientOrBody emailStore

/-- The calls that have returned a view. -/
def returned (w : Beside Op Op.Ans Bool (Except GateExn DraftView) Store) (i : Bool) : Bool :=
  match w.progs i with
  | .ret (.ok _) => true
  | _ => false

theorem returned_iff {w : Beside Op Op.Ans Bool (Except GateExn DraftView) Store} {i : Bool} :
    returned w i = true ↔ ∃ v, w.progs i = .ret (.ok v) := by
  unfold returned
  constructor
  · intro h
    split at h
    next v hv => exact ⟨v, hv⟩
    next => cases h
  · rintro ⟨v, hv⟩
    rw [hv]

/-- The other call reads, both update, and the first to update is the one that moves the recipient. -/
def interleaved (late : Bool) : List (Turn Bool Env Store) :=
  let reads : List (Turn Bool Env Store) := [.of false .none, .of false .none]
  let moves : List (Turn Bool Env Store) := [.of true .none, .of true .none, .of true .none, .of true .none]
  (if late then moves ++ reads else reads ++ moves) ++ [.of false .none, .of false .none]

theorem no_edit_lost_late : ∃ w, sampleEdits.Reach (fun w a => upToDateEdits 0 recipientOrBody w a = true) w ∧
    (∀ i, returned w i = true) ∧ ∀ i, Carried 0 (recipientOrBody i) w.shared := by
  have hallowed : sampleEdits.allowed (upToDateEdits 0 recipientOrBody) sampleEdits.init (interleaved true) = true := by
    decide +kernel
  have hrun : (sampleEdits.exec sampleEdits.init (interleaved true)).any (fun w => returned w true && returned w false) =
      true := by decide +kernel
  obtain ⟨w, hw, -, hboth⟩ := Machine.reach_of_exec hrun
  rw [Bool.and_eq_true] at hboth
  have hreach := Machine.Steps.of_exec (fun _ _ h => h) hw hallowed
  have hall : ∀ i, returned w i = true := by
    intro i
    cases i
    · exact hboth.2
    · exact hboth.1
  refine ⟨w, hreach, hall, fun i => ?_⟩
  obtain ⟨v, hv⟩ := returned_iff.1 (hall i)
  exact (no_edit_lost {} 0 (fun _ => 1) recipientOrBody emailStore recipientOrBody_apart).1 w hreach i v hv

/-- The body's edit, read before the recipient moved, moves it back. -/
theorem recipient_moved_back : ¬ ∀ w, sampleEdits.Reach (fun w a => undisturbed 0 w a = true) w → ∀ i v,
    w.progs i = .ret (.ok v) → Carried 0 (recipientOrBody i) w.shared := by
  intro hclaim
  have hallowed : sampleEdits.allowed (undisturbed 0) sampleEdits.init (interleaved false) = true := by decide +kernel
  have hrun : (sampleEdits.exec sampleEdits.init (interleaved false)).any (fun w =>
      returned w true && (w.shared.drafts.get 0).any fun d => d.recipient == "dana@acme.example") = true := by
    decide +kernel
  obtain ⟨w, hw, -, hp⟩ := Machine.reach_of_exec hrun
  have hreach := Machine.Steps.of_exec (fun _ _ h => h) hw hallowed
  rw [Bool.and_eq_true, Option.any_eq_true] at hp
  obtain ⟨hret, d, hd, hrecipient⟩ := hp
  obtain ⟨v, hv⟩ := returned_iff.1 hret
  obtain ⟨d', hd', hcarries⟩ := hclaim w hreach true v hv
  obtain rfl := Option.some.inj (hd.symm.trans hd')
  rw [hcarries.recipient "dana@home.example" rfl] at hrecipient
  exact absurd hrecipient (by decide)

end Send
end SafeSend
