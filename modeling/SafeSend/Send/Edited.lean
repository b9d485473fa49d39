import SafeSend.Send.Decision
import SafeSend.Send.Drafts
/-!
# Edits and the form of a draft

`create_draft` refuses a blank recipient, a blank body and a subject on a channel that has none.  `update_draft` checks
nothing: the subject is left to the row's constraint, and what is blank is stored.
-/
namespace SafeSend
namespace Send

open Lib
open Lib.Prog (Uses Runs)

/-- A recipient and a body that are not blank, and a subject only where there are subjects. -/
structure DraftRow.FilledIn (d : DraftRow) : Prop where
  recipient : Text.blank d.recipient = false
  body : Text.blank d.body = false
  subject : d.subject.isSome → d.channel = .gmail

def FilledIn (w : Store) : Prop := ∀ id d, w.drafts.get id = some d → d.FilledIn

/-- The recipient and the body a change gives, where it gives them, are not blank. -/
def DraftChange.filled (c : DraftChange) : Bool :=
  c.recipient.all (fun r => !Text.blank r) && c.body.all fun b => !Text.blank b

theorem DraftChange.filled_iff {c : DraftChange} : c.filled = true ↔
    (∀ r, c.recipient = some r → Text.blank r = false) ∧ ∀ b, c.body = some b → Text.blank b = false := by
  simp only [filled, Bool.and_eq_true, Option.all_eq_true, Bool.not_eq_true']

/-- Every edit is filled in. -/
def fillsIn (_ : World) : Action → Bool
  | .call (.updateDraft _ _ c) => c.filled
  | _ => true

def filling : DraftLaw where
  named _ _ _ := True
  asked c := c.filled = true
  good := DraftRow.FilledIn

/-- The subject an accepted edit leaves is one the row's check takes. -/
theorem subject_of_editAllowed {userId : Nat} {e : DraftEdit} {d : DraftRow} (h : Store.editAllowed userId e d = true) :
    (Store.editRow e d).subject.isSome → (Store.editRow e d).channel = .gmail := by
  intro hs
  simp only [Store.editAllowed, Bool.and_eq_true] at h
  have hcheck := h.2
  rw [Store.subjectAllowed, Bool.or_eq_true, beq_iff_eq] at hcheck
  refine hcheck.resolve_right fun hn => ?_
  rw [Option.isNone_iff_eq_none] at hn
  rw [hn] at hs
  cases hs

theorem filling_kept : filling.Kept where
  created a connectionId display key hbody hrecipient hsubject _ := ⟨hrecipient, hbody, hsubject⟩
  edited userId c d d' display hc hd hd' ho _ hallowed := by
    obtain ⟨hr, hb⟩ := DraftChange.filled_iff.1 hc
    refine ⟨?_, ?_, subject_of_editAllowed hallowed⟩
    · show Text.blank (c.recipient.getD d.recipient) = false
      cases h : c.recipient with
      | none => exact hd.recipient
      | some r => exact hr r h
    · show Text.blank (c.body.getD d'.body) = false
      cases h : c.body with
      | none => exact hd'.body
      | some b => exact hb b h

/-- **Drafts stay filled in** in every run, however its calls are interleaved, whose edits are. -/
theorem reach_filledIn {settings : Settings} {w : World} (h : (system settings).Reach (fun w a => fillsIn w a = true) w) :
    FilledIn w.store := by
  refine reach_drafts filling_kept (Machine.Reach.mono (fun w a ha => ?_) h)
  cases a with
  | call r =>
    cases r with
    | updateDraft id userId c => exact ha
    | _ => trivial
  | step pid e => exact fun _ _ _ _ _ => trivial
  | _ => trivial

/-! ## A call on its own -/

variable {settings : Settings} {w w' : Store} {id userId : Nat} {c : DraftChange} {d : DraftRow} {α : Type}

theorem sem_asks {o : Op} {e : Env} {x : o.Ans} (ho : o.asks = true) (h : sem settings o e w = some (x, w')) : w' = w := by
  cases o <;> first | cases ho; done | skip
  all_goals cases e <;> first | exact (answer_of_some h).1 | cases h

/-- What only reads leaves the store alone. -/
theorem runs_asks {p : SendProg α} (hp : Uses (fun o => o.asks = true) p) {a : α} (h : Runs (sem settings) p w a w') :
    w' = w := by
  induction h with
  | ret a s => rfl
  | @op o k e s s' t x a hs hk ih =>
    obtain ⟨ho, hk'⟩ := Uses.op_iff.1 hp
    rw [ih (hk' x), sem_asks ho hs]

/-- The row and its connection, where they are the caller's to read. -/
def Legible (w : Store) (id userId : Nat) (d : DraftRow) : Prop :=
  w.drafts.get id = some d ∧ d.userId = userId ∧ (w.connections.get d.connectionId).isSome

theorem runs_getDraft_cases {r : Except GateExn DraftView} (h : Runs (sem settings) (getDraft id userId) w r w') :
    w' = w ∧ ((∃ g, r = .error (.gate g) ∧ ∀ d, ¬ Legible w id userId d) ∨
      ∃ d conn, Legible w id userId d ∧ w.connections.get d.connectionId = some conn ∧
        r = .ok (draftView id d d.connectionId conn)) := by
  refine ⟨runs_asks (asks_getDraft id userId) h, ?_⟩
  unfold getDraft at h
  obtain ⟨e, x, u, hs, h⟩ := Prog.runs_perform h
  obtain ⟨rfl, rfl⟩ := sem_draftOf hs
  cases hx : (u.drafts.get id).filter fun d => d.userId == userId with
  | none =>
    rw [hx] at h
    obtain ⟨rfl, -⟩ := Prog.runs_ret h
    refine .inl ⟨_, rfl, fun d hd => ?_⟩
    rw [hd.1, Option.filter_some, if_pos (beq_iff_eq.2 hd.2.1)] at hx
    cases hx
  | some row =>
    obtain ⟨hrow, hu⟩ := Option.filter_eq_some_iff.1 hx
    rw [beq_iff_eq] at hu
    simp only [hx] at h
    obtain ⟨r', v, hr, hrest⟩ := Prog.runs_bind h
    cases hc : u.connections.get row.connectionId with
    | none =>
      unfold connectionById at hr
      obtain ⟨e, x, u', hs, hr⟩ := Prog.runs_perform hr
      obtain ⟨rfl, rfl⟩ := sem_connectionById hs
      rw [hc] at hr
      obtain ⟨rfl, rfl⟩ := Prog.runs_ret hr
      obtain ⟨rfl, -⟩ := Prog.runs_ret hrest
      refine .inl ⟨_, rfl, fun d hd => ?_⟩
      obtain rfl := Option.some.inj (hd.1.symm.trans hrow)
      have hsome := hd.2.2
      rw [hc] at hsome
      cases hsome
    | some conn =>
      obtain ⟨rfl, rfl⟩ := runs_connectionById hc hr
      obtain ⟨rfl, -⟩ := Prog.runs_ret hrest
      exact .inr ⟨row, conn, ⟨hrow, hu, by rw [hc]; rfl⟩, hc, rfl⟩

/-- Operations as `sem` does them, where the provider calls a channel it is asked about so, or does not answer. -/
def semNaming (settings : Settings) (named : Option String) : (o : Op) → Env → Store → Option (o.Ans × Store)
  | .channelName _ _, .named r, w => if r = named then some (r, w) else none
  | .channelName _ _, _, _ => none
  | o, e, w => sem settings o e w

/-- What a recipient is displayed as then. -/
def displayed (named : Option String) (channel : ProviderKind) (recipient : String) : String :=
  if channel = .gmail ∨ Text.startsWith recipient "#" then recipient
  else if truthy named then named.getD "" else knownChannel recipient

/-- And what an edit of the draft displays its next recipient as. -/
def nextDisplayed (named : Option String) (d : DraftRow) (next : String) : String :=
  if next = d.recipient then d.recipientDisplay else displayed named d.channel next

variable {named : Option String}

theorem sem_of_semNaming (o : Op) (e : Env) (w : Store) (r : o.Ans × Store) (h : semNaming settings named o e w = some r) :
    sem settings o e w = some r := by
  cases o with
  | channelName recipient connectionId =>
    cases e <;> first | cases h | skip
    rename_i answer
    by_cases hr : answer = named
    · subst hr
      exact (if_pos rfl).symm.trans h
    · exact nomatch (if_neg hr).symm.trans h
  | _ => exact h

theorem runs_of_naming {p : SendProg α} {a : α} (h : Runs (semNaming settings named) p w a w') :
    Runs (sem settings) p w a w' := h.mono sem_of_semNaming

/-- **The display is the one the provider's answer makes it.** -/
theorem runs_resolveRecipient {channel : ProviderKind} {recipient display : String} {connectionId : Nat}
    (h : Runs (semNaming settings named) (resolveRecipient channel recipient connectionId) w display w') :
    display = displayed named channel recipient := by
  unfold resolveRecipient at h
  unfold displayed
  by_cases hg : channel = .gmail
  · rw [if_pos hg] at h
    rw [if_pos (.inl hg)]
    exact (Prog.runs_ret h).1
  · by_cases hs : Text.startsWith recipient "#" = true
    · rw [if_neg hg, if_pos hs] at h
      rw [if_pos (.inr hs)]
      exact (Prog.runs_ret h).1
    · rw [if_neg hg, if_neg hs] at h
      rw [if_neg (not_or.2 ⟨hg, hs⟩)]
      obtain ⟨e, x, u, hsem, hrest⟩ := Prog.runs_perform h
      cases e <;> first | cases hsem | skip
      rename_i answer
      by_cases hr : answer = named
      · subst hr
        obtain ⟨-, rfl⟩ := answer_of_some ((if_pos rfl).symm.trans hsem)
        exact (Prog.runs_ret hrest).1
      · exact nomatch (if_neg hr).symm.trans hsem

theorem runs_nextDisplay {connection : ConnectionRow} {next display : String}
    (h : Runs (semNaming settings named) (nextDisplay (draftView id d d.connectionId connection) next) w display w') :
    display = nextDisplayed named d next := by
  have hd : nextDisplay (draftView id d d.connectionId connection) next =
      if next = d.recipient then Pure.pure d.recipientDisplay else resolveRecipient d.channel next d.connectionId := rfl
  rw [hd] at h
  unfold nextDisplayed
  by_cases hn : next = d.recipient
  · rw [if_pos hn] at h ⊢
    exact (Prog.runs_ret h).1
  · rw [if_neg hn] at h ⊢
    exact runs_resolveRecipient h

theorem naming_answered (settings : Settings) (named : Option String) {o : Op} (h : o.draftless = true) (w : Store) :
    ∃ e x t, semNaming settings named o e w = some (x, t) := by
  cases o <;> first | cases h; done | exact ⟨.none, _, _, rfl⟩ | exact ⟨.named named, _, _, if_pos rfl⟩

/-- What an edit of one's own draft does: it is accepted, or refused by the database. -/
theorem updateDraft_of_get (e : DraftEdit) (hd : w.drafts.get id = some d) (hu : d.userId = userId) :
    (Store.editAllowed userId e d = true ∧
        w.updateDraft id userId e = (.ok (Store.editRow e d), { w with drafts := w.drafts.modify id (Store.editRow e) })) ∨
      (Store.editAllowed userId e d = false ∧ ∃ x, w.updateDraft id userId e = (.error x, w)) := by
  unfold Store.updateDraft Store.editAllowed
  simp only [hd, hu, ne_eq, not_true_eq_false, if_false, beq_self_eq_true, Bool.true_and]
  cases Store.textsAllowed e d with
  | false => exact .inr ⟨rfl, _, rfl⟩
  | true =>
    cases Store.subjectAllowed (Store.editRow e d) with
    | false => exact .inr ⟨rfl, _, rfl⟩
    | true => exact .inl ⟨rfl, rfl⟩

/-- What a change writes, made from the row. -/
def DraftChange.naming (c : DraftChange) (named : Option String) (d : DraftRow) : DraftEdit :=
  c.edit d (nextDisplayed named d (c.recipient.getD d.recipient))

/-- **What an uninterrupted edit ends in**: the gate's refusal, the database's, or the row edited. -/
theorem runs_updateDraft {r : Except GateExn DraftView}
    (h : Runs (semNaming settings named) (updateDraft id userId c) w r w') :
    (∃ g, r = .error (.gate g) ∧ w' = w ∧ ∀ d, ¬ Legible w id userId d) ∨
      ∃ d, Legible w id userId d ∧
        ((Store.editAllowed userId (c.naming named d) d = true ∧ (∃ v, r = .ok v) ∧
            w' = { w with drafts := w.drafts.modify id (Store.editRow (c.naming named d)) }) ∨
          (Store.editAllowed userId (c.naming named d) d = false ∧ (∃ x, r = .error (.db x)) ∧ w' = w)) := by
  unfold updateDraft at h
  obtain ⟨current, u, hget, h⟩ := Prog.runs_bind h
  obtain ⟨rfl, hcases⟩ := runs_getDraft_cases (runs_of_naming hget)
  rcases hcases with ⟨g, rfl, hno⟩ | ⟨d, conn, hd, hc, rfl⟩
  · obtain ⟨rfl, rfl⟩ := Prog.runs_ret h
    exact .inl ⟨g, rfl, rfl, hno⟩
  · simp only at h
    obtain ⟨display, v, hnext, hrest⟩ := Prog.runs_bind h
    obtain rfl : v = u := runs_asks (asks_nextDisplay _ _) (runs_of_naming hnext)
    obtain rfl := runs_nextDisplay hnext
    refine .inr ⟨d, hd, ?_⟩
    obtain ⟨e, x, t, hs, hafter⟩ := Prog.runs_perform hrest
    have hsem : v.updateDraft id userId (c.naming named d) = (x, t) := by
      cases e <;> first | exact Option.some.inj hs | cases hs
    rcases updateDraft_of_get (c.naming named d) hd.1 hd.2.1 with ⟨hallowed, hok⟩ | ⟨hrefused, x', herr⟩
    · obtain ⟨rfl, rfl⟩ := Prod.mk.inj (hok.symm.trans hsem)
      refine .inl ⟨hallowed, ?_⟩
      obtain ⟨r', t', hr, hend⟩ := Prog.runs_bind hafter
      have hconn : ({ v with drafts := v.drafts.modify id (Store.editRow (c.naming named d)) } : Store).connections.get
          (Store.editRow (c.naming named d) d).connectionId = some conn := hc
      obtain ⟨rfl, rfl⟩ := runs_connectionById hconn (runs_of_naming hr)
      obtain ⟨rfl, rfl⟩ := Prog.runs_ret hend
      exact ⟨⟨_, rfl⟩, rfl⟩
    · obtain ⟨rfl, rfl⟩ := Prod.mk.inj (herr.symm.trans hsem)
      obtain ⟨rfl, rfl⟩ := Prog.runs_ret hafter
      exact .inr ⟨hrefused, ⟨x', rfl⟩, rfl⟩

/-- The edit keeps the drafts filled in, or the gate refuses it and the row is as it was. -/
def Handled (w : Store) (id : Nat) (r : Except GateExn DraftView) (w' : Store) : Prop :=
  ((∃ v, r = .ok v) ∧ FilledIn w') ∨ ((∃ g, r = .error (.gate g)) ∧ w'.drafts.get id = w.drafts.get id)

/-- What is given is not blank, is text the database takes, and is a subject only on Gmail; and a recipient that moves is
displayed as text the database takes. -/
structure Editable (named : Option String) (c : DraftChange) (d : DraftRow) : Prop where
  recipient : ∀ r, c.recipient = some r → Text.blank r = false ∧
    (r = d.recipient ∨ Store.storable r = true ∧
      (displayed named d.channel r = d.recipientDisplay ∨ Store.storable (displayed named d.channel r) = true))
  body : ∀ b, c.body = some b → Text.blank b = false ∧ Store.storable b = true
  subject : ∀ s, c.subject = some s → d.channel = .gmail ∧ Store.storable s = true

/-- The texts an edit writes, by what the change gives. -/
theorem textsAllowed_iff : Store.textsAllowed (c.naming named d) d = true ↔
    (∀ r, c.recipient = some r → r = d.recipient ∨ Store.storable r = true ∧
      (displayed named d.channel r = d.recipientDisplay ∨ Store.storable (displayed named d.channel r) = true)) ∧
      (∀ s, c.subject = some s → Store.storable s = true) ∧ ∀ b, c.body = some b → Store.storable b = true := by
  simp only [Store.textsAllowed, DraftChange.naming, DraftChange.edit, Bool.and_eq_true, Bool.or_eq_true, beq_iff_eq,
    Option.all_eq_true, and_assoc]
  rw [← and_assoc]
  refine and_congr_left fun _ => ?_
  cases c.recipient with
  | none => simp [nextDisplayed]
  | some r =>
    by_cases hr : r = d.recipient
    · simp [nextDisplayed, hr]
    · simp [nextDisplayed, hr]

/-- **An edit of a draft that is filled in is accepted, and leaves it filled in, exactly where it is editable.** -/
theorem editable_iff (hd : d.FilledIn) (hu : d.userId = userId) :
    (Store.editAllowed userId (c.naming named d) d = true ∧ (Store.editRow (c.naming named d) d).FilledIn) ↔
      Editable named c d := by
  constructor
  · rintro ⟨hallowed, hrow⟩
    have hsplit := hallowed
    simp only [Store.editAllowed, Bool.and_eq_true] at hsplit
    obtain ⟨hr, hs, hb⟩ := textsAllowed_iff.1 hsplit.1.2
    refine ⟨fun r he => ⟨?_, hr r he⟩, fun b he => ⟨?_, hb b he⟩, fun s he => ⟨?_, hs s he⟩⟩
    · have hrow' : Text.blank (c.recipient.getD d.recipient) = false := hrow.recipient
      rw [he] at hrow'
      exact hrow'
    · have hrow' : Text.blank (c.body.getD d.body) = false := hrow.body
      rw [he] at hrow'
      exact hrow'
    · have hrow' : (c.subject.or d.subject).isSome → d.channel = .gmail := hrow.subject
      rw [he] at hrow'
      exact hrow' rfl
  · intro he
    have hsubject : (c.subject.or d.subject).isSome → d.channel = .gmail := by
      cases hs : c.subject with
      | none => exact hd.subject
      | some s => exact fun _ => (he.subject s hs).1
    refine ⟨?_, ?_, ?_, hsubject⟩
    · simp only [Store.editAllowed, Bool.and_eq_true, beq_iff_eq]
      refine ⟨⟨hu, textsAllowed_iff.2 ⟨fun r hr => (he.recipient r hr).2, fun s hs => (he.subject s hs).2,
        fun b hb => (he.body b hb).2⟩⟩, ?_⟩
      show (d.channel == .gmail || (c.subject.or d.subject).isNone) = true
      cases hs : c.subject.or d.subject with
      | none => simp
      | some s =>
        rw [hs] at hsubject
        rw [hsubject rfl]
        rfl
    · show Text.blank (c.recipient.getD d.recipient) = false
      cases hr : c.recipient with
      | none => exact hd.recipient
      | some r => exact (he.recipient r hr).1
    · show Text.blank (c.body.getD d.body) = false
      cases hb : c.body with
      | none => exact hd.body
      | some b => exact (he.body b hb).1

theorem FilledIn.modify (h : FilledIn w) {e : DraftEdit} (hd : w.drafts.get id = some d)
    (he : (Store.editRow e d).FilledIn) : FilledIn { w with drafts := w.drafts.modify id (Store.editRow e) } := by
  intro n d' hget
  rcases Table.get_modify_cases hget with ⟨rfl, d₀, hd₀, rfl⟩ | ⟨-, hget⟩
  · obtain rfl := Option.some.inj (hd.symm.trans hd₀)
    exact he
  · exact h n d' hget

/-- **An edit is handled exactly where it is editable**, or the draft is not the caller's to read. -/
theorem handled_iff (settings : Settings) (hw : FilledIn w) (id userId : Nat) (c : DraftChange) (named : Option String) :
    (∀ r w', Runs (semNaming settings named) (updateDraft id userId c) w r w' → Handled w id r w') ↔
      ∀ d, Legible w id userId d → Editable named c d := by
  constructor
  · intro h d hd
    have hfilled : d.FilledIn := hw id d hd.1
    have hless := draftless_of_inert (inert_updateDraft id userId c)
    obtain ⟨r, w', hrun⟩ := Prog.runs_of_uses (hless.mono fun o ho => naming_answered settings named ho) w
    have hhandled := h r w' hrun
    rcases runs_updateDraft hrun with ⟨g, -, -, hno⟩ | ⟨d', hd', hcases⟩
    · exact absurd hd (hno d)
    · obtain rfl := Option.some.inj (hd.1.symm.trans hd'.1)
      rcases hcases with ⟨hallowed, ⟨v, rfl⟩, rfl⟩ | ⟨-, ⟨x, rfl⟩, rfl⟩
      · refine (editable_iff hfilled hd.2.1).1 ⟨hallowed, ?_⟩
        rcases hhandled with ⟨-, hstore⟩ | ⟨⟨g, hg⟩, -⟩
        · exact hstore id _ (by rw [Table.get_modify_self, hd.1]; rfl)
        · cases hg
      · rcases hhandled with ⟨⟨v, hv⟩, -⟩ | ⟨⟨g, hg⟩, -⟩
        · cases hv
        · cases hg
  · intro h r w' hrun
    rcases runs_updateDraft hrun with ⟨g, rfl, rfl, -⟩ | ⟨d, hd, hcases⟩
    · exact .inr ⟨⟨g, rfl⟩, rfl⟩
    · obtain ⟨hallowed, hrow⟩ := (editable_iff (hw id d hd.1) hd.2.1).2 (h d hd)
      rcases hcases with ⟨-, hv, rfl⟩ | ⟨hrefused, -, -⟩
      · exact .inl ⟨hv, hw.modify hd.1 hrow⟩
      · cases hallowed.symm.trans hrefused

/-- **Drafts stay filled in along every run whose edits are; and an edit keeps them so or is refused by the gate exactly
where it gives nothing blank, nothing the database does not take and no subject off Gmail**, and the provider's name for
a new recipient is text the database takes. -/
theorem drafts_filledIn (settings : Settings) :
    (∀ w, (system settings).Reach (fun w a => fillsIn w a = true) w → FilledIn w.store) ∧
      ∀ w id userId c named, FilledIn w →
        ((∀ r w', Runs (semNaming settings named) (updateDraft id userId c) w r w' → Handled w id r w') ↔
          ∀ d, Legible w id userId d → Editable named c d) :=
  ⟨fun _ h => reach_filledIn h, fun _ id userId c named hw => handled_iff settings hw id userId c named⟩

/-! ## A body of blanks -/

/-- A Slack draft, and an edit of its body alone. -/
def editing (body : String) : List Action := [
  .connect { userId := 1, provider := .slack, displayName := "Acme" },
  .call (.createDraft { userId := 1, channel := .slack, recipient := "#sales", body := "hello" }),
  .step 0 .none, .step 0 (.key sampleKey), .finish 0 "" noDraw,
  .call (.updateDraft 0 1 { body := some body }), .step 1 .none, .step 1 .none, .step 1 .none]

theorem drafts_filledIn_edited : ∃ w, (system {}).Reach (fun w a => fillsIn w a = true) w ∧
    (w.store.drafts.get 0).map DraftRow.body = some "goodbye" ∧ FilledIn w.store ∧
    ((∀ r w', Runs (semNaming {} none) (updateDraft 0 1 { recipient := some "C1" }) w.store r w' →
      Handled w.store 0 r w') ↔ ∀ d, Legible w.store 0 1 d → Editable none { recipient := some "C1" } d) := by
  have hallowed : (system {}).allowed fillsIn (system {}).init (editing "goodbye") = true := by decide +kernel
  have hrun : ((system {}).exec (system {}).init (editing "goodbye")).any (fun w =>
      (w.store.drafts.get 0).map DraftRow.body == some "goodbye") = true := by decide +kernel
  obtain ⟨w, hw, -, hbody⟩ := Machine.reach_of_exec hrun
  have hreach := Machine.Steps.of_exec (fun _ _ h => h) hw hallowed
  have hfilled := (drafts_filledIn {}).1 w hreach
  exact ⟨w, hreach, beq_iff_eq.1 hbody, hfilled, (drafts_filledIn {}).2 w.store 0 1 _ none hfilled⟩

/-- An edit that is stored as it came, and a draft with nothing to read in it. -/
theorem blank_body_stored : ¬ ∀ w, (system {}).Reach (fun _ _ => True) w → FilledIn w.store := by
  intro h
  have hrun : ((system {}).exec (system {}).init (editing "  ")).any (fun w =>
      (w.store.drafts.get 0).any fun d => Text.blank d.body) = true := by decide +kernel
  obtain ⟨w, -, hreach, hp⟩ := Machine.reach_of_exec hrun
  rw [Option.any_eq_true] at hp
  obtain ⟨d, hd, hblank⟩ := hp
  have hbody := (h w hreach 0 d hd).body
  rw [hblank] at hbody
  cases hbody

end Send
end SafeSend
