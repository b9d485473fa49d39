import SafeSend.Send.Gmail
import SafeSend.Send.Posting
/-!
# Gmail's drafts

Gmail as a store of the drafts this program makes: `drafts.create` adds one, `drafts.send` takes one out and accepts its
message, `drafts.delete` takes one out, and `drafts.get` says whether one is there.  A probe infers from that whether the
message was accepted.  The inference holds along every run in which what is handed to Gmail is the draft the send's row
names, no probe asks about a draft the program itself deleted, and the response asked for says what it seems to.
-/
namespace SafeSend
namespace Send

open Lib

structure Mailbox where
  drafts : List String := []
  /-- Every draft this program made, with the fingerprint of the send it was made for. -/
  made : List (String × String) := []
  /-- The drafts that were deleted before they were sent. -/
  discarded : List String := []

/-- What a request to Gmail comes to; `env` is the answer where Gmail is not asked.  An answer may be lost: the draft may be
made and not named, or deleted behind an error.  Nothing is assumed of what a send answers. -/
inductive Answer
  | env (e : Env)
  | created (id : Option String) (answer : Except Exn (Option String))
  | sent (x : Gmail.Exchange)
  | got (x : Gmail.Exchange)
  | deleted (removed : Bool) (x : Gmail.Exchange)

/-- `GmailSendProvider.discard`. -/
def Gmail.discard (request : SendRequest) (x : Exchange) : Except Exn Unit :=
  if !truthy request.providerDraftId then .ok ()
  else if request.connectionId.isNone then .error missingConnection
  else deleteDraft x

namespace Mailbox

def create (m : Mailbox) (id fingerprint : String) : Mailbox :=
  { m with drafts := id :: m.drafts, made := (id, fingerprint) :: m.made }

def takeOut (m : Mailbox) (id : String) : Mailbox := { m with drafts := m.drafts.filter fun d => d != id }

def delete (m : Mailbox) (id : String) : Mailbox :=
  { m.takeOut id with discarded := if m.drafts.contains id then id :: m.discarded else m.discarded }

/-- The id in an answer of `drafts.create`. -/
def named : Except Exn (Option String) → Option String
  | .ok id => id.filter fun d => !d.isEmpty
  | .error _ => none

/-- A draft is made only where the request has none, under an id of its own, and an id that is answered is the draft's. -/
def creates (m : Mailbox) (request : SendRequest) (id : Option String) (answer : Except Exn (Option String)) : Bool :=
  (id.all fun d => !truthy request.providerDraftId && request.connectionId.isSome && !m.made.any fun p => p.1 == d) &&
    (named answer).all fun d => id == some d

/-- `drafts.get` answers `2xx` only where the draft is there, and `404` only where it is not. -/
def tells (m : Mailbox) (request : SendRequest) (x : Gmail.Exchange) : Bool :=
  (Gmail.answered request x).all fun r =>
    let there := m.drafts.contains (request.providerDraftId.getD "")
    (!r.success || there) && (r.status != 404 || !there)

/-- A message to Gmail is accepted only where its draft is there, and takes it out. -/
def accept (m : Mailbox) (c : Call) : Option Mailbox :=
  match c.provider with
  | .gmail => c.request.providerDraftId.bind fun id => if m.drafts.contains id then some (m.takeOut id) else none
  | .slack => some m

/-- What a step beside the programs' own leaves of the drafts; none where Gmail does not do it. -/
def after (m : Mailbox) (w : Store) : Action → Option Mailbox
  | .step _ _ => none
  | .settle call true =>
    match w.calls.get call with
    | some c => if c.status = .pending then m.accept c else some m
    | none => some m
  | _ => some m

end Mailbox

/-- The operation is a request to Gmail, or the answer to one. -/
def asksGmail (w : Store) : Op → Bool
  | .prepare .gmail _ | .probe .gmail _ | .discard .gmail _ => true
  | .sendAnswer call => (w.calls.get call).any fun c => c.provider == .gmail
  | _ => false

/-- What the operation is answered, and what it leaves of the drafts. -/
def Answer.serve (m : Mailbox) (w : Store) : Op → Answer → Option (Env × Mailbox)
  | .prepare .gmail request, .created id answer =>
    if m.creates request id answer then
      some (.prepared (Gmail.prepare request answer), id.elim m fun d => m.create d request.fingerprint)
    else none
  | .sendAnswer call, .sent x =>
    (w.calls.get call).bind fun c =>
      if c.provider = .gmail then some (.receipt (Gmail.sendMessage c.request x), m) else none
  | .probe .gmail request, .got x =>
    if m.tells request x then some (.probed (Gmail.probeByFingerprint request x), m) else none
  | .discard .gmail request, .deleted removed x =>
    some (.finished (Gmail.discard request x), if removed then m.delete (request.providerDraftId.getD "") else m)
  | o, .env e => if asksGmail w o then none else some (e, m)
  | _, _ => none

namespace Mailbox

open Posting

/-- A step of the system: one of a program's operations, answered, or any other. -/
inductive Turn
  | answer (pid : Nat) (y : Answer)
  | act (a : Action)

def step (settings : Settings) (s : World × Mailbox) : Turn → Option (World × Mailbox)
  | .answer pid y =>
    (s.1.nextOp pid).bind fun o =>
      (y.serve s.2 s.1.store o).bind fun r => (World.step settings s.1 (.step pid r.1)).map fun w => (w, r.2)
  | .act a => (s.2.after s.1.store a).bind fun m => (World.step settings s.1 a).map fun w => (w, m)

/-- The system over Gmail's drafts. -/
def mailed (settings : Settings) : Machine (World × Mailbox) Turn where
  init := ({}, {})
  step := step settings

/-- Every send of the key names the draft the request does. -/
def rowNames (w : Store) (request : SendRequest) : Bool :=
  !w.sends.any fun _ r => r.idempotencyKey == request.fingerprint && r.providerDraftId != request.providerDraftId

/-- What is handed to Gmail is the draft the send's row names; a draft asked about was not deleted, and the last response
is `2xx` or an error with a body, and no `404` of the token endpoint's. -/
def orderly (s : World × Mailbox) : Turn → Bool
  | .answer pid y =>
    match s.1.nextOp pid, y with
    | some (.sendCall .gmail request), _ => rowNames s.1.store request
    | some (.probe .gmail request), .got x =>
      Gmail.plainProbe request x && request.providerDraftId.all fun id => !s.2.discarded.contains id
    | _, _ => true
  | .act _ => true

/-- The probe's verdict says whether a message was accepted for the send. -/
structure Truthful (w : Store) (request : SendRequest) (x : Gmail.Exchange) : Prop where
  found : Gmail.verdict request x = some .found → (w.accepted request.fingerprint).Nonempty
  absent : Gmail.verdict request x = some .absent → w.accepted request.fingerprint = ∅

/-! ## The drafts and the calls -/

/-- What stands of a message handed over: its send's row, which names its draft, and where Gmail accepted it, its draft was
made and is out. -/
structure Sent (w : Store) (m : Mailbox) (c : Call) : Prop where
  row : ∃ sid r, w.sends.get sid = some r ∧ r.provider = c.provider ∧ r.idempotencyKey = c.request.fingerprint ∧
    (c.provider = .gmail → ∀ id, c.request.providerDraftId = some id → r.providerDraftId = some id)
  taken : c.provider = .gmail → c.status = .accepted →
    ∃ id, c.request.providerDraftId = some id ∧ id ∉ m.drafts ∧ ∃ p ∈ m.made, p.1 = id

/-- Gmail accepted a message whose draft this was. -/
def Accepted (w : Store) (id : String) : Prop :=
  ∃ n c, w.calls.get n = some c ∧ c.provider = .gmail ∧ c.status = .accepted ∧ c.request.providerDraftId = some id

/-- The drafts against the calls: a draft was made for one send, and one that was made is there, or was deleted, or was
accepted. -/
structure Filed (w : Store) (m : Mailbox) : Prop where
  calls : ∀ n c, w.calls.get n = some c → Sent w m c
  unique : ∀ p ∈ m.made, ∀ q ∈ m.made, p.1 = q.1 → p = q
  there : ∀ id ∈ m.drafts, ∃ p ∈ m.made, p.1 = id
  gone : ∀ p ∈ m.made, p.1 ∈ m.drafts ∨ p.1 ∈ m.discarded ∨ Accepted w p.1

theorem filed_empty : Filed {} {} := by
  constructor <;> intros <;> simp_all

variable {settings : Settings} {o : Op} {w w' : Store} {m m' : Mailbox}

theorem mem_takeOut {id d : String} : d ∈ (m.takeOut id).drafts ↔ d ∈ m.drafts ∧ d ≠ id := by
  simp only [takeOut, List.mem_filter, bne_iff_ne]

theorem Sent.stands {c : Call} (h : Sent w m c) (hs : Stands w w') : Sent w' m c := by
  obtain ⟨sid, r, hr, hp, hk, hd⟩ := h.row
  obtain ⟨r', hr', hf⟩ := hs.sends sid r hr
  refine ⟨⟨sid, r', hr', (provider_of_claim hf.claim).trans hp, (key_of_claim hf.claim).trans hk, fun hg id hid => ?_⟩, h.taken⟩
  exact hf.draft (hp.trans hg) id (hd hg id hid)

/-- A step that leaves every call as it is, and hands over no more than one that is `Sent` and not accepted yet. -/
theorem Filed.called (h : Filed w m) (hs : Stands w w')
    (hold : ∀ n c, w.calls.get n = some c → w'.calls.get n = some c)
    (hnew : ∀ n c, w'.calls.get n = some c → w.calls.get n = some c ∨ Sent w' m c) : Filed w' m where
  calls n c hc := by
    rcases hnew n c hc with hc | hsent
    · exact (h.calls n c hc).stands hs
    · exact hsent
  unique := h.unique
  there := h.there
  gone p hp := by
    refine (h.gone p hp).imp_right (.imp_right ?_)
    rintro ⟨n, c, hc, hrest⟩
    exact ⟨n, c, hold n c hc, hrest⟩

theorem Filed.congr (h : Filed w m) (hs : Stands w w') (hc : w'.calls = w.calls) : Filed w' m :=
  h.called hs (fun n c h => by rw [hc]; exact h) (fun n c h => .inl (by rw [← hc]; exact h))

/-- **An operation keeps the drafts filed**, where what is handed to Gmail is the draft its row names. -/
theorem Filed.did {made : String → String → Prop} {e : Env} (h : Filed w m) (hd : Did settings w o w')
    (howed : Owed made w o) (hok : Granted made w o e) : Filed w' m := by
  have hs := stands_of_did howed hd
  rcases hd.calls with he | ⟨provider, request, rfl, he⟩
  · exact h.congr hs he
  · refine h.called hs (fun n c hc => by rw [he]; exact Table.get_insert_of_get _ hc) fun n c hc => ?_
    rw [he] at hc
    rcases Table.get_insert_cases hc with ⟨-, rfl⟩ | ⟨-, hc⟩
    · obtain ⟨sid, r, hr, hp, hk⟩ := howed
      refine .inr (Sent.stands (w := w) ⟨⟨sid, r, hr, hp, hk, fun hg id hid => ?_⟩, fun _ hst => by cases hst⟩ hs)
      simp only at hg
      subst hg
      exact (hok sid r hr hk).trans hid
    · exact .inl hc

/-- What a request to Gmail makes of the drafts. -/
inductive Changed (m : Mailbox) : Mailbox → Prop
  | same : Changed m m
  | created (id fingerprint : String) (hfresh : ∀ p ∈ m.made, p.1 ≠ id) : Changed m (m.create id fingerprint)
  | deleted (id : String) : Changed m (m.delete id)

theorem Filed.created (h : Filed w m) {id fingerprint : String} (hfresh : ∀ p ∈ m.made, p.1 ≠ id) :
    Filed w (m.create id fingerprint) where
  calls n c hc := by
    obtain ⟨hrow, htaken⟩ := h.calls n c hc
    refine ⟨hrow, fun hg hst => ?_⟩
    obtain ⟨id', hid, hout, p, hp, rfl⟩ := htaken hg hst
    refine ⟨p.1, hid, fun hin => ?_, p, List.mem_cons_of_mem _ hp, rfl⟩
    rcases List.mem_cons.1 hin with he | hin
    · exact hfresh p hp he
    · exact hout hin
  unique p hp q hq he := by
    rcases List.mem_cons.1 hp with rfl | hp <;> rcases List.mem_cons.1 hq with rfl | hq
    · rfl
    · exact absurd he.symm (hfresh q hq)
    · exact absurd he (hfresh p hp)
    · exact h.unique p hp q hq he
  there d hd := by
    rcases List.mem_cons.1 hd with rfl | hd
    · exact ⟨_, List.mem_cons_self, rfl⟩
    · obtain ⟨p, hp, he⟩ := h.there d hd
      exact ⟨p, List.mem_cons_of_mem _ hp, he⟩
  gone p hp := by
    rcases List.mem_cons.1 hp with rfl | hp
    · exact .inl List.mem_cons_self
    · exact (h.gone p hp).imp_left (List.mem_cons_of_mem _)

theorem Filed.deleted (h : Filed w m) (id : String) : Filed w (m.delete id) where
  calls n c hc := by
    obtain ⟨hrow, htaken⟩ := h.calls n c hc
    refine ⟨hrow, fun hg hst => ?_⟩
    obtain ⟨id', hid, hout, hmade⟩ := htaken hg hst
    exact ⟨id', hid, fun hin => hout (mem_takeOut.1 hin).1, hmade⟩
  unique := h.unique
  there d hd := h.there d (mem_takeOut.1 hd).1
  gone p hp := by
    rcases h.gone p hp with hin | hdis | hacc
    · by_cases he : p.1 = id
      · refine .inr (.inl ?_)
        subst he
        simp [delete, hin]
      · exact .inl (mem_takeOut.2 ⟨hin, he⟩)
    · refine .inr (.inl ?_)
      simp only [delete]
      split
      · exact List.mem_cons_of_mem _ hdis
      · exact hdis
    · exact .inr (.inr hacc)

theorem Filed.changed (h : Filed w m) (hc : Changed m m') : Filed w m' := by
  cases hc with
  | same => exact h
  | created id fingerprint hfresh => exact h.created hfresh
  | deleted id => exact h.deleted id

/-! ## Messages accepted and dropped -/

theorem settle_cases {call n : Nat} {accepted : Bool} {c' : Call}
    (h : (w.settleCall call accepted).calls.get n = some c') :
    w.calls.get n = some c' ∨ ∃ c, w.calls.get call = some c ∧ c.status = .pending ∧ n = call ∧
      c' = { c with status := if accepted then .accepted else .dropped } := by
  unfold Store.settleCall at h
  rcases w.calls.get_updateWhere_cases call (fun c => c.status == .pending)
    (fun c => { c with status := if accepted then .accepted else .dropped }) n with hs | ⟨rfl, c, hc, hp, hs⟩
  · exact .inl (hs.symm.trans h)
  · exact .inr ⟨c, hc, beq_iff_eq.1 hp, rfl, Option.some.inj (h.symm.trans hs)⟩

/-- What was accepted stays accepted. -/
theorem Accepted.settle {id : String} (h : Accepted w id) (call : Nat) (accepted : Bool) :
    Accepted (w.settleCall call accepted) id := by
  obtain ⟨n, c, hc, hg, hst, hid⟩ := h
  refine ⟨n, c, ?_, hg, hst, hid⟩
  unfold Store.settleCall
  rcases w.calls.get_updateWhere_cases call (fun c => c.status == .pending)
    (fun c => { c with status := if accepted then .accepted else .dropped }) n with hs | ⟨rfl, c', hc', hp, -⟩
  · exact hs.trans hc
  · obtain rfl := Option.some.inj (hc.symm.trans hc')
    rw [hst] at hp
    cases hp

theorem after_settle_cases {call : Nat} {accepted : Bool} (h : m.after w (.settle call accepted) = some m') :
    (m' = m ∧ (accepted = true → ∀ c, w.calls.get call = some c → c.status = .pending → c.provider ≠ .gmail)) ∨
      ∃ c id, accepted = true ∧ w.calls.get call = some c ∧ c.status = .pending ∧ c.provider = .gmail ∧
        c.request.providerDraftId = some id ∧ id ∈ m.drafts ∧ m' = m.takeOut id := by
  cases accepted with
  | false => exact .inl ⟨(Option.some.inj h).symm, fun h => by cases h⟩
  | true =>
    simp only [after] at h
    split at h
    · rename_i c hc
      split at h
      · rename_i hp
        unfold accept at h
        split at h
        · rename_i hg
          obtain ⟨id, hid, h⟩ := Option.bind_eq_some_iff.1 h
          split at h
          · rename_i hin
            exact .inr ⟨c, id, rfl, hc, hp, hg, hid, by simpa using hin, (Option.some.inj h).symm⟩
          · cases h
        · rename_i hg
          refine .inl ⟨(Option.some.inj h).symm, fun _ c' hc' _ hg' => ?_⟩
          obtain rfl := Option.some.inj (hc.symm.trans hc')
          rw [hg] at hg'
          cases hg'
      · rename_i hp
        refine .inl ⟨(Option.some.inj h).symm, fun _ c' hc' hp' => ?_⟩
        obtain rfl := Option.some.inj (hc.symm.trans hc')
        exact absurd hp' hp
    · rename_i hc
      refine .inl ⟨(Option.some.inj h).symm, fun _ c' hc' => ?_⟩
      rw [hc] at hc'
      cases hc'

/-- **A message accepted takes its draft out**, and nothing else moves the drafts. -/
theorem Filed.settled {call : Nat} {accepted : Bool} (h : Filed w m)
    (ha : m.after w (.settle call accepted) = some m') : Filed (w.settleCall call accepted) m' := by
  have hs : Stands w (w.settleCall call accepted) :=
    @stands_of_outside {} w (w.settleCall call accepted) (.settle call accepted) rfl
  rcases after_settle_cases ha with ⟨rfl, hnone⟩ | ⟨c₀, id, rfl, hc₀, hp₀, hg₀, hid₀, hin₀, rfl⟩
  · refine ⟨fun n c' hc' => ?_, h.unique, h.there, fun p hp => ?_⟩
    · rcases settle_cases hc' with hc | ⟨c, hc, hp, -, rfl⟩
      · exact (h.calls n c' hc).stands hs
      · refine ⟨((h.calls call c hc).stands hs).row, fun hg hst => ?_⟩
        cases accepted with
        | false => cases hst
        | true => exact absurd hg (hnone rfl c hc hp)
    · exact (h.gone p hp).imp_right (.imp_right fun hacc => hacc.settle call accepted)
  · refine ⟨fun n c' hc' => ?_, h.unique, fun d hd => h.there d (mem_takeOut.1 hd).1, fun p hp => ?_⟩
    · rcases settle_cases hc' with hc | ⟨c, hc, hp, -, rfl⟩
      · obtain ⟨hrow, htaken⟩ := (h.calls n c' hc).stands hs
        refine ⟨hrow, fun hg hst => ?_⟩
        obtain ⟨id', hid, hout, hmade⟩ := htaken hg hst
        exact ⟨id', hid, fun hin => hout (mem_takeOut.1 hin).1, hmade⟩
      · obtain rfl := Option.some.inj (hc.symm.trans hc₀)
        exact ⟨((h.calls call c hc).stands hs).row, fun _ _ => ⟨id, hid₀, fun hin => (mem_takeOut.1 hin).2 rfl, h.there id hin₀⟩⟩
    · rcases h.gone p hp with hin | hdis | hacc
      · by_cases he : p.1 = id
        · refine .inr (.inr ⟨call, { c₀ with status := .accepted }, ?_, hg₀, rfl, he ▸ hid₀⟩)
          exact Table.get_updateWhere_hit _ hc₀ (beq_iff_eq.2 hp₀)
        · exact .inl (mem_takeOut.2 ⟨hin, he⟩)
      · exact .inr (.inl hdis)
      · exact .inr (.inr (hacc.settle call true))

/-! ## What is answered -/

/-- A draft's id comes from the answer to `drafts.create`, where the request has none. -/
theorem named_of_prepare {request : SendRequest} {answer : Except Exn (Option String)} {prepared : PreparedSend}
    (h : Gmail.prepare request answer = .ok prepared) (ht : truthy request.providerDraftId = false) :
    named answer = prepared.providerDraftId := by
  unfold Gmail.prepare at h
  rw [ht] at h
  simp only [Bool.false_eq_true, if_false] at h
  split at h
  · cases h
  · cases answer with
    | error e => cases h
    | ok id =>
      by_cases hid : truthy id = true
      · have hc : Gmail.createDraft (.ok id) = .ok (id.getD "") := by
          simp [Gmail.createDraft, bind, Except.bind, hid, pure, Except.pure]
        rw [hc] at h
        obtain rfl := Except.ok.inj h
        cases id with
        | none => cases hid
        | some d => simp_all [named, truthy]
      · have hc : Gmail.createDraft (.ok id) = .error Gmail.draftWithoutId := by
          simp [Gmail.createDraft, bind, Except.bind, hid, throw, throwThe, MonadExceptOf.throw]
        rw [hc] at h
        cases h

/-- Where Gmail is not asked, only what is handed to it is to be looked at. -/
theorem granted_unasked {made : String → String → Prop} (hask : asksGmail w o = false)
    (hnames : ∀ request, o = .sendCall .gmail request → rowNames w request = true) (e : Env) : Granted made w o e := by
  cases o <;> try trivial
  case prepare provider request =>
    cases provider with
    | gmail => cases hask
    | slack => trivial
  case sendCall provider request =>
    cases provider with
    | gmail =>
      intro sid r hr hk
      have hall := hnames request rfl
      simp only [rowNames, Bool.not_eq_true'] at hall
      simpa [hk] using Table.any_eq_false.1 hall sid r hr
    | slack => trivial
  case sendAnswer call =>
    cases e <;> try trivial
    case receipt r =>
      cases r with
      | error exc => trivial
      | ok receipt =>
        intro c hc hg
        simp [asksGmail, hc, hg] at hask

/-- **What is answered is granted**, against every draft made by then. -/
theorem served {made : String → String → Prop} {y : Answer} {e : Env} (h : y.serve m w o = some (e, m'))
    (hnames : ∀ request, o = .sendCall .gmail request → rowNames w request = true)
    (hmade : ∀ p ∈ m'.made, made p.1 p.2) : Changed m m' ∧ Granted made w o e := by
  unfold Answer.serve at h
  split at h
  · -- `prepare`
    rename_i request id answer
    split at h
    · rename_i hc
      simp only [Option.some.injEq, Prod.mk.injEq] at h
      obtain ⟨rfl, rfl⟩ := h
      simp only [creates, Bool.and_eq_true] at hc
      obtain ⟨hnew, hnamed⟩ := hc
      constructor
      · cases id with
        | none => exact .same
        | some d =>
          simp only [Option.all_some, Bool.and_eq_true, Bool.not_eq_true', List.any_eq_false, beq_iff_eq] at hnew
          exact .created d request.fingerprint hnew.2
      · cases hp : Gmail.prepare request answer with
        | error exc => trivial
        | ok prepared =>
          intro d hd
          by_cases ht : truthy request.providerDraftId = true
          · exact .inl ((Gmail.prepare_ok hp).2 ht ▸ hd)
          · rw [named_of_prepare hp (by simpa using ht), hd, Option.all_some, beq_iff_eq] at hnamed
            subst hnamed
            exact .inr (hmade (d, request.fingerprint) List.mem_cons_self)
    · cases h
  · -- the answer to a `send`
    rename_i call x
    obtain ⟨c, hc, h⟩ := Option.bind_eq_some_iff.1 h
    split at h
    · simp only [Option.some.injEq, Prod.mk.injEq] at h
      obtain ⟨rfl, rfl⟩ := h
      refine ⟨.same, ?_⟩
      cases hr : Gmail.sendMessage c.request x with
      | error exc => trivial
      | ok receipt =>
        intro c' hc' _
        obtain rfl := Option.some.inj (hc.symm.trans hc')
        exact .inr (Gmail.send_ok hr)
    · cases h
  · -- the probe
    split at h
    · simp only [Option.some.injEq, Prod.mk.injEq] at h
      obtain ⟨rfl, rfl⟩ := h
      exact ⟨.same, trivial⟩
    · cases h
  · -- `discard`
    simp only [Option.some.injEq, Prod.mk.injEq] at h
    obtain ⟨rfl, rfl⟩ := h
    refine ⟨?_, trivial⟩
    split
    · exact .deleted _
    · exact .same
  · -- nothing of Gmail's
    split at h
    · cases h
    · rename_i hask
      simp only [Option.some.injEq, Prod.mk.injEq] at h
      obtain ⟨rfl, rfl⟩ := h
      exact ⟨.same, granted_unasked (by simpa using hask) hnames _⟩
  · cases h

/-! ## Along a run -/

/-- What every orderly run keeps. -/
structure Kept (settings : Settings) (s : World × Mailbox) : Prop where
  coherent : Coherent settings s.1
  tracked : ∀ made : String → String → Prop, (∀ p ∈ s.2.made, made p.1 p.2) → Tracked settings made s.1
  filed : Filed s.1.store s.2

variable {s t : World × Mailbox} {turn : Turn}

theorem kept_init (settings : Settings) : Kept settings ({}, {}) := by
  have hstart : (system settings).Reach (fun _ _ => True) (system settings).init := Machine.Reach.init
  refine ⟨reach_coherent hstart, fun _ _ => ⟨fun _ _ hr => ?_, fun _ _ hp => ?_⟩, filed_empty⟩
  · cases hr
  · cases hp

theorem rowNames_of_orderly {pid : Nat} {y : Answer} (hok : orderly s (.answer pid y) = true) (ho : s.1.nextOp pid = some o)
    (request : SendRequest) (he : o = .sendCall .gmail request) : rowNames s.1.store request = true := by
  subst he
  simpa only [orderly, ho] using hok

theorem Changed.made (h : Changed m m') {p : String × String} (hp : p ∈ m.made) : p ∈ m'.made := by
  cases h with
  | created => exact List.mem_cons_of_mem _ hp
  | same | deleted => exact hp

theorem Kept.answered {pid : Nat} {y : Answer} (h : Kept settings s) (hok : orderly s (.answer pid y) = true)
    (hs : step settings s (.answer pid y) = some t) : Kept settings t := by
  simp only [step, Option.bind_eq_some_iff, Option.map_eq_some_iff] at hs
  obtain ⟨o, ho, ⟨e, m'⟩, hserve, w', hw, rfl⟩ := hs
  have hnames := rowNames_of_orderly hok ho
  have hm := moved_of_step hw
  have hserved (made : String → String → Prop) (hmade : ∀ p ∈ m'.made, made p.1 p.2) := served hserve hnames hmade
  have hchanged := (hserved (fun _ _ => True) fun _ _ => trivial).1
  have hgrant (made : String → String → Prop) (hmade : ∀ p ∈ m'.made, made p.1 p.2) :
      GrantedStep made s.1 (.step pid e) := by
    intro pid' e' o' he ho'
    cases he
    obtain rfl := Option.some.inj (ho.symm.trans ho')
    exact (hserved made hmade).2
  have htracked (made : String → String → Prop) (hmade : ∀ p ∈ m'.made, made p.1 p.2) : Tracked settings made s.1 :=
    h.tracked made fun p hp => hmade p (hchanged.made hp)
  refine ⟨h.coherent.moved hm, fun made hmade => (htracked made hmade).moved (hgrant made hmade) hm, ?_⟩
  cases hm with
  | ran _ _ hp hn hsem =>
    have hgranted := hgrant (fun a b => (a, b) ∈ m'.made) (fun _ hp => hp) pid e _ rfl (nextOp_of_next hp hn)
    have howed := (htracked (fun a b => (a, b) ∈ m'.made) fun _ hp => hp).owes hp hn hgranted hsem
    exact (h.filed.did (did_of_sem hsem) howed hgranted).changed hchanged
  | raised | aborted => exact (h.filed.congr ⟨(Stands.refl _).sends, (Stands.refl _).calls⟩ rfl).changed hchanged
  | outside _ _ hout => cases hout

theorem made_after {a : Action} (h : m.after w a = some m') : m'.made = m.made := by
  cases a <;> try exact congrArg Mailbox.made (Option.some.inj h).symm
  case settle call accepted =>
    rcases after_settle_cases h with ⟨rfl, -⟩ | ⟨c, id, -, -, -, -, -, -, rfl⟩ <;> rfl
  case step => cases h

/-- **What is no program's operation keeps the drafts filed.** -/
theorem Filed.acted {a : Action} {world next : World} (h : Filed world.store m) (ha : m.after world.store a = some m')
    (hm : Moved settings world a next) : Filed next.store m' := by
  cases hm with
  | outside a store hout =>
    have hs := stands_of_outside hout
    cases a <;> simp only [Store.outside, Option.some.injEq, reduceCtorEq] at hout <;> subst hout
    case settle call accepted => exact h.settled ha
    all_goals
      obtain rfl := Option.some.inj ha
      exact h.congr hs rfl
  | ran | aborted => cases ha
  | raised pid hp hwhy =>
    cases hwhy with
    | refused => cases ha
    | timedOut | lost =>
      obtain rfl := Option.some.inj ha
      exact h
  | called | claimed | swept | lost | executed | recovered | answered | crashed =>
    obtain rfl := Option.some.inj ha
    exact h.congr ⟨(Stands.refl _).sends, (Stands.refl _).calls⟩ rfl

theorem Kept.acted {a : Action} (h : Kept settings s) (hs : step settings s (.act a) = some t) : Kept settings t := by
  simp only [step, Option.bind_eq_some_iff, Option.map_eq_some_iff] at hs
  obtain ⟨m', ha, w', hw, rfl⟩ := hs
  have hm := moved_of_step hw
  have hgrant (made : String → String → Prop) : GrantedStep made s.1 a := by
    rintro pid e o rfl
    cases ha
  have hmade : m'.made = s.2.made := made_after ha
  refine ⟨h.coherent.moved hm, fun made hall => ?_, h.filed.acted ha hm⟩
  exact (h.tracked made fun p hp => hall p (hmade ▸ hp)).moved (hgrant made) hm

theorem Kept.stepped (h : Kept settings s) (hok : orderly s turn = true) (hs : (mailed settings).step s turn = some t) :
    Kept settings t := by
  cases turn with
  | answer pid y => exact h.answered hok hs
  | act a => exact h.acted hs

theorem reach_kept (h : (mailed settings).Reach (fun s turn => orderly s turn = true) s) : Kept settings s :=
  Machine.Reach.inv (kept_init settings) (fun _ _ _ _ hi hok hs => hi.stepped hok hs) h

/-- The draft asked about is the one made for the send. -/
theorem Kept.asked (h : Kept settings s) {pid : Nat} {request : SendRequest}
    (ho : s.1.nextOp pid = some (.probe .gmail request)) :
    ∃ sid r, s.1.store.sends.get sid = some r ∧ r.provider = .gmail ∧ r.idempotencyKey = request.fingerprint ∧
      ∀ id, request.providerDraftId = some id → r.providerDraftId = some id := by
  obtain ⟨q, q', hq, hn⟩ := next_of_nextOp ho (.error (.other ""))
  have howed := (h.tracked (fun _ _ => True) fun _ _ => trivial).owes hq hn (e := .probed (.error (.other ""))) trivial rfl
  obtain ⟨sid, r, hr, hp, hk, hd⟩ := howed
  exact ⟨sid, r, hr, hp, hk, hd rfl⟩

/-- A draft a Gmail row names was made for it. -/
theorem Kept.made (h : Kept settings s) {sid : Nat} {r : SendRow} (hr : s.1.store.sends.get sid = some r)
    (hp : r.provider = .gmail) {id : String} (hid : r.providerDraftId = some id) : (id, r.idempotencyKey) ∈ s.2.made :=
  (h.tracked (fun a b => (a, b) ∈ s.2.made) fun _ hp => hp).rows sid r hr hp id hid

theorem mem_accepted {n : Nat} {fingerprint : String} :
    n ∈ w.accepted fingerprint ↔
      ∃ c, w.calls.get n = some c ∧ c.status = .accepted ∧ c.request.fingerprint = fingerprint := by
  simp only [Store.accepted, Table.mem_hits, Bool.and_eq_true, beq_iff_eq]

/-- A draft that was made, and is neither there nor deleted, is a message accepted for its send. -/
theorem Kept.accepted_of_gone (h : Kept settings s) {id fingerprint : String} (hmade : (id, fingerprint) ∈ s.2.made)
    (hout : id ∉ s.2.drafts) (hkept : id ∉ s.2.discarded) : (s.1.store.accepted fingerprint).Nonempty := by
  obtain ⟨n, c, hc, hg, hst, hid⟩ := ((h.filed.gone _ hmade).resolve_left hout).resolve_left hkept
  obtain ⟨sid, r, hr, hp, hk, hd⟩ := (h.filed.calls n c hc).row
  have hmade' := h.made hr (hp.trans hg) (hd hg id hid)
  have hkey : fingerprint = r.idempotencyKey := congrArg Prod.snd (h.filed.unique _ hmade _ hmade' rfl)
  exact ⟨n, mem_accepted.2 ⟨c, hc, hst, by rw [hkey, hk]⟩⟩

/-- While the draft its row names is there, nothing was accepted for the send. -/
theorem Kept.none_of_there (h : Kept settings s) {sid : Nat} {r : SendRow} (hr : s.1.store.sends.get sid = some r)
    (hp : r.provider = .gmail) {id : String} (hid : r.providerDraftId = some id) (hin : id ∈ s.2.drafts) :
    s.1.store.accepted r.idempotencyKey = ∅ := by
  refine Finset.eq_empty_of_forall_notMem fun n hn => ?_
  obtain ⟨c, hc, hst, hfp⟩ := mem_accepted.1 hn
  have hsent := h.filed.calls n c hc
  obtain ⟨sid', r', hr', hp', hk', hd'⟩ := hsent.row
  obtain rfl : sid' = sid := h.coherent.store.key_inj hr' hr (hk'.trans hfp)
  obtain rfl := Option.some.inj (hr.symm.trans hr')
  have hg : c.provider = .gmail := hp'.symm.trans hp
  obtain ⟨id', hid', hout, -⟩ := hsent.taken hg hst
  obtain rfl := Option.some.inj (hid.symm.trans (hd' hg id' hid'))
  exact hout hin

theorem named_of_answered {request : SendRequest} {x : Gmail.Exchange} {r : Providers.Response}
    (h : Gmail.answered request x = some r) : ∃ id, request.providerDraftId = some id := by
  unfold Gmail.answered at h
  split at h
  · rename_i hasks
    have ht : truthy request.providerDraftId = true := (Bool.and_eq_true_iff.1 hasks).1
    cases hid : request.providerDraftId with
    | none => rw [hid] at ht; cases ht
    | some id => exact ⟨id, rfl⟩
  · cases h

/-- **A Gmail probe tells the truth**, in every run in which what is handed to Gmail is the draft the send's row names, and
no probe asks about a draft that was deleted, or is answered by what is neither `2xx` nor an error with a body. -/
theorem probe_truthful (h : (mailed settings).Reach (fun s turn => orderly s turn = true) s) {pid : Nat}
    {request : SendRequest} {x : Gmail.Exchange} (ho : s.1.nextOp pid = some (.probe .gmail request))
    (hok : orderly s (.answer pid (.got x)) = true) (hs : (mailed settings).step s (.answer pid (.got x)) = some t) :
    Truthful s.1.store request x := by
  have hkept := reach_kept h
  obtain ⟨sid, r, hr, hp, hk, hd⟩ := hkept.asked ho
  simp only [orderly, ho, Bool.and_eq_true] at hok
  have hproven := Gmail.proven_of_plain hok.1
  have htells : s.2.tells request x = true := by
    simp only [mailed, step, ho, Option.bind_some, Option.bind_eq_some_iff] at hs
    obtain ⟨_, hserve, -⟩ := hs
    simp only [Answer.serve] at hserve
    split at hserve
    · assumption
    · cases hserve
  constructor
  · intro hv
    obtain ⟨resp, hresp, h404⟩ := hproven.found.1 hv
    obtain ⟨id, hid⟩ := named_of_answered hresp
    have hout : id ∉ s.2.drafts := by
      simp only [tells, hresp, h404, Option.all_some, Bool.and_eq_true, bne_self_eq_false, Bool.false_or,
        Bool.not_eq_true'] at htells
      simpa [hid] using htells.2
    have hmade := hkept.made hr hp (hd id hid)
    rw [hk] at hmade
    refine hkept.accepted_of_gone hmade hout ?_
    simpa [hid] using hok.2
  · intro hv
    obtain ⟨resp, hresp, hsuccess⟩ := hproven.absent hv
    obtain ⟨id, hid⟩ := named_of_answered hresp
    have hin : id ∈ s.2.drafts := by
      simp only [tells, hresp, hsuccess, Option.all_some, Bool.not_true, Bool.false_or, Bool.and_eq_true] at htells
      simpa [hid] using htells.1
    rw [← hk]
    exact hkept.none_of_there hr hp (hd id hid) hin

/-! ## A send whose outcome is probed -/

/-- A number of operations Gmail is not asked in. -/
def unasked (pid n : Nat) : List Turn := List.replicate n (.answer pid (.env .none))

/-- An email, from its draft to its message handed to Gmail, as draft `r1`, by process 2. -/
def emailRun : List Turn := [
  .act (.connect { userId := 1, provider := .gmail, displayName := "ada@acme.example" }),
  .act (.call (.createDraft { userId := 1, channel := .gmail, recipient := "dana@acme.example", body := "hello" })),
  .answer 0 (.env .none), .answer 0 (.env (.key sampleKey)), .act (.finish 0 "" noDraw),
  .act (.call (.sendDraft 0 1 (some (confirmationDigest .gmail "dana@acme.example" "dana@acme.example" none "hello"))))] ++
  unasked 1 4 ++ [.act (.finish 1 "" noDraw), .act (.claim "host:1" 5 fun _ => false)] ++ unasked 2 2 ++
  [.answer 2 (.created (some "r1") (.ok (some "r1")))] ++ unasked 2 2

/-- The message is accepted, its answer lost with the worker, and a sweep is about to ask for the draft. -/
def lostWithWorker : List Turn := emailRun ++ [.act (.settle 0 true), .act (.crash 2), .act (.tick 301000000),
  .act (.sweep 50 fun _ => false)] ++ unasked 3 3

/-- Gmail refuses the message, the draft is deleted, and an operator's retry is about to ask for it. -/
def refusedAndRetried : List Turn := emailRun ++
  [.act (.settle 0 false), .answer 2 (.sent { first := .ok ⟨400, .json (.obj [] ""), none⟩ })] ++ unasked 2 1 ++
  [.answer 2 (.deleted true { first := .ok ⟨204, .empty, none⟩ }), .act (.finish 2 "" noDraw),
    .act (.call (.operatorRetry 0 1))] ++ unasked 3 2 ++
  [.act (.finish 3 "" noDraw), .act (.claim "host:1" 5 fun _ => false)] ++ unasked 4 4

def missing : Gmail.Exchange := { first := .ok ⟨404, .json (.obj [] ""), none⟩ }

/-- What a Gmail probe asks about. -/
def probed : Op → Option SendRequest
  | .probe .gmail request => some request
  | _ => none

/-- The process is about to probe Gmail, and may be answered `missing`, which it reads as found. -/
def readsFound (s : World × Mailbox) (pid : Nat) (p : SendRequest → Bool) : Bool :=
  ((s.1.nextOp pid).bind probed).any fun request =>
    Gmail.verdict request missing == some .found && ((mailed {}).step s (.answer pid (.got missing))).isSome && p request

theorem readsFound_iff {pid : Nat} {p : SendRequest → Bool} : readsFound s pid p = true ↔
    ∃ request t, s.1.nextOp pid = some (.probe .gmail request) ∧ Gmail.verdict request missing = some .found ∧
      (mailed {}).step s (.answer pid (.got missing)) = some t ∧ p request = true := by
  have hop {q : Option Op} {request : SendRequest} : q.bind probed = some request ↔ q = some (.probe .gmail request) := by
    constructor
    · intro h
      obtain ⟨o, rfl, ho⟩ := Option.bind_eq_some_iff.1 h
      unfold probed at ho
      split at ho
      · obtain rfl := Option.some.inj ho
        rfl
      · cases ho
    · rintro rfl
      rfl
  simp only [readsFound, Option.any_eq_true, hop, Bool.and_eq_true, beq_iff_eq, Option.isSome_iff_exists]
  constructor
  · rintro ⟨request, ho, ⟨hv, t, ht⟩, hp⟩
    exact ⟨request, t, ho, hv, ht, hp⟩
  · rintro ⟨request, t, ho, hv, ht, hp⟩
    exact ⟨request, ho, ⟨hv, t, ht⟩, hp⟩

/-- The message a lost answer was for is found, and was accepted. -/
theorem probe_truthful_lost :
    ∃ s request, (mailed {}).exec (mailed {}).init lostWithWorker = some s ∧
      s.1.nextOp 3 = some (.probe .gmail request) ∧ Gmail.verdict request missing = some .found ∧
      Truthful s.1.store request missing := by
  have hrun : ((mailed {}).exec (mailed {}).init lostWithWorker).any (fun s =>
      readsFound s 3 (fun _ => true) && orderly s (.answer 3 (.got missing))) = true := by decide +kernel
  have hall : (mailed {}).allowed orderly (mailed {}).init lostWithWorker = true := by decide +kernel
  obtain ⟨s, hs, -, hp⟩ := Machine.reach_of_exec hrun
  obtain ⟨hfound, hok⟩ := Bool.and_eq_true_iff.1 hp
  obtain ⟨request, t, ho, hv, ht, -⟩ := readsFound_iff.1 hfound
  exact ⟨s, request, hs, ho, hv, probe_truthful (Machine.Steps.of_exec (fun _ _ h => h) hs hall) ho hok ht⟩

/-- A message Gmail refused, whose draft the program deleted, is found when its send is retried. -/
theorem refused_found : ¬ ∀ s, (mailed {}).Reach (fun _ _ => True) s → ∀ pid request x t,
    s.1.nextOp pid = some (.probe .gmail request) → (mailed {}).step s (.answer pid (.got x)) = some t →
      Truthful s.1.store request x := by
  intro hclaim
  have hrun : ((mailed {}).exec (mailed {}).init refusedAndRetried).any (fun s =>
      readsFound s 4 fun request => (s.1.store.accepted request.fingerprint).card == 0) = true := by decide +kernel
  obtain ⟨s, -, hreach, hp⟩ := Machine.reach_of_exec hrun
  obtain ⟨request, t, ho, hv, ht, hnone⟩ := readsFound_iff.1 hp
  have hsome := (hclaim s hreach 4 request missing t ho ht).found hv
  rw [← Finset.card_pos, beq_iff_eq.1 hnone] at hsome
  cases hsome

end Mailbox
end Send
end SafeSend
