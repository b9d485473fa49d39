import SafeSend.Send.Held
import SafeSend.Send.Providers
/-!
# Dispatch evidence

What a row says about the messages out under its key, and what an operation owes for that to stay true: a message is
handed over only while nothing else can be out under its key, and only for a row that no one will take for one that was
never dispatched.  What is assumed of the providers is a parameter, so that each law asks for what it needs.
-/
namespace SafeSend
namespace Send

open Lib
open Queue (ClaimedJob Recovery)

namespace Store

/-- The messages under a fingerprint that the providers accepted or may still accept. -/
def live (w : Store) (fingerprint : String) : Finset Nat :=
  w.calls.hits fun c => c.status != .dropped && c.request.fingerprint == fingerprint

def accepted (w : Store) (fingerprint : String) : Finset Nat :=
  w.calls.hits fun c => c.status == .accepted && c.request.fingerprint == fingerprint

theorem accepted_subset_live (w : Store) (fingerprint : String) : w.accepted fingerprint ⊆ w.live fingerprint := by
  refine Table.hits_mono fun c h => ?_
  simp only [Bool.and_eq_true, beq_iff_eq] at h
  simp [h.1, h.2]

theorem mem_live {w : Store} {fingerprint : String} {n : Nat} :
    n ∈ w.live fingerprint ↔
      ∃ c, w.calls.get n = some c ∧ c.status ≠ .dropped ∧ c.request.fingerprint = fingerprint := by
  simp only [live, Table.mem_hits, Bool.and_eq_true, bne_iff_ne, beq_iff_eq]

end Store

/-! ## What is assumed of the answers -/

/-- ABSENT is answered only where the provider has not accepted a message with the fingerprint, and will not. -/
def soundProbe (w : Store) : Op → Env → Bool
  | .probe provider request, .probed (.ok r) =>
    r.verdict != .absent || !w.calls.any fun _ c =>
      c.provider == provider && c.request.fingerprint == request.fingerprint && c.status != .dropped
  | _, _ => true

/-- Where a call raises anything but a transient failure, the provider has not accepted the message and will not. -/
def refusedOutright (w : Store) : Op → Env → Bool
  | .sendAnswer call, .receipt (.error exc) =>
    classify exc == .transient || (w.calls.get call).all fun c => c.status == .dropped
  | _, _ => true

/-- The answers are those of the repository's providers. -/
def FromProviders (registry : ProviderKind → SendProvider) (w : Store) : Op → Env → Prop
  | .prepare provider request, .prepared r => (registry provider).Prepares request r
  | .sendAnswer call, .receipt r => ∀ c, w.calls.get call = some c → (registry c.provider).Sends c.request r
  | _, _ => True

/-- With the providers goes that an execution's row in flight is its own: no sweep that has lost its transaction moves
it. -/
structure Assumed where
  sound : Bool := false
  refused : Bool := false
  registry : Option (ProviderKind → SendProvider) := none

structure Assumed.Answers (A : Assumed) (w : Store) (o : Op) (e : Env) : Prop where
  sound : A.sound = true → soundProbe w o e = true
  refused : A.refused = true → refusedOutright w o e = true
  registry : ∀ reg, A.registry = some reg → FromProviders reg w o e

/-! ## A row and its messages -/

/-- Not delivered, and with no dispatch recorded since a resend was last forced: it is dispatched without a probe. -/
def SendRow.blind (r : SendRow) : Bool := r.dispatchedAt.isNone && r.state != .delivered

theorem blind_iff {r : SendRow} : r.blind = true ↔ r.dispatchedAt = none ∧ r.state ≠ .delivered := by
  simp only [SendRow.blind, Bool.and_eq_true, Option.isNone_iff_eq_none, bne_iff_ne, ne_eq]

theorem not_blind {r : SendRow} (h : r.dispatchedAt.isSome = true) : ¬ r.blind = true := by
  rw [blind_iff]
  rintro ⟨hd, -⟩
  rw [hd] at h
  cases h

/-- The draft id of a row under the providers: Gmail's is recorded with the dispatch, and no other has one. -/
structure Drafted (registry : ProviderKind → SendProvider) (r : SendRow) : Prop where
  gmail : registry r.provider = .gmail → ∀ id, r.providerDraftId = some id → truthy (some id) = true
  recorded : registry r.provider = .gmail → r.dispatchedAt.isSome → r.providerDraftId.isSome
  other : registry r.provider ≠ .gmail → r.providerDraftId = none

/-- What a row says where `n` messages are live under its key and `forced` resends were applied. -/
structure RowEvident (A : Assumed) (n forced now : Nat) (r : SendRow) : Prop where
  dated : ∀ d, r.dispatchedAt = some d → d ≤ now
  bound : A.sound = true → n ≤ 1 + forced
  blind : A.sound = true → r.blind = true → n ≤ forced
  failed : A.sound = true → A.refused = true → r.state.failed = true → n ≤ forced
  doubted : r.state = .uncertain → r.dispatchedAt.isSome
  /-- What was delivered without a dispatch time was resent. -/
  sighted : A.sound = true → r.state = .delivered → r.dispatchedAt = none → 0 < forced
  drafts : ∀ reg, A.registry = some reg → Drafted reg r

structure Evident (A : Assumed) (w : Store) : Prop where
  wf : WellFormed w
  /-- Every message is a send's. -/
  known : ∀ n c, w.calls.get n = some c → ∃ sid r, w.sends.get sid = some r ∧
    c.request.fingerprint = r.idempotencyKey ∧ c.provider = r.provider
  rows : ∀ sid r, w.sends.get sid = some r →
    RowEvident A (w.live r.idempotencyKey).card (w.forced sid) w.now r

/-! ## What an operation owes -/

def WriteFits (A : Assumed) (n forced : Nat) (r : SendRow) : Write → Prop
  | .dispatch draftId => ∀ reg, A.registry = some reg →
    (reg r.provider = .gmail → truthy draftId = true ∧ r.providerDraftId.or draftId = draftId) ∧
      (reg r.provider ≠ .gmail → draftId = none)
  | .delivered receipt _ => (A.sound = true → r.dispatchedAt = none → 0 < forced) ∧
    ∀ reg, A.registry = some reg → receipt.providerDraftId = none ∨ receipt.providerDraftId = r.providerDraftId
  | .terminal state _ _ => state.failed = true ∧ (A.sound = true → A.refused = true → n ≤ forced)
  | _ => True

/-- The row a message may be handed over for. -/
structure Dispatchable (A : Assumed) (w : Store) (sid : Nat) (r : SendRow) (provider : ProviderKind)
    (request : SendRequest) : Prop where
  provider : provider = r.provider
  key : request.fingerprint = r.idempotencyKey
  unfailed : r.state.failed = false
  clear : A.sound = true → (w.live r.idempotencyKey).card ≤ w.forced sid
  blind : A.sound = true → r.blind = true → (w.live r.idempotencyKey).card < w.forced sid
  flying : A.registry.isSome = true → r.state = .inFlight
  dated : A.registry.isSome = true → ∃ d, r.dispatchedAt = some d ∧ d ≤ w.now
  draft : A.registry.isSome = true → r.providerDraftId = request.providerDraftId

/-- Written only by an execution, which holds the send. -/
def Write.own : Write → Bool
  | dispatch _ | terminal _ _ _ => true
  | _ => false

/-- What an operation of a program owes that holds the sends in `holds` and may write to those in `writes`. -/
def Owes (A : Assumed) (holds writes : Nat → Prop) (w : Store) : Op → Prop
  | .write id u => writes id ∧ (u.own = true → holds id) ∧ ∀ r, w.sends.get id = some r → r.state = .inFlight →
    WriteFits A (w.live r.idempotencyKey).card (w.forced id) r u
  | .sendCall provider request =>
    ∃ sid r, holds sid ∧ w.sends.get sid = some r ∧ Dispatchable A w sid r provider request
  | .operatorRetryWrite id _ _ =>
    A.sound = true → ∀ r, w.sends.get id = some r → r.state = .delivered → r.dispatchedAt.isSome
  | _ => True

variable {A : Assumed} {settings : Settings} {w w' : Store} {o : Op}

theorem RowEvident.mono {n n' forced now now' : Nat} {r : SendRow} (h : RowEvident A n forced now r) (hn : n' ≤ n)
    (hnow : now ≤ now') : RowEvident A n' forced now' r where
  dated d hd := Nat.le_trans (h.dated d hd) hnow
  bound hs := Nat.le_trans hn (h.bound hs)
  blind hs hb := Nat.le_trans hn (h.blind hs hb)
  failed hs hr hf := Nat.le_trans hn (h.failed hs hr hf)
  doubted := h.doubted
  sighted := h.sighted
  drafts := h.drafts

theorem Drafted.congr {reg : ProviderKind → SendProvider} {r r' : SendRow} (h : Drafted reg r)
    (hp : r'.provider = r.provider) (hd : r'.dispatchedAt.isSome → r.dispatchedAt.isSome)
    (hid : r'.providerDraftId = r.providerDraftId) : Drafted reg r' where
  gmail := by rw [hp, hid]; exact h.gmail
  recorded hg ha := by rw [hid]; exact h.recorded (hp ▸ hg) (hd ha)
  other := by rw [hp, hid]; exact h.other

theorem Drafted.dispatched {reg : ProviderKind → SendProvider} {now : Nat} {r : SendRow} {draftId : Option String}
    (hg : reg r.provider = .gmail → truthy draftId = true ∧ r.providerDraftId.or draftId = draftId)
    (ho : reg r.provider ≠ .gmail → draftId = none) (h : Drafted reg r) : Drafted reg (dispatchRow now draftId r) where
  gmail hp id hid := by
    obtain ⟨ht, he⟩ := hg hp
    simp only [dispatchRow] at hid
    rw [← hid, he]
    exact ht
  recorded hp _ := by
    obtain ⟨ht, he⟩ := hg hp
    simp only [dispatchRow, he]
    cases draftId with
    | none => cases ht
    | some _ => rfl
  other hp := by
    simp only [dispatchRow, h.other hp, ho hp, Option.or_none]

theorem RowEvident.wrote {n forced now : Nat} {r : SendRow} {u : Write} (h : RowEvident A n forced now r)
    (hg : u.guard r = true) (hfit : WriteFits A n forced r u) : RowEvident A n forced now (u.row now r) := by
  have hs := Write.inFlight_of_guard hg
  have hflies : r.blind = true ↔ r.dispatchedAt = none := by simp [blind_iff, hs]
  cases u with
  | dispatch draftId =>
    refine ⟨fun d hd => ?_, h.bound, fun _ hb => (nomatch hb), fun _ _ hf => ?_, fun _ => rfl, fun _ hst => ?_,
      fun reg hreg => (h.drafts reg hreg).dispatched (hfit reg hreg).1 (hfit reg hreg).2⟩
    · obtain rfl := Option.some.inj hd
      cases hr : r.dispatchedAt with
      | none => exact Nat.le_refl _
      | some d => exact h.dated d hr
    · simp only [Write.row, dispatchRow, hs] at hf
      cases hf
    · simp only [Write.row, dispatchRow, hs] at hst
      cases hst
  | delivered receipt evidence =>
    refine ⟨h.dated, h.bound, fun _ hb => ?_, fun _ _ hf => (nomatch hf), fun hst => (nomatch hst),
      fun ha _ hd => hfit.1 ha hd, fun reg hreg => (h.drafts reg hreg).congr rfl id ?_⟩
    · exact absurd rfl (blind_iff.1 hb).2
    · simp only [Write.row, deliveredRow]
      rcases hfit.2 reg hreg with he | he <;> rw [he]
      · rfl
      · cases r.providerDraftId <;> rfl
  | uncertain reason =>
    have hd : r.dispatchedAt.isSome = true := (Bool.and_eq_true_iff.1 hg).2
    exact ⟨h.dated, h.bound, fun _ hb => absurd hb (not_blind hd), fun _ _ hf => (nomatch hf),
      fun _ => hd, fun _ hst => (nomatch hst), fun reg hreg => (h.drafts reg hreg).congr rfl id rfl⟩
  | error errorClass detail =>
    exact ⟨h.dated, h.bound, h.blind, h.failed, h.doubted, h.sighted, fun reg hreg => (h.drafts reg hreg).congr rfl id rfl⟩
  | terminal state errorClass detail =>
    refine ⟨h.dated, h.bound, fun ha hb => h.blind ha (hflies.2 (blind_iff.1 hb).1), fun ha hr _ => hfit.2 ha hr,
      fun hst => ?_, fun _ hst => ?_, fun reg hreg => (h.drafts reg hreg).congr rfl id rfl⟩
    all_goals
      have hfailed := hfit.1
      rw [show state = _ from hst] at hfailed
      cases hfailed

/-! ## Every operation that owes nothing more keeps the evidence -/

theorem live_congr (h : w'.calls = w.calls) (fingerprint : String) : w'.live fingerprint = w.live fingerprint := by
  simp only [Store.live, h]

theorem Did.live (h : Did settings w o w') (fingerprint : String) :
    w'.live fingerprint = w.live fingerprint ∨
      ∃ provider request, o = .sendCall provider request ∧ request.fingerprint = fingerprint ∧
        w'.live fingerprint = insert w.calls.next (w.live fingerprint) := by
  rcases h.calls with hc | ⟨provider, request, rfl, hc⟩
  · exact .inl (live_congr hc fingerprint)
  · by_cases hfp : request.fingerprint = fingerprint
    · refine .inr ⟨provider, request, rfl, hfp, ?_⟩
      simp only [Store.live, hc]
      rw [Table.hits_insert, if_pos (by simp [hfp])]
    · refine .inl ?_
      simp only [Store.live, hc]
      rw [Table.hits_insert, if_neg (by simp [hfp])]

/-- Nothing is out under a key no send has. -/
theorem live_eq_empty (h : Evident A w) {key : String}
    (hkey : ∀ sid r, w.sends.get sid = some r → r.idempotencyKey ≠ key) : w.live key = ∅ := by
  refine Finset.eq_empty_of_forall_notMem fun n hn => ?_
  obtain ⟨c, hc, -, hfp⟩ := Store.mem_live.1 hn
  obtain ⟨sid, r, hr, hk, -⟩ := h.known n c hc
  exact hkey sid r hr (hk.symm.trans hfp)

theorem evident_newSend (args : ClaimArgs) (forced now now' : Nat) :
    RowEvident A 0 forced now' (Store.newSend now args) where
  dated _ hd := nomatch hd
  bound _ := Nat.zero_le _
  blind _ _ := Nat.zero_le _
  failed _ _ hf := nomatch hf
  doubted hst := nomatch hst
  sighted _ hst := nomatch hst
  drafts _ _ := ⟨fun _ _ hid => (nomatch hid), fun _ hd => (nomatch hd), fun _ => rfl⟩

theorem key_of_claim {r r' : SendRow} (h : r'.claim = r.claim) : r'.idempotencyKey = r.idempotencyKey := by
  simp only [SendRow.claim, ClaimArgs.mk.injEq] at h
  exact h.2.2.2.2.1

theorem provider_of_claim {r r' : SendRow} (h : r'.claim = r.claim) : r'.provider = r.provider := by
  simp only [SendRow.claim, ClaimArgs.mk.injEq] at h
  exact h.2.2.2.1

/-- A claim that was won is under a key no send had. -/
theorem key_free (hw : WellFormed w) {args : ClaimArgs} (hfits : Fits w (.claimAndEnqueue args))
    (hfree : w.sendByKey args.userId args.idempotencyKey = none) (sid : Nat) (r : SendRow)
    (hr : w.sends.get sid = some r) : r.idempotencyKey ≠ args.idempotencyKey := by
  intro hk
  obtain ⟨d, hd, ho⟩ := hfits
  obtain ⟨e, he, ho'⟩ := hw.origin sid r hr
  simp only [DraftRow.origin, Prod.mk.injEq] at ho ho'
  have hid := hw.keys _ _ d e hd he (by rw [ho.2.2.2, ho'.2.2.2, hk])
  rw [hid, he] at hd
  obtain rfl := Option.some.inj hd
  exact sendByKey_eq_none hfree hr ⟨by rw [← ho'.1, ho.1], hk⟩

variable {holds writes : Nat → Prop}

theorem Evident.row_did (h : Evident A w) (hfits : Fits w o) (howes : Owes A holds writes w o)
    (hd : Did settings w o w') {sid : Nat} {r' : SendRow} (hr' : w'.sends.get sid = some r') :
    RowEvident A (w'.live r'.idempotencyKey).card (w'.forced sid) w'.now r' := by
  have hm := hd.send sid
  rw [hr'] at hm
  rw [hd.now]
  rcases hd.live r'.idempotencyKey with hl | ⟨provider, request, rfl, hfp, hl⟩
  · rw [hl]
    generalize hq : some r' = q at hm
    generalize w'.forced sid = n at hm ⊢
    cases hm with
    | same => exact h.rows sid r' hq.symm
    | wrote u hr hg =>
      obtain rfl := Option.some.inj hq
      rw [key_of_claim (claim_row u w.now _)]
      exact (h.rows sid _ hr).wrote hg (howes.2.2 _ hr (Write.inFlight_of_guard hg))
    | bumped hr =>
      obtain rfl := Option.some.inj hq
      obtain ⟨h1, h2, h3, h4, h5, h6, h7⟩ := h.rows sid _ hr
      exact ⟨h1, h2, h3, h4, h5, h6, fun reg hreg => (h7 reg hreg).congr rfl id rfl⟩
    | claimed args hn hfree =>
      obtain rfl := Option.some.inj hq
      have hnone : w.live (Store.newSend w.now args).idempotencyKey = ∅ := live_eq_empty h (key_free h.wf hfits hfree)
      rw [hnone, Finset.card_empty]
      exact evident_newSend args _ _ _
    | @retried r userId partition hr =>
      obtain rfl := Option.some.inj hq
      obtain ⟨h1, h2, h3, -, -, -, h7⟩ := h.rows sid _ hr
      refine ⟨h1, h2, fun ha hb => h3 ha (blind_iff.2 ?_), fun _ _ hf => (nomatch hf), fun hst => (nomatch hst),
        fun _ hst => (nomatch hst), fun reg hreg => (h7 reg hreg).congr rfl id rfl⟩
      -- A delivered send that comes back in flight was dispatched.
      have hnone : r.dispatchedAt = none := (blind_iff.1 hb).1
      refine ⟨hnone, fun hst => ?_⟩
      have := howes ha r hr hst
      rw [hnone] at this
      cases this
    | @attested r userId note partition hr hu =>
      obtain rfl := Option.some.inj hq
      obtain ⟨h1, h2, -, -, h5, -, h7⟩ := h.rows sid _ hr
      refine ⟨h1, h2, fun _ hb => absurd rfl (blind_iff.1 hb).2, fun _ _ hf => (nomatch hf), fun hst => (nomatch hst),
        fun _ _ hnone => ?_, fun reg hreg => (h7 reg hreg).congr rfl id rfl⟩
      have := h5 hu
      rw [show r.dispatchedAt = none from hnone] at this
      cases this
    | resent userId note partition hr hu =>
      obtain rfl := Option.some.inj hq
      obtain ⟨-, h2, -, -, -, -, h7⟩ := h.rows sid _ hr
      refine ⟨fun _ hd => (nomatch hd), fun hs => Nat.le_succ_of_le (h2 hs), fun hs _ => ?_, fun _ _ hf => (nomatch hf),
        fun hst => (nomatch hst), fun _ hst => (nomatch hst), fun reg hreg => (h7 reg hreg).congr rfl nofun rfl⟩
      have := h2 hs
      simp only [resendRow]
      omega
  · -- A message was handed over, under this row's key and so for this row.
    rw [hl]
    generalize hq : some r' = q at hm
    generalize hn : w'.forced sid = n at hm ⊢
    cases hm
    obtain ⟨sid₀, r₀, -, hr₀, hdis⟩ := howes
    obtain rfl : sid = sid₀ := h.wf.key_inj hq.symm hr₀ (by rw [← hfp, hdis.key])
    obtain rfl := Option.some.inj (hq.trans hr₀)
    have hrow := h.rows sid r' hr₀
    have hcard := Finset.card_insert_le w.calls.next (w.live r'.idempotencyKey)
    refine ⟨hrow.dated, fun hs => ?_, fun hs hb => ?_, fun _ _ hf => ?_, hrow.doubted, hrow.sighted, hrow.drafts⟩
    · have := hdis.clear hs
      omega
    · have := hdis.blind hs hb
      omega
    · rw [hdis.unfailed] at hf
      cases hf

/-- **An operation that pays what it owes keeps the evidence.** -/
theorem Evident.did (h : Evident A w) (hfits : Fits w o) (howes : Owes A holds writes w o)
    (hd : Did settings w o w') : Evident A w' where
  wf := h.wf.did hfits hd
  known n c hc := by
    have old (hold : w.calls.get n = some c) : ∃ sid r, w'.sends.get sid = some r ∧
        c.request.fingerprint = r.idempotencyKey ∧ c.provider = r.provider := by
      obtain ⟨sid, r, hr, hk, hp⟩ := h.known n c hold
      obtain ⟨r', hr', hcl⟩ := hd.extends.sends sid r hr
      exact ⟨sid, r', hr', hk.trans (key_of_claim hcl).symm, hp.trans (provider_of_claim hcl).symm⟩
    rcases hd.calls with he | ⟨provider, request, rfl, he⟩
    · exact old (he ▸ hc)
    · rw [he] at hc
      rcases Table.get_insert_cases hc with ⟨-, rfl⟩ | ⟨-, hc⟩
      · obtain ⟨sid, r, -, hr, hdis⟩ := howes
        obtain ⟨r', hr', hcl⟩ := hd.extends.sends sid r hr
        exact ⟨sid, r', hr', hdis.key.trans (key_of_claim hcl).symm, hdis.provider.trans (provider_of_claim hcl).symm⟩
      · exact old hc
  rows _ _ hr := h.row_did hfits howes hd hr

theorem Owes.mono {writes' : Nat → Prop} (hwrites : ∀ sid, writes sid → writes' sid) (h : Owes A holds writes w o) :
    Owes A holds writes' w o := by
  cases o <;> first | exact h | exact ⟨hwrites _ h.1, h.2⟩

/-! ## Outside -/

theorem live_settle (w : Store) (call : Nat) (ok : Bool) (fingerprint : String) :
    (w.settleCall call ok).live fingerprint ⊆ w.live fingerprint := by
  refine Table.hits_updateWhere fun c hc hp => ?_
  simp only [Bool.and_eq_true, bne_iff_ne, ne_eq, beq_iff_eq] at hc hp ⊢
  exact ⟨by rw [hc]; exact nofun, hp.2⟩

theorem calls_settle (w : Store) (call : Nat) (ok : Bool) {n : Nat} {c' : Call}
    (h : (w.settleCall call ok).calls.get n = some c') :
    ∃ c, w.calls.get n = some c ∧ c'.provider = c.provider ∧ c'.request = c.request := by
  unfold Store.settleCall at h
  rcases w.calls.get_updateWhere_cases call (fun c => c.status == .pending)
    (fun c => { c with status := if ok then .accepted else .dropped }) n with he | ⟨-, c, hc, -, he⟩
  · exact ⟨c', by rw [← he]; exact h, rfl, rfl⟩
  · rw [he, Option.some.injEq] at h
    exact ⟨c, hc, by rw [← h], by rw [← h]⟩

theorem Evident.outside (h : Evident A w) {a : Action} (ha : w.outside settings a = some w') : Evident A w' := by
  have hwf := h.wf.outside ha
  cases a <;> simp only [Store.outside, Option.some.injEq, reduceCtorEq] at ha <;> subst ha
  case tick elapsed => exact ⟨hwf, h.known, fun sid r hr => (h.rows sid r hr).mono (Nat.le_refl _) (Nat.le_add_right _ _)⟩
  case settle call ok =>
    refine ⟨hwf, fun n c hc => ?_, fun sid r hr => ?_⟩
    · obtain ⟨c₀, hc₀, hp, hreq⟩ := calls_settle w call ok hc
      rw [hp, hreq]
      exact h.known n c₀ hc₀
    · exact (h.rows sid r hr).mono (Finset.card_le_card (live_settle w call ok _)) (Nat.le_refl _)
  all_goals exact ⟨hwf, h.known, h.rows⟩

/-- Another table of the same jobs' worth of evidence: the jobs carry none. -/
theorem Evident.withJobs (h : Evident A w) {jobs : Queue.Jobs} (hwf : WellFormed { w with jobs := jobs }) :
    Evident A { w with jobs := jobs } := ⟨hwf, h.known, h.rows⟩

end Send
end SafeSend
