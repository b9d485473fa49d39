import SafeSend.Send.Evidence
/-!
# The worker pays what it owes

The walk through the worker's programs.  An execution holds its send: no other process dispatches it or fails it.  A sweep
that has lost its transaction may still write down what its probe told it, so the row an execution read may be settled
under it; what is left is that nothing else goes out, and that a dispatch time is taken away by a forced resend alone.
-/
namespace SafeSend
namespace Send

open Lib
open Lib.Prog (Safe Stable Contract)
open Queue (ClaimedJob Recovery)

/-- What any operation leaves of a send. -/
structure RowKept (A : Assumed) (n n' : Nat) (r r' : SendRow) : Prop where
  claim : r'.claim = r.claim
  forced : n ≤ n'
  blind : A.sound = true → r'.blind = true → r.blind = true ∨ n < n'
  draft : A.registry.isSome = true → r.providerDraftId.isSome → r'.providerDraftId = r.providerDraftId

/-- What the others leave of a send that is held. -/
structure RowAlone (A : Assumed) (l l' : Finset Nat) (r r' : SendRow) : Prop where
  live : l' ⊆ l
  failed : r'.state.failed = true → r.state.failed = true
  flying : A.registry.isSome = true → r.state = .inFlight →
    r'.state = .inFlight ∧ r'.dispatchedAt = r.dispatchedAt ∧ r'.providerDraftId = r.providerDraftId

theorem RowKept.refl (A : Assumed) (n : Nat) (r : SendRow) : RowKept A n n r r :=
  ⟨rfl, Nat.le_refl _, fun _ hb => .inl hb, fun _ _ => rfl⟩

theorem RowKept.trans {A : Assumed} {n n' n'' : Nat} {r r' r'' : SendRow} (h : RowKept A n n' r r')
    (h' : RowKept A n' n'' r' r'') : RowKept A n n'' r r'' where
  claim := h'.claim.trans h.claim
  forced := Nat.le_trans h.forced h'.forced
  blind hs hb := by
    rcases h'.blind hs hb with hb | hlt
    · exact (h.blind hs hb).imp_right fun hlt => Nat.lt_of_lt_of_le hlt h'.forced
    · exact .inr (Nat.lt_of_le_of_lt h.forced hlt)
  draft hr hid := (h'.draft hr (by rw [h.draft hr hid]; exact hid)).trans (h.draft hr hid)

theorem RowAlone.refl (A : Assumed) (l : Finset Nat) (r : SendRow) : RowAlone A l l r r :=
  ⟨Finset.Subset.refl _, id, fun _ hs => ⟨hs, rfl, rfl⟩⟩

theorem RowAlone.trans {A : Assumed} {l l' l'' : Finset Nat} {r r' r'' : SendRow} (h : RowAlone A l l' r r')
    (h' : RowAlone A l' l'' r' r'') : RowAlone A l l'' r r'' where
  live := h'.live.trans h.live
  failed hf := h.failed (h'.failed hf)
  flying hr hs := by
    obtain ⟨h1, h2, h3⟩ := h.flying hr hs
    obtain ⟨h1', h2', h3'⟩ := h'.flying hr h1
    exact ⟨h1', h2'.trans h2, h3'.trans h3⟩

/-- What is left of every send, and of those in `holds`. -/
structure Undisturbed (A : Assumed) (holds : Nat → Prop) (w w' : Store) : Prop where
  rows : ∀ sid r, w.sends.get sid = some r → ∃ r', w'.sends.get sid = some r' ∧
    RowKept A (w.forced sid) (w'.forced sid) r r' ∧
    (holds sid → RowAlone A (w.live r.idempotencyKey) (w'.live r.idempotencyKey) r r')
  calls : ∀ n c, w.calls.get n = some c →
    ∃ c', w'.calls.get n = some c' ∧ c'.provider = c.provider ∧ c'.request = c.request

theorem Undisturbed.refl (A : Assumed) (holds : Nat → Prop) (w : Store) : Undisturbed A holds w w where
  rows _ r hr := ⟨r, hr, .refl _ _ _, fun _ => .refl _ _ _⟩
  calls _ c hc := ⟨c, hc, rfl, rfl⟩

theorem Undisturbed.trans {A : Assumed} {holds : Nat → Prop} {w w' w'' : Store} (h : Undisturbed A holds w w')
    (h' : Undisturbed A holds w' w'') : Undisturbed A holds w w'' where
  rows sid r hr := by
    obtain ⟨r', hr', hk, ha⟩ := h.rows sid r hr
    obtain ⟨r'', hr'', hk', ha'⟩ := h'.rows sid r' hr'
    rw [key_of_claim hk.claim] at ha'
    exact ⟨r'', hr'', hk.trans hk', fun hs => (ha hs).trans (ha' hs)⟩
  calls n c hc := by
    obtain ⟨c', hc', hp, hr⟩ := h.calls n c hc
    obtain ⟨c'', hc'', hp', hr'⟩ := h'.calls n c' hc'
    exact ⟨c'', hc'', hp'.trans hp, hr'.trans hr⟩

/-- A program that holds the sends in `holds` and may write to those in `writes`. -/
def holding (settings : Settings) (A : Assumed) (holds writes : Nat → Prop) : Contract Op Op.Ans Env Store where
  sem := sem settings
  ok o e w := A.Answers w o e
  inv := Evident A
  rely := Undisturbed A holds
  guar o w _ := Owes A holds writes w o
  refl := Undisturbed.refl A holds
  trans := Undisturbed.trans

variable {settings : Settings} {A : Assumed} {holds writes : Nat → Prop} {w w' : Store} {o : Op}

/-! ## Operations that disturb no one -/

theorem Did.calls_keep (h : Did settings w o w') (n : Nat) (c : Call) (hc : w.calls.get n = some c) :
    ∃ c', w'.calls.get n = some c' ∧ c'.provider = c.provider ∧ c'.request = c.request := by
  rcases h.calls with he | ⟨provider, request, -, he⟩ <;> rw [he]
  · exact ⟨c, hc, rfl, rfl⟩
  · exact ⟨c, Table.get_insert_of_get _ hc, rfl, rfl⟩

/-- The write changes more than the last error. -/
def Write.moves : Write → Bool
  | error _ _ => false
  | _ => true

/-- **What every operation leaves of a send**, whoever carries it out. -/
theorem Did.rowKept (h : Did settings w o w') (howes : Owes A holds writes w o) {sid : Nat} {r : SendRow}
    (hr : w.sends.get sid = some r) :
    ∃ r', w'.sends.get sid = some r' ∧ RowKept A (w.forced sid) (w'.forced sid) r r' := by
  have hm := h.send sid
  generalize w'.sends.get sid = q at hm ⊢
  generalize w'.forced sid = n at hm ⊢
  cases hm with
  | same => exact ⟨r, hr, .refl _ _ _⟩
  | claimed args hn hfree => rw [hn, w.sends.get_next] at hr; cases hr
  | bumped hr' =>
    obtain rfl := Option.some.inj (hr.symm.trans hr')
    exact ⟨_, rfl, rfl, Nat.le_refl _, fun _ hb => .inl hb, fun _ _ => rfl⟩
  | retried userId partition hr' =>
    obtain rfl := Option.some.inj (hr.symm.trans hr')
    refine ⟨_, rfl, rfl, Nat.le_refl _, fun ha hb => .inl (blind_iff.2 ⟨(blind_iff.1 hb).1, fun hst => ?_⟩), fun _ _ => rfl⟩
    have hsome := howes ha r hr hst
    rw [show r.dispatchedAt = none from (blind_iff.1 hb).1] at hsome
    cases hsome
  | attested userId note partition hr' hu =>
    obtain rfl := Option.some.inj (hr.symm.trans hr')
    exact ⟨_, rfl, rfl, Nat.le_refl _, fun _ hb => absurd rfl (blind_iff.1 hb).2, fun _ _ => rfl⟩
  | resent userId note partition hr' hu =>
    obtain rfl := Option.some.inj (hr.symm.trans hr')
    exact ⟨_, rfl, rfl, Nat.le_succ _, fun _ _ => .inr (Nat.lt_succ_self _), fun _ _ => rfl⟩
  | wrote u hr' hg =>
    obtain rfl := Option.some.inj (hr.symm.trans hr')
    have hst := Write.inFlight_of_guard hg
    have hfit := howes.2.2 r hr hst
    refine ⟨_, rfl, claim_row u w.now r, Nat.le_refl _, fun _ hb => .inl ?_, fun hreg hid => ?_⟩
    · cases u with
      | dispatch draftId => cases hb
      | delivered receipt evidence => exact absurd rfl (blind_iff.1 hb).2
      | uncertain reason => exact absurd hb (not_blind (Bool.and_eq_true_iff.1 hg).2)
      | error errorClass detail => exact hb
      | terminal state errorClass detail => exact blind_iff.2 ⟨(blind_iff.1 hb).1, by rw [hst]; exact nofun⟩
    · obtain ⟨id, hid⟩ := Option.isSome_iff_exists.1 hid
      obtain ⟨reg, hreg⟩ := Option.isSome_iff_exists.1 hreg
      cases u with
      | dispatch draftId => simp only [Write.row, dispatchRow, hid, Option.some_or]
      | delivered receipt evidence =>
        simp only [Write.row, deliveredRow]
        rcases hfit.2 reg hreg with he | he <;> rw [he]
        · rfl
        · rw [hid, Option.some_or]
      | _ => rfl

/-- **Another's operation leaves a send that is held as it was**, unless it dispatches or fails it, moves it, or hands a
message over under its key. -/
theorem Did.rowAlone (h : Did settings w o w') {sid : Nat} {r r' : SendRow} (hr : w.sends.get sid = some r)
    (hr' : w'.sends.get sid = some r') (hown : ∀ u, o = .write sid u → u.own = false)
    (hmoves : A.registry.isSome = true → ∀ u, o = .write sid u → u.guard r = true → u.moves = false)
    (hcall : ∀ provider request, o = .sendCall provider request → request.fingerprint ≠ r.idempotencyKey) :
    RowAlone A (w.live r.idempotencyKey) (w'.live r.idempotencyKey) r r' := by
  have hlive : w'.live r.idempotencyKey ⊆ w.live r.idempotencyKey := by
    rcases h.live r.idempotencyKey with hl | ⟨provider, request, ho, hfp, -⟩
    · rw [hl]
    · exact absurd hfp (hcall provider request ho)
  have hm := h.send sid
  rw [hr'] at hm
  generalize hq : some r' = q at hm
  generalize w'.forced sid = n at hm
  cases hm with
  | same =>
    obtain rfl := Option.some.inj (hq.trans hr)
    exact ⟨hlive, id, fun _ hs => ⟨hs, rfl, rfl⟩⟩
  | claimed args hn hfree => rw [hn, w.sends.get_next] at hr; cases hr
  | bumped hr₀ =>
    obtain rfl := Option.some.inj (hr.symm.trans hr₀)
    obtain rfl := Option.some.inj hq
    exact ⟨hlive, id, fun _ hs => ⟨hs, rfl, rfl⟩⟩
  | retried userId partition hr₀ =>
    obtain rfl := Option.some.inj (hr.symm.trans hr₀)
    obtain rfl := Option.some.inj hq
    exact ⟨hlive, nofun, fun _ _ => ⟨rfl, rfl, rfl⟩⟩
  | attested userId note partition hr₀ hu | resent userId note partition hr₀ hu =>
    obtain rfl := Option.some.inj (hr.symm.trans hr₀)
    obtain rfl := Option.some.inj hq
    exact ⟨hlive, nofun, fun _ hs => (by rw [hu] at hs; cases hs)⟩
  | wrote u hr₀ hg =>
    obtain rfl := Option.some.inj (hr.symm.trans hr₀)
    obtain rfl := Option.some.inj hq
    have hmove := fun hreg => hmoves hreg u rfl hg
    cases u with
    | dispatch | terminal => cases hown _ rfl
    | delivered | uncertain => exact ⟨hlive, nofun, fun hreg _ => nomatch hmove hreg⟩
    | error => exact ⟨hlive, id, fun _ hs => ⟨hs, rfl, rfl⟩⟩

/-- The worker's operations after which everything known still stands. -/
def Op.gentle (writes : Nat → Prop) : Op → Prop
  | .write id (.error _ _) => writes id
  | .bumpReconcileAttempts _ | .loadSend _ | .loadDraft _ | .prepare _ _ | .sendAnswer _ | .probe _ _ | .discard _ _
  | .recordSuccess _ | .adapterRun _ | .recoverRow _ => True
  | _ => False

theorem owes_of_gentle (h : o.gentle writes) : Owes A holds writes w o := by
  cases o <;> try trivial
  case write id u =>
    cases u with
    | error => exact ⟨h, nofun, fun _ _ _ => trivial⟩
    | _ => exact False.elim h

theorem undisturbed_of_gentle (ho : o.gentle writes) (h : Did settings w o w') : Undisturbed A holds w w' where
  calls := h.calls_keep
  rows sid r hr := by
    have howes : Owes A holds writes w o := owes_of_gentle ho
    obtain ⟨r', hr', hk⟩ := h.rowKept howes hr
    have herror (u : Write) (hu : o = .write sid u) : u.own = false ∧ u.moves = false := by
      subst hu
      cases u with
      | error => exact ⟨rfl, rfl⟩
      | _ => exact False.elim ho
    refine ⟨r', hr', hk, fun _ => h.rowAlone hr hr' (fun u hu => (herror u hu).1) (fun _ u hu _ => (herror u hu).2) ?_⟩
    intro provider request hc
    subst hc
    exact False.elim ho

theorem fits_of_gentle (h : o.gentle writes) : Fits w o := by
  cases o <;> trivial

variable {α : Type} {post : α → Store → Prop}

/-- **An operation that disturbs no one** keeps every stable assertion. -/
theorem Safe.gentle {P : Store → Prop} (hP : Stable (holding settings A holds writes) P) {f : o.Ans → SendProg α}
    (ho : o.gentle writes) (h : P w)
    (hk : ∀ t e x u, P t → P u → Evident A t → Evident A u → A.Answers t o e → sem settings o e t = some (x, u) →
      Safe (holding settings A holds writes) post (f x) u) :
    Safe (holding settings A holds writes) post (perform o >>= f) w :=
  Safe.perform hP h fun t e x u ht hi hok hs =>
    have hd := did_of_sem hs
    have howes : Owes A holds writes t o := owes_of_gentle ho
    have hu : Evident A u := hi.did (fits_of_gentle ho) howes hd
    ⟨hu, howes, hk t e x u ht (hP t u ht (undisturbed_of_gentle ho hd) hu) hi hu hok hs⟩

/-- The worker's guarded write, paid for where its row is in flight. -/
theorem Safe.write {P : Store → Prop} (hP : Stable (holding settings A holds writes) P) {id : Nat} {u : Write}
    {f : Bool → SendProg α} (hid : writes id) (hown : u.own = true → holds id) (h : P w)
    (howes : ∀ t r, P t → Evident A t → t.sends.get id = some r → r.state = .inFlight →
      WriteFits A (t.live r.idempotencyKey).card (t.forced id) r u)
    (hk : ∀ t v x, P t → Evident A t → v = t.updateSend id u.guard (u.row t.now) → Evident A v →
      Safe (holding settings A holds writes) post (f x) v) :
    Safe (holding settings A holds writes) post (perform (.write id u) >>= f) w :=
  Safe.perform hP h fun t _ x v ht hi _ hs =>
    have hd := did_of_sem hs
    have ho : Owes A holds writes t (.write id u) := ⟨hid, hown, fun r hr hst => howes t r ht hi hr hst⟩
    have hv : Evident A v := hi.did (show Fits t (.write id u) from trivial) ho hd
    ⟨hv, ho, hk t v x ht hi (sem_write hs).1 hv⟩

/-! ## What a program knows -/

/-- The row read has not failed; with the providers, it is still in flight with the same evidence. -/
def Loaded (A : Assumed) (sid : Nat) (r₀ : SendRow) (w : Store) : Prop :=
  ∃ r, w.sends.get sid = some r ∧ r.claim = r₀.claim ∧ r.state.failed = false ∧
    (A.registry.isSome = true → r.state = .inFlight ∧ r.dispatchedAt = r₀.dispatchedAt ∧
      r.providerDraftId = r₀.providerDraftId)

/-- The row read was dispatched, or a resend was forced since; with the providers, the draft id it had is the row's. -/
def Marked (A : Assumed) (sid : Nat) (r₀ : SendRow) (w : Store) : Prop :=
  ∃ r, w.sends.get sid = some r ∧ r.claim = r₀.claim ∧ (A.sound = true → r.blind = true → 0 < w.forced sid) ∧
    (A.registry.isSome = true → r₀.providerDraftId = none ∨ r.providerDraftId = r₀.providerDraftId)

/-- Nothing can be out under the send's key but what was forced. -/
def Clear (A : Assumed) (sid : Nat) (c : ClaimArgs) (w : Store) : Prop :=
  (∃ r, w.sends.get sid = some r ∧ r.claim = c) ∧
    (A.sound = true → (w.live c.idempotencyKey).card ≤ w.forced sid)

/-- The attempt is committed: where the row says nothing of it, a resend was forced since. -/
def Committed (A : Assumed) (sid : Nat) (c : ClaimArgs) (w : Store) : Prop :=
  ∃ r, w.sends.get sid = some r ∧ r.claim = c ∧
    (A.sound = true → r.blind = true → (w.live c.idempotencyKey).card < w.forced sid)

/-- The message was handed over as call `n`, and nothing else is out. -/
def Called (A : Assumed) (sid : Nat) (c : ClaimArgs) (request : SendRequest) (n : Nat) (w : Store) : Prop :=
  (∃ r, w.sends.get sid = some r ∧ r.claim = c) ∧
    (∃ call, w.calls.get n = some call ∧ call.provider = c.provider ∧ call.request = request) ∧
      (A.sound = true → ((w.live c.idempotencyKey).erase n).card ≤ w.forced sid)

theorem stable_loaded {sid : Nat} (hs : holds sid) (r₀ : SendRow) :
    Stable (holding settings A holds writes) (Loaded A sid r₀) := by
  rintro w w' ⟨r, hr, hc, hf, hfly⟩ hrely -
  obtain ⟨r', hr', hk, ha⟩ := hrely.rows sid r hr
  refine ⟨r', hr', hk.claim.trans hc, Bool.eq_false_iff.2 fun hf' => ?_, fun hreg => ?_⟩
  · rw [(ha hs).failed hf'] at hf
    cases hf
  · obtain ⟨h1, h2, h3⟩ := hfly hreg
    obtain ⟨h1', h2', h3'⟩ := (ha hs).flying hreg h1
    exact ⟨h1', h2'.trans h2, h3'.trans h3⟩

theorem stable_marked (sid : Nat) (r₀ : SendRow) : Stable (holding settings A holds writes) (Marked A sid r₀) := by
  rintro w w' ⟨r, hr, hc, hb, hid⟩ hrely -
  obtain ⟨r', hr', hk, -⟩ := hrely.rows sid r hr
  refine ⟨r', hr', hk.claim.trans hc, fun hs hblind => ?_, fun hreg => ?_⟩
  · rcases hk.blind hs hblind with hblind | hlt
    · exact Nat.lt_of_lt_of_le (hb hs hblind) hk.forced
    · exact Nat.lt_of_le_of_lt (Nat.zero_le _) hlt
  · rcases hid hreg with hnone | hsame
    · exact .inl hnone
    · cases hn : r₀.providerDraftId with
      | none => exact .inl rfl
      | some id => exact .inr ((hk.draft hreg (by rw [hsame, hn]; rfl)).trans (hsame.trans hn))

theorem stable_clear {sid : Nat} (hs : holds sid) (c : ClaimArgs) :
    Stable (holding settings A holds writes) (Clear A sid c) := by
  rintro w w' ⟨⟨r, hr, rfl⟩, hcard⟩ hrely -
  obtain ⟨r', hr', hk, ha⟩ := hrely.rows sid r hr
  exact ⟨⟨r', hr', hk.claim⟩, fun h => (Finset.card_le_card (ha hs).live).trans ((hcard h).trans hk.forced)⟩

theorem stable_committed {sid : Nat} (hs : holds sid) (c : ClaimArgs) :
    Stable (holding settings A holds writes) fun w => Clear A sid c w ∧ Committed A sid c w := by
  rintro w w' ⟨hclear, r, hr, rfl, hb⟩ hrely hi
  refine ⟨stable_clear hs r.claim w w' hclear hrely hi, ?_⟩
  obtain ⟨r', hr', hk, ha⟩ := hrely.rows sid r hr
  refine ⟨r', hr', hk.claim, fun h hblind => ?_⟩
  have hle := Finset.card_le_card (ha hs).live
  have hforced := hk.forced
  rcases hk.blind h hblind with hblind | hlt
  · exact Nat.lt_of_le_of_lt hle (Nat.lt_of_lt_of_le (hb h hblind) hforced)
  · exact Nat.lt_of_le_of_lt hle (Nat.lt_of_le_of_lt (hclear.2 h) hlt)

theorem stable_called {sid : Nat} (hs : holds sid) (c : ClaimArgs) (request : SendRequest) (n : Nat) :
    Stable (holding settings A holds writes) (Called A sid c request n) := by
  rintro w w' ⟨⟨r, hr, rfl⟩, ⟨call, hcall, hp, hreq⟩, hcard⟩ hrely -
  obtain ⟨r', hr', hk, ha⟩ := hrely.rows sid r hr
  obtain ⟨call', hcall', hp', hreq'⟩ := hrely.calls n call hcall
  exact ⟨⟨r', hr', hk.claim⟩, ⟨call', hcall', hp'.trans hp, hreq'.trans hreq⟩, fun h =>
    (Finset.card_le_card (Finset.erase_subset_erase n (ha hs).live)).trans ((hcard h).trans hk.forced)⟩

theorem Loaded.of_row {sid : Nat} {r : SendRow} (hr : w.sends.get sid = some r) (hst : r.state = .inFlight) :
    Loaded A sid r w := ⟨r, hr, rfl, by rw [hst]; rfl, fun _ => ⟨hst, rfl, rfl⟩⟩

/-- A row that was dispatched is marked. -/
theorem Marked.of_row {sid : Nat} {r : SendRow} (hr : w.sends.get sid = some r) (hd : r.dispatchedAt.isSome = true) :
    Marked A sid r w := ⟨r, hr, rfl, fun _ hb => absurd hb (not_blind hd), fun _ => .inr rfl⟩

/-- What is written over a row in flight as delivered owes, where it was marked. -/
theorem Marked.sighted {sid : Nat} {r r₀ : SendRow} (h : Marked A sid r₀ w) (hr : w.sends.get sid = some r)
    (hst : r.state = .inFlight) (hs : A.sound = true) (hd : r.dispatchedAt = none) : 0 < w.forced sid := by
  obtain ⟨r', hr', -, hb, -⟩ := h
  obtain rfl := Option.some.inj (hr.symm.trans hr')
  exact hb hs (blind_iff.2 ⟨hd, by rw [hst]; exact nofun⟩)

/-- A row in flight that was never dispatched has nothing out but what was forced. -/
theorem clear_of_undispatched (h : Evident A w) {sid : Nat} {r : SendRow} (hr : w.sends.get sid = some r)
    (hst : r.state = .inFlight) (hd : r.dispatchedAt = none) : Clear A sid r.claim w :=
  ⟨⟨r, hr, rfl⟩, fun hs => (h.rows sid r hr).blind hs (blind_iff.2 ⟨hd, by rw [hst]; exact nofun⟩)⟩

/-- A sound ABSENT: nothing is out. -/
theorem clear_of_absent (h : Evident A w) {sid : Nat} {r : SendRow} {request : SendRequest} {probe : ProbeResult}
    (hr : w.sends.get sid = some r) (hk : request.fingerprint = r.idempotencyKey)
    (hok : A.Answers w (.probe r.provider request) (.probed (.ok probe))) (hv : probe.verdict = .absent) :
    Clear A sid r.claim w := by
  refine ⟨⟨r, hr, rfl⟩, fun hs => ?_⟩
  have hsound := hok.sound hs
  simp only [soundProbe, hv, bne_self_eq_false, Bool.false_or, Bool.not_eq_true'] at hsound
  have hnone : w.live r.idempotencyKey = ∅ := by
    refine Finset.eq_empty_of_forall_notMem fun n hn => ?_
    obtain ⟨c, hc, hst, hfp⟩ := Store.mem_live.1 hn
    obtain ⟨sid', r', hr', hk', hp'⟩ := h.known n c hc
    obtain rfl := h.wf.key_inj hr hr' (hfp.symm.trans hk')
    obtain rfl := Option.some.inj (hr.symm.trans hr')
    have := Table.any_eq_false.1 hsound n c hc
    simp [hp', hfp, hk, hst] at this
  rw [show r.claim.idempotencyKey = r.idempotencyKey from rfl, hnone, Finset.card_empty]
  exact Nat.zero_le _

/-- A call that was dropped left nothing out. -/
theorem Called.clear_of_dropped {sid n : Nat} {c : ClaimArgs} {request : SendRequest} (h : Called A sid c request n w)
    (hdrop : ∀ call, w.calls.get n = some call → call.status = .dropped) : Clear A sid c w := by
  obtain ⟨hrow, ⟨call, hcall, -⟩, hcard⟩ := h
  have hn : n ∉ w.live c.idempotencyKey := fun hn => by
    obtain ⟨call', hcall', hst, -⟩ := Store.mem_live.1 hn
    exact hst (hdrop call' hcall')
  exact ⟨hrow, fun hs => by simpa only [Finset.erase_eq_of_notMem hn] using hcard hs⟩

theorem Clear.write {sid id : Nat} {c : ClaimArgs} (u : Write) (h : Clear A sid c w) :
    Clear A sid c (w.updateSend id u.guard (u.row w.now)) := by
  obtain ⟨⟨r, hr, hc⟩, hcard⟩ := h
  have hdid : Did {} w (.write id u) (w.updateSend id u.guard (u.row w.now)) := .wrote id u
  obtain ⟨r', hr', hc'⟩ := hdid.extends.sends sid r hr
  exact ⟨⟨r', hr', hc'.trans hc⟩, hcard⟩

theorem Loaded.claim_eq {sid : Nat} {r₀ : SendRow} {c : ClaimArgs} (h : Loaded A sid r₀ w) (h' : Clear A sid c w) :
    c = r₀.claim := by
  obtain ⟨r, hr, hc, -⟩ := h
  obtain ⟨⟨r', hr', rfl⟩, -⟩ := h'
  obtain rfl := Option.some.inj (hr.symm.trans hr')
  exact hc

/-- What a terminal write owes, where nothing is out. -/
theorem Clear.terminal {sid : Nat} {c : ClaimArgs} {r : SendRow} (h : Clear A sid c w) (hr : w.sends.get sid = some r)
    (hs : A.sound = true) : (w.live r.idempotencyKey).card ≤ w.forced sid := by
  obtain ⟨⟨r', hr', rfl⟩, hcard⟩ := h
  obtain rfl := Option.some.inj (hr.symm.trans hr')
  exact hcard hs

/-! ## Reconciliation -/

/-- "Not sent" is said of a send that is held only where nothing can be out, and then `P` stands too. -/
def Cleared (P : Store → Prop) (A : Assumed) (holds : Nat → Prop) (sid : Nat) (verdict : ReconcileVerdict) (w : Store) :
    Prop :=
  verdict = .notSent → holds sid → P w ∧ ∃ c, Clear A sid c w

variable {P : Store → Prop} {sid : Nat}

theorem stable_cleared (hP : Stable (holding settings A holds writes) P) (verdict : ReconcileVerdict) :
    Stable (holding settings A holds writes) (Cleared P A holds sid verdict) := by
  intro w w' h hr hi hv hs
  obtain ⟨hp, c, hc⟩ := h hv hs
  exact ⟨hP w w' hp hr hi, c, stable_clear hs c w w' hc hr hi⟩

theorem safe_verdict (hP : Stable (holding settings A holds writes) P) {verdict : ReconcileVerdict}
    (hv : verdict ≠ .notSent) : Safe (holding settings A holds writes) (Cleared P A holds sid) (.ret verdict) w :=
  Safe.ret (stable_cleared hP verdict) fun h => absurd h hv

/-- A write that owes nothing, and a verdict that says nothing. -/
theorem safe_note (hw : writes sid) (hP : Stable (holding settings A holds writes) P) {u : Write}
    {verdict : Bool → ReconcileVerdict} (hown : u.own = false) (hu : ∀ n forced r, WriteFits A n forced r u)
    (hv : ∀ x, verdict x ≠ .notSent) :
    Safe (holding settings A holds writes) (Cleared P A holds sid)
      (perform (.write sid u) >>= fun x => .ret (verdict x)) w :=
  Safe.write (Stable.true _) hw (fun h => by rw [hown] at h; cases h) trivial (fun _ _ _ _ _ _ => hu _ _ _)
    fun _ _ x _ _ _ _ => safe_verdict hP (hv x)

theorem safe_probeFailed (hw : writes sid) (hP : Stable (holding settings A holds writes) P) (attempts : Nat) (exc : Exn) :
    Safe (holding settings A holds writes) (Cleared P A holds sid) (probeFailed sid attempts exc) w := by
  unfold probeFailed
  simp only
  split
  · exact safe_note hw hP rfl (fun _ _ _ => trivial) (fun _ => nofun)
  · exact safe_note hw hP rfl (fun _ _ _ => trivial) (fun _ => nofun)

theorem safe_settleProbe (hw : writes sid) (hP : Stable (holding settings A holds writes) P) (note : String)
    {send : SendRow} (attempts : Nat) (probe : ProbeResult) (hm : Marked A sid send w) (hp : P w)
    (hclear : probe.verdict = .absent → ∃ c, Clear A sid c w) :
    Safe (holding settings A holds writes) (Cleared P A holds sid) (settleProbe sid note send attempts probe) w := by
  unfold settleProbe
  split
  · split
    · exact safe_note hw hP rfl (fun _ _ _ => trivial) (fun _ => nofun)
    · -- An adopted delivery names the row's own draft.
      refine Safe.write (stable_marked sid send) hw nofun hm (fun t r ht _ hr hst => ?_) fun t v x _ _ _ _ => ?_
      · refine ⟨ht.sighted hr hst, fun reg hreg => ?_⟩
        obtain ⟨r', hr', -, -, hid⟩ := ht
        obtain rfl := Option.some.inj (hr.symm.trans hr')
        exact (hid (by rw [hreg]; rfl)).imp_right Eq.symm
      · refine safe_verdict hP ?_
        cases x <;> exact nofun
  · rename_i hv
    obtain ⟨c, hc⟩ := hclear hv
    have hstable : Stable (holding settings A holds writes) fun t => P t ∧ (holds sid → Clear A sid c t) :=
      fun t t' h hr hi => ⟨hP t t' h.1 hr hi, fun hs => stable_clear hs c t t' (h.2 hs) hr hi⟩
    refine Safe.gentle hstable hw ⟨hp, fun _ => hc⟩ fun _ _ _ u _ hu _ _ _ _ => ?_
    exact Safe.ret (stable_cleared hP _) fun _ hs => ⟨hu.1, c, hu.2 hs⟩
  · split
    · exact safe_note hw hP rfl (fun _ _ _ => trivial) (fun _ => nofun)
    · exact safe_note hw hP rfl (fun _ _ _ => trivial) (fun _ => nofun)

theorem safe_reconcileDispatched (hw : writes sid) (hP : Stable (holding settings A holds writes) P) (note : String)
    {send : SendRow} (hm : Marked A sid send w) (hp : P w) :
    Safe (holding settings A holds writes) (Cleared P A holds sid) (reconcileDispatched sid note send) w := by
  have hknown := hP.and (stable_marked sid send)
  unfold reconcileDispatched
  split
  · exact safe_note hw hP rfl (fun _ _ _ => trivial) (fun _ => nofun)
  · refine Safe.gentle hknown trivial ⟨hp, hm⟩ fun _ _ draft t _ ht _ _ _ _ => ?_
    cases draft with
    | none => exact safe_note hw hP rfl (fun _ _ _ => trivial) (fun _ => nofun)
    | some draft =>
      refine Safe.gentle hknown trivial ht fun _ _ attempts t _ ht _ _ _ _ => ?_
      refine Safe.gentle hknown trivial ht fun t e r u ht hu hi hiu hok hsem => ?_
      obtain ⟨rfl, rfl⟩ := sem_probe hsem
      cases r with
      | error exc => exact safe_probeFailed hw hP attempts exc
      | ok probe =>
        refine safe_settleProbe hw hP note attempts probe hu.2 hu.1 fun hv => ?_
        obtain ⟨r, hr, hc, -⟩ := hu.2
        have hkey : (requestFor send draft).fingerprint = r.idempotencyKey := (key_of_claim hc).symm
        exact ⟨r.claim, clear_of_absent hi hr hkey (provider_of_claim hc ▸ hok) hv⟩

/-- **Reconciliation says "not sent" only where nothing can be out.** -/
theorem safe_reconcileSend (hw : writes sid) (hP : Stable (holding settings A holds writes) P) (note : String) (hp : P w) :
    Safe (holding settings A holds writes) (Cleared P A holds sid) (reconcileSend sid note) w := by
  unfold reconcileSend
  refine Safe.gentle hP trivial hp fun t e x u _ hu _ hi _ hsem => ?_
  obtain ⟨rfl, rfl⟩ := sem_loadSend hsem
  cases hx : u.sends.get sid with
  | none => exact safe_verdict hP nofun
  | some send =>
    show Safe _ _ (if _ then _ else _) u
    split
    · exact safe_verdict hP nofun
    · rename_i hst
      rw [not_not] at hst
      split
      · rename_i hd
        exact Safe.ret (stable_cleared hP _) fun _ _ =>
          ⟨hu, send.claim, clear_of_undispatched hi hx hst (Option.isNone_iff_eq_none.1 hd)⟩
      · rename_i hd
        exact safe_reconcileDispatched hw hP note (Marked.of_row hx (Option.isSome_iff_ne_none.2 (by simpa using hd))) hu

/-! ## The job -/

theorem safe_gentle_single {o : Op} (ho : o.gentle writes) :
    Safe (holding settings A holds writes) (fun _ _ => True) (perform o) w :=
  Safe.op (Stable.true _) trivial fun t _ _ _ _ hi _ hs =>
    have howes : Owes A holds writes t o := owes_of_gentle ho
    ⟨hi.did (fits_of_gentle ho) howes (did_of_sem hs), howes, Safe.done⟩

theorem safe_tidy (artifact : Option (ProviderKind × SendRequest)) :
    Safe (holding settings A holds writes) (fun _ _ => True) (tidy artifact) w := by
  unfold tidy
  split
  · split
    · exact Safe.gentle (Stable.true _) trivial trivial fun _ _ _ _ _ _ _ _ _ _ => Safe.done
    · exact Safe.done
  · exact Safe.done

/-- A failure is final only where nothing can be out: a refusal leaves nothing, and a ceiling asks the provider. -/
theorem safe_finalizeFailure (hs : holds sid) (hw : writes sid) (exc : Exn) (job : ClaimedJob)
    (artifact : Option (ProviderKind × SendRequest)) {c : ClaimArgs}
    (hclear : classify exc ≠ .transient → A.refused = true → Clear A sid c w) :
    Safe (holding settings A holds writes) (fun _ _ => True) (finalizeFailure sid exc job artifact) w := by
  unfold finalizeFailure
  simp only
  split
  · split
    · exact Safe.write (Stable.true _) hw nofun trivial (fun _ _ _ _ _ _ => trivial) fun _ _ _ _ _ _ _ => Safe.done
    · refine Safe.bind (Safe.mono (fun verdict t _ hv => ?_) (safe_reconcileSend hw (Stable.true _) _ trivial))
      cases verdict with
      | notSent =>
        obtain ⟨-, c', hc'⟩ := hv rfl hs
        exact Safe.write (stable_clear hs c') hw (fun _ => hs) hc'
          (fun _ r ht _ hr _ => ⟨rfl, fun ha _ => ht.terminal hr ha⟩) fun _ _ _ _ _ _ _ => Safe.done
      | retryLater =>
        exact Safe.write (Stable.true _) hw nofun trivial (fun _ _ _ _ _ _ => trivial) fun _ _ _ _ _ _ _ => Safe.done
      | _ => exact Safe.done
  · rename_i hc
    have hstable : Stable (holding settings A holds writes) fun t => A.refused = true → Clear A sid c t :=
      fun t t' h hr hi ha => stable_clear hs c t t' (h ha) hr hi
    exact Safe.write hstable hw (fun _ => hs) (hclear hc)
      (fun _ r ht _ hr _ => ⟨rfl, fun ha hr' => (ht hr').terminal hr ha⟩) fun _ _ _ _ _ _ _ => safe_tidy artifact

/-- The row as the attempt's commit left it carries the draft id the request will. -/
theorem draft_recorded {reg : ProviderKind → SendProvider} (now : Nat) {send r : SendRow} {draft : DraftRow}
    {prepared : PreparedSend} (hc : r.claim = send.claim) (hid : r.providerDraftId = send.providerDraftId)
    (hrow : Drafted reg r) (hprep : (reg send.provider).Prepares (requestFor send draft) (.ok prepared)) :
    ((reg r.provider = .gmail →
        truthy prepared.providerDraftId = true ∧ r.providerDraftId.or prepared.providerDraftId = prepared.providerDraftId) ∧
      (reg r.provider ≠ .gmail → prepared.providerDraftId = none)) ∧
    (dispatchRow now prepared.providerDraftId r).providerDraftId =
      (withPrepared (requestFor send draft) prepared).providerDraftId := by
  have hp := provider_of_claim hc
  rcases SendProvider.prepares_ok hprep with ⟨hg, ht, hsame⟩ | ⟨hg, hnone⟩
  · have hor : r.providerDraftId.or prepared.providerDraftId = prepared.providerDraftId := by
      cases hr : r.providerDraftId with
      | none => rfl
      | some id =>
        have htruthy := hrow.gmail (by rw [hp, hg]) id hr
        rw [hr] at hid
        rw [hsame (by rw [show (requestFor send draft).providerDraftId = send.providerDraftId from rfl, ← hid]; exact htruthy)]
        exact hid
    refine ⟨⟨fun _ => ⟨ht, hor⟩, fun h => absurd (by rw [hp, hg]) h⟩, ?_⟩
    rw [withPrepared, if_pos ht]
    exact hor
  · have hrid := hrow.other (by rw [hp]; exact hg)
    refine ⟨⟨fun h => absurd (by rw [← hp, h]) hg, fun _ => hnone⟩, ?_⟩
    simp only [dispatchRow, withPrepared, hnone, hrid, Option.or_none]
    rw [if_neg (by simp [truthy])]
    exact hrid.symm.trans hid

/-- The attempt's commit: a row that has not failed is no longer one that would be dispatched without a probe, and one
that was in flight carries the attempt. -/
theorem commit_row (h : Evident A w) {id : Nat} {r : SendRow} (hr : w.sends.get id = some r)
    (hf : r.state.failed = false) (draftId : Option String) :
    ∃ r₁, (w.updateSend id inFlight (dispatchRow w.now draftId)).sends.get id = some r₁ ∧ r₁.claim = r.claim ∧
      r₁.state = r.state ∧ r₁.blind = false ∧ (r.state = .inFlight → r₁ = dispatchRow w.now draftId r) := by
  by_cases hst : r.state = .inFlight
  · exact ⟨_, Table.get_updateWhere_hit _ hr (by simp [inFlight, hst]), rfl, rfl, rfl, fun _ => rfl⟩
  · refine ⟨r, Table.get_updateWhere_miss _ hr (by simp [inFlight, hst]), rfl, rfl, Bool.eq_false_iff.2 fun hb => ?_,
      fun h => absurd h hst⟩
    obtain ⟨hd, hne⟩ := blind_iff.1 hb
    cases hs : r.state with
    | inFlight => exact hst hs
    | delivered => exact hne hs
    | uncertain =>
      have := (h.rows id r hr).doubted hs
      rw [hd] at this
      cases this
    | failedPermanent | failedTransient => rw [hs] at hf; cases hf

/-- **A message is handed over only while nothing can be out**, and for a row that says so afterwards. -/
theorem safe_handOver (job : ClaimedJob) (hs : holds job.refId) (hw : writes job.refId) {send r₁ : SendRow}
    {request : SendRequest} (hf : Loaded A job.refId r₁ w)
    (hc : Clear A job.refId send.claim w ∧ Committed A job.refId send.claim w) (hcl : r₁.claim = send.claim)
    (hdated : A.registry.isSome = true → r₁.dispatchedAt.isSome) (hkey : request.fingerprint = send.idempotencyKey)
    (hdraft : A.registry.isSome = true → r₁.providerDraftId = request.providerDraftId) :
    Safe (holding settings A holds writes) (fun _ _ => True) (handOver job send request) w := by
  have hknown : Stable (holding settings A holds writes) fun w =>
      Loaded A job.refId r₁ w ∧ Clear A job.refId send.claim w ∧ Committed A job.refId send.claim w :=
    (stable_loaded hs r₁).and (stable_committed hs send.claim)
  simp only [handOver, providerSend]
  refine Safe.perform hknown ⟨hf, hc⟩ fun t e n u ht hi _ hsem => ?_
  obtain ⟨⟨r, hr, hrc, hunf, hfly⟩, ⟨-, hcard⟩, r', hr', -, hb⟩ := ht
  obtain rfl := Option.some.inj (hr.symm.trans hr')
  have hrsend : r.claim = send.claim := hrc.trans hcl
  have howes : Owes A holds writes t (.sendCall send.provider request) := by
    refine ⟨job.refId, r, hs, hr, (provider_of_claim hrsend).symm, hkey.trans (key_of_claim hrsend).symm, hunf, ?_, ?_,
      fun hreg => (hfly hreg).1, fun hreg => ?_, fun hreg => (hfly hreg).2.2.trans (hdraft hreg)⟩
    · rw [key_of_claim hrsend]
      exact hcard
    · rw [key_of_claim hrsend]
      exact hb
    · obtain ⟨d, hd⟩ := Option.isSome_iff_exists.1 (hdated hreg)
      have hd' := (hfly hreg).2.1.trans hd
      exact ⟨d, hd', (hi.rows _ r hr).dated d hd'⟩
  have hdid := did_of_sem hsem
  have hiu : Evident A u := hi.did (show Fits t (.sendCall send.provider request) from trivial) howes hdid
  obtain ⟨rfl, rfl⟩ := sem_sendCall hsem
  refine ⟨hiu, howes, ?_⟩
  have hcalled : Called A job.refId send.claim request t.calls.next
      { t with calls := t.calls.insert { provider := send.provider, request := request } } := by
    refine ⟨⟨r, hr, hrsend⟩, ⟨_, t.calls.get_insert_self _, rfl, rfl⟩, fun ha => ?_⟩
    refine (Finset.card_le_card ?_).trans (hcard ha)
    rcases hdid.live send.idempotencyKey with hl | ⟨_, _, -, -, hl⟩
    · exact (Finset.erase_subset _ _).trans hl.subset
    · exact (Finset.erase_subset_erase _ hl.subset).trans (Finset.erase_insert_subset _ _)
  have hmarked : Marked A job.refId r₁ { t with calls := t.calls.insert { provider := send.provider, request := request } } :=
    ⟨r, hr, hrc, fun ha hblind => Nat.lt_of_le_of_lt (Nat.zero_le _) (hb ha hblind), fun hreg => .inr (hfly hreg).2.2⟩
  have hloaded : Loaded A job.refId r₁ { t with calls := t.calls.insert { provider := send.provider, request := request } } :=
    ⟨r, hr, hrc, hunf, hfly⟩
  have hafter : Stable (holding settings A holds writes) fun w =>
      Loaded A job.refId r₁ w ∧ Marked A job.refId r₁ w ∧ Called A job.refId send.claim request t.calls.next w :=
    (stable_loaded hs r₁).and ((stable_marked job.refId r₁).and (stable_called hs send.claim request _))
  refine Safe.gentle hafter trivial ⟨hloaded, hmarked, hcalled⟩ fun t e answer u _ hu _ _ hok hsem => ?_
  obtain ⟨rfl, rfl⟩ := sem_sendAnswer hsem
  cases answer with
  | error exc =>
    refine Safe.bind (Safe.mono (fun _ _ _ _ => Safe.done) (safe_finalizeFailure (c := send.claim) hs hw exc job _ ?_))
    intro hperm ha
    refine hu.2.2.clear_of_dropped fun call hcall => ?_
    have := hok.refused ha
    simpa [refusedOutright, hperm, hcall] using this
  | ok receipt =>
    obtain ⟨-, ⟨call, hcall, hp, hreq⟩, -⟩ := hu.2.2
    have hdelivers : Stable (holding settings A holds writes) fun w => Loaded A job.refId r₁ w ∧ Marked A job.refId r₁ w :=
      (stable_loaded hs r₁).and (stable_marked job.refId r₁)
    refine Safe.write hdelivers hw nofun ⟨hu.1, hu.2.1⟩ (fun t r ht _ hr hst => ?_) fun t v _ _ _ _ _ => ?_
    · refine ⟨ht.2.sighted hr hst, fun reg hreg => ?_⟩
      obtain ⟨r', hr', -, -, hfly⟩ := ht.1
      obtain rfl := Option.some.inj (hr.symm.trans hr')
      have hsome : A.registry.isSome = true := by rw [hreg]; rfl
      have hsends := hok.registry reg hreg call hcall
      rw [hreq] at hsends
      rw [(hfly hsome).2.2, hdraft hsome]
      exact SendProvider.sends_ok hsends
    · exact Safe.gentle (Stable.true _) trivial trivial fun _ _ _ _ _ _ _ _ _ _ => Safe.done

theorem safe_dispatchSend (job : ClaimedJob) (hs : holds job.refId) (hw : writes job.refId) {send : SendRow}
    (hf : Loaded A job.refId send w) (hc : Clear A job.refId send.claim w) :
    Safe (holding settings A holds writes) (fun _ _ => True) (dispatchSend job send) w := by
  have hknown : Stable (holding settings A holds writes) fun w =>
      Loaded A job.refId send w ∧ Clear A job.refId send.claim w := (stable_loaded hs send).and (stable_clear hs send.claim)
  unfold dispatchSend
  refine Safe.gentle hknown trivial ⟨hf, hc⟩ fun _ _ draft t _ ht _ _ _ _ => ?_
  cases draft with
  | none => exact Safe.done
  | some draft =>
    refine Safe.gentle hknown trivial ht fun _ e prepared u _ hu _ _ hok hsem => ?_
    obtain ⟨rfl, rfl⟩ := sem_prepare hsem
    cases prepared with
    | error exc =>
      exact Safe.bind (Safe.mono (fun _ _ _ _ => Safe.done) (safe_finalizeFailure hs hw exc job none fun _ _ => hu.2))
    | ok prepared =>
      have hprep := hok.registry
      refine Safe.write hknown hw (fun _ => hs) hu (fun t r ht hi hr _ reg hreg => ?_) fun t v _ ht hi hv _ => ?_
      · obtain ⟨r', hr', hcl, -, hfly⟩ := ht.1
        obtain rfl := Option.some.inj (hr.symm.trans hr')
        have hid := (hfly (by rw [hreg]; rfl)).2.2
        exact (draft_recorded t.now hcl hid ((hi.rows _ r hr).drafts reg hreg) (hprep reg hreg)).1
      · -- The attempt is committed, unless the row was settled meanwhile; with the providers it carries the request's draft.
        obtain ⟨⟨r, hr, hcl, hunf, hfly⟩, hclear⟩ := ht
        obtain ⟨r₁, hr₁, hcl₁, hst₁, hblind, hdisp⟩ := commit_row hi hr hunf prepared.providerDraftId
        subst hv
        have hloaded : Loaded A job.refId r₁ _ :=
          ⟨r₁, hr₁, rfl, by rw [hst₁]; exact hunf, fun hreg => ⟨hst₁.trans (hfly hreg).1, rfl, rfl⟩⟩
        have hcommitted : Committed A job.refId send.claim _ :=
          ⟨r₁, hr₁, hcl₁.trans hcl, fun _ hb => by rw [hblind] at hb; cases hb⟩
        have hkey : (withPrepared (requestFor send draft) prepared).fingerprint = send.idempotencyKey := by
          unfold withPrepared
          split <;> rfl
        refine safe_handOver job hs hw hloaded ⟨hclear.write _, hcommitted⟩ (hcl₁.trans hcl) (fun hreg => ?_) hkey
          fun hreg => ?_
        · rw [hdisp (hfly hreg).1]
          rfl
        · rw [hdisp (hfly hreg).1]
          obtain ⟨reg, hreg'⟩ := Option.isSome_iff_exists.1 hreg
          exact (draft_recorded t.now hcl (hfly hreg).2.2 ((hi.rows _ r hr).drafts reg hreg') (hprep reg hreg')).2

theorem safe_runSend (job : ClaimedJob) (hs : holds job.refId) (hw : writes job.refId) :
    Safe (holding settings A holds writes) (fun _ _ => True) (runSend job) w := by
  unfold runSend
  refine Safe.gentle (Stable.true _) trivial trivial fun t e x u _ _ _ hi _ hsem => ?_
  obtain ⟨rfl, rfl⟩ := sem_loadSend hsem
  cases hx : u.sends.get job.refId with
  | none => exact Safe.done
  | some send =>
    show Safe _ _ (if _ then _ else _) u
    split
    · exact Safe.done
    · rename_i hst
      rw [not_not] at hst
      have hf : Loaded A job.refId send u := Loaded.of_row hx hst
      split
      · refine Safe.bind (Safe.mono (fun verdict t _ hv => ?_) (safe_reconcileSend hw (stable_loaded hs send) "" hf))
        cases verdict with
        | notSent =>
          obtain ⟨hf', c, hc⟩ := hv rfl hs
          exact safe_dispatchSend job hs hw hf' (hf'.claim_eq hc ▸ hc)
        | _ => exact Safe.done
      · rename_i hd
        exact safe_dispatchSend job hs hw hf (clear_of_undispatched hi hx hst (Option.not_isSome_iff_eq_none.1 hd))

theorem safe_handler (job : ClaimedJob) (hs : job.kind = .send → holds job.refId ∧ writes job.refId) :
    Safe (holding settings A holds writes) (fun _ _ => True) (handler job) w := by
  unfold handler
  split
  · rename_i hk
    exact safe_runSend job (hs hk).1 (hs hk).2
  · exact safe_gentle_single (o := .adapterRun job.refId) trivial

end Send
end SafeSend
