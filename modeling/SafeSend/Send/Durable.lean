import SafeSend.Send.Watched
/-!
# What is durable when a message is handed over

The row's dispatch time and draft id, committed before the provider is called, are what recovery goes by.  They stand
from there on until a resend is forced.
-/
namespace SafeSend
namespace Send

open Lib

variable {settings : Settings} {A : Assumed} {w t : World}

theorem owes_of_next {p p' : Proc} {o : Op} {x : o.Ans} {e : Env} {store : Store}
    (h : Watched settings A w) {pid : Nat} (hp : w.procs.get pid = some p) (hn : p.Next o x p') (hsound : A.sound = false)
    (hok : Allowed A w (.step pid e)) (hs : sem settings o e w.store = some (x, store)) :
    Owes A p.holds p.writes w.store o :=
  ((h.procs pid p hp).next h.store (hok.answers pid e rfl o (nextOp_of_next hp hn)) (fun ha => by rw [hsound] at ha; cases ha)
    hn hs).1

/-- The operation about to be carried out is owed for already. -/
theorem owes_of_nextOp (h : Watched settings A w) {pid : Nat} {provider : ProviderKind} {request : SendRequest}
    (hop : w.nextOp pid = some (.sendCall provider request)) :
    ∃ sid r, w.store.sends.get sid = some r ∧ Dispatchable A w.store sid r provider request := by
  -- A hand-over can always be carried out, and asks nothing of the environment.
  obtain ⟨p, p', hp, hn⟩ := next_of_nextOp hop w.store.calls.next
  have hans : A.Answers w.store (.sendCall provider request) .none := ⟨fun _ => rfl, fun _ => rfl, fun _ _ => trivial⟩
  have hsem : sem settings (.sendCall provider request) .none w.store = some (w.store.calls.next, _) := rfl
  obtain ⟨sid, r, -, hr, hdis⟩ := ((h.procs pid p hp).next h.store hans (fun _ _ _ _ ho => nomatch ho) hn hsem).1
  exact ⟨sid, r, hr, hdis⟩

/-- One operation keeps the evidence columns of a dispatched row, or forces a resend. -/
theorem columns_kept {registry : ProviderKind → SendProvider} {w w' : Store} {o : Op} {holds writes : Nat → Prop}
    (hA : A.registry = some registry) (h : Evident A w) (howes : Owes A holds writes w o) (hd : Did settings w o w')
    {sid : Nat} {r : SendRow} (hr : w.sends.get sid = some r) (hdis : r.dispatchedAt.isSome) :
    w'.forced sid = w.forced sid + 1 ∨ w'.forced sid = w.forced sid ∧ ∃ r', w'.sends.get sid = some r' ∧
      r'.dispatchedAt = r.dispatchedAt ∧ r'.providerDraftId = r.providerDraftId := by
  have hm := hd.send sid
  generalize w'.sends.get sid = q at hm ⊢
  generalize w'.forced sid = n at hm ⊢
  cases hm with
  | same => exact .inr ⟨rfl, r, hr, rfl, rfl⟩
  | claimed args hn hfree => rw [hn, w.sends.get_next] at hr; cases hr
  | resent => exact .inl rfl
  | bumped hr' | retried _ _ hr' | attested _ _ _ hr' _ =>
    obtain rfl := Option.some.inj (hr.symm.trans hr')
    exact .inr ⟨rfl, _, rfl, rfl, rfl⟩
  | wrote u hr' hg =>
    obtain rfl := Option.some.inj (hr.symm.trans hr')
    have hfit := howes.2.2 r hr (Write.inFlight_of_guard hg)
    refine .inr ⟨rfl, _, rfl, ?_⟩
    obtain ⟨d, hdd⟩ := Option.isSome_iff_exists.1 hdis
    cases u with
    | dispatch draftId =>
      refine ⟨by simp only [Write.row, dispatchRow, hdd, Option.getD_some], ?_⟩
      have hrow := (h.rows sid r hr).drafts registry hA
      by_cases hg : registry r.provider = .gmail
      · obtain ⟨id, hid⟩ := Option.isSome_iff_exists.1 (hrow.recorded hg hdis)
        simp only [Write.row, dispatchRow, hid, Option.some_or]
      · simp only [Write.row, dispatchRow, hrow.other hg, (hfit registry hA).2 hg, Option.or_none]
    | delivered receipt evidence =>
      refine ⟨rfl, ?_⟩
      simp only [Write.row, deliveredRow]
      rcases hfit.2 registry hA with he | he <;> rw [he]
      · rfl
      · cases r.providerDraftId <;> rfl
    | uncertain | error | terminal => exact ⟨rfl, rfl⟩

/-- The evidence of a row as it was, unless a resend was forced since `forced` was the count. -/
def Keeps (sid forced : Nat) (r : SendRow) (w : World) : Prop :=
  forced < w.store.forced sid ∨ w.store.forced sid = forced ∧ ∃ r', w.store.sends.get sid = some r' ∧
    r'.dispatchedAt = r.dispatchedAt ∧ r'.providerDraftId = r.providerDraftId

theorem Keeps.moved {registry : ProviderKind → SendProvider} (hA : A.registry = some registry) (hsound : A.sound = false)
    (h : Watched settings A w) {a : Action} (hok : Allowed A w a) (hm : Moved settings w a t) {sid forced : Nat} {r : SendRow}
    (hdis : r.dispatchedAt.isSome) (hk : Keeps sid forced r w) : Keeps sid forced r t := by
  cases hm with
  | outside _ store hout =>
    unfold Keeps at hk ⊢
    cases a <;> simp only [Store.outside, Option.some.injEq, reduceCtorEq] at hout <;> subst hout <;> exact hk
  | ran pid e hp hn hs =>
    have hdid := did_of_sem hs
    have howes := owes_of_next h hp hn hsound hok hs
    have hle : w.store.forced sid ≤ _ := hdid.forced_le sid
    rcases hk with hlt | ⟨heq, r', hr', hd', hid'⟩
    · exact .inl (Nat.lt_of_lt_of_le hlt hle)
    · rcases columns_kept hA h.store howes hdid hr' (hd' ▸ hdis) with hf | ⟨hf, r'', hr'', hd'', hid''⟩
      · exact .inl (by simp only [World.withProc]; omega)
      · exact .inr ⟨hf.trans heq, r'', hr'', hd''.trans hd', hid''.trans hid'⟩
  | _ => exact hk

/-- The conditions of a run against the repository's providers. -/
def Served (registry : ProviderKind → SendProvider) (w : World) (a : Action) : Prop :=
  reclaimsDead w a = true ∧ ∀ pid e, a = .step pid e → ∀ o, w.nextOp pid = some o → FromProviders registry w.store o e

/-- **Whenever a message is handed over**, its send's committed row is in flight, was dispatched no later, and carries the
request's draft id; and from there on both columns stand until a resend is forced: where no write of a sweep that has lost
its transaction moves a send in flight of which an execution is under way. -/
theorem dispatch_durable (registry : ProviderKind → SendProvider)
    (h : (system settings).Reach (fun w a => Served registry w a ∧ leavesUnderWay w a = true) w)
    (pid : Nat) (provider : ProviderKind) (request : SendRequest)
    (hop : w.nextOp pid = some (.sendCall provider request)) :
    ∃ sid r, w.store.sends.get sid = some r ∧ request.fingerprint = fingerprintFor r.idempotencyKey ∧
      r.state = .inFlight ∧ (∃ d, r.dispatchedAt = some d ∧ d ≤ w.store.now) ∧
      r.providerDraftId = request.providerDraftId ∧
      ∀ t, (system settings).Steps (fun w a => Served registry w a ∧ leavesUnderWay w a = true) w t →
        t.store.forced sid = w.store.forced sid → ∃ r', t.store.sends.get sid = some r' ∧
          r'.dispatchedAt = r.dispatchedAt ∧ r'.providerDraftId = r.providerDraftId := by
  have hallowed (u : World) (a : Action) (ha : Served registry u a ∧ leavesUnderWay u a = true) :
      Allowed { registry := some registry } u a :=
    ⟨ha.1.1, nofun, fun _ => ha.2, fun pid e he o ho =>
      ⟨nofun, nofun, fun reg hreg => Option.some.inj hreg ▸ ha.1.2 pid e he o ho⟩⟩
  have hw : Watched settings { registry := some registry } w := reach_watched (fun u a _ _ ha => hallowed u a ha) h
  obtain ⟨sid, r, hr, hdis⟩ := owes_of_nextOp hw hop
  refine ⟨sid, r, hr, hdis.key, hdis.flying rfl, hdis.dated rfl, hdis.draft rfl, fun t hrun hforced => ?_⟩
  obtain ⟨d, hd, -⟩ := hdis.dated rfl
  have key : Watched settings { registry := some registry } t ∧ Keeps sid (w.store.forced sid) r t := by
    refine Machine.Steps.keep (I := fun u => Watched settings { registry := some registry } u ∧
      Keeps sid (w.store.forced sid) r u) (fun u a v hi ha hs => ?_) hrun ⟨hw, .inr ⟨rfl, r, hr, rfl, rfl⟩⟩
    have hm := moved_of_step hs
    exact ⟨hi.1.moved (hallowed u a ha) hm,
      Keeps.moved rfl rfl hi.1 (hallowed u a ha) hm (Option.isSome_iff_exists.2 ⟨d, hd⟩) hi.2⟩
  rcases key.2 with hlt | ⟨-, r', hr', hd', hid'⟩
  · omega
  · exact ⟨r', hr', hd', hid'⟩

/-! ## A run through Gmail -/

def gmailDigest : String := confirmationDigest .gmail "ann@acme.co" "ann@acme.co" (some "hi") "hello"

/-- One email, up to where process 2 is about to hand its draft `r-1` over. -/
def gmailRun : List Action := [
  .connect { userId := 1, provider := .gmail, displayName := "Acme" },
  .call (.createDraft
    { userId := 1, channel := .gmail, recipient := "ann@acme.co", subject := some "hi", body := "hello" }),
  .step 0 .none, .step 0 (.key sampleKey), .finish 0 "" noDraw,
  .call (.sendDraft 0 1 (some gmailDigest)),
  .step 1 .none, .step 1 .none, .step 1 .none, .step 1 .none, .finish 1 "" noDraw,
  .claim "host:1" 5 (fun _ => false),
  .step 2 .none, .step 2 .none, .step 2 (.prepared (.ok { providerDraftId := some "r-1" })), .step 2 .none]

def realProviders : ProviderKind → SendProvider
  | .gmail => .gmail
  | .slack => .slack

/-- Google answers `drafts.create` with `r-1`, Slack has nothing to prepare, and neither is asked anything but that. -/
def preparesOnly (_ : Store) : Op → Env → Bool
  | .prepare .gmail request, .prepared r => r == Gmail.prepare request (.ok (some "r-1"))
  | .prepare .slack request, .prepared r => r == Slack.prepare request
  | .sendAnswer _, .receipt _ => false
  | _, _ => true

theorem fromProviders_of_preparesOnly {w : Store} {o : Op} {e : Env} (h : preparesOnly w o e = true) :
    FromProviders realProviders w o e := by
  unfold preparesOnly at h
  split at h
  · exact ⟨_, (beq_iff_eq.1 h).symm⟩
  · exact (beq_iff_eq.1 h).symm
  · cases h
  · rename_i h1 h2 h3
    unfold FromProviders
    split
    · rename_i provider request r
      cases provider
      · exact absurd rfl (h1 _ _ rfl)
      · exact absurd rfl (h2 _ _ rfl)
    · exact absurd rfl (h3 _ _ rfl)
    · trivial

theorem served_of_preparesOnly {w : World} {a : Action} (hr : reclaimsDead w a = true)
    (h : answers preparesOnly w a = true) : Served realProviders w a := by
  refine ⟨hr, fun pid e he o ho => fromProviders_of_preparesOnly ?_⟩
  subst he
  simpa only [answers, ho, Option.all_some] using h

theorem dispatch_durable_gmail :
    ∃ w request, (system {}).exec {} gmailRun = some w ∧ w.nextOp 2 = some (.sendCall .gmail request) ∧
      request.providerDraftId = some "r-1" ∧
      ∃ sid r, w.store.sends.get sid = some r ∧ request.fingerprint = fingerprintFor r.idempotencyKey ∧
        r.state = .inFlight ∧ (∃ d, r.dispatchedAt = some d ∧ d ≤ w.store.now) ∧
        r.providerDraftId = request.providerDraftId ∧
        ∀ t, (system {}).Steps (fun w a => Served realProviders w a ∧ leavesUnderWay w a = true) w t →
          t.store.forced sid = w.store.forced sid → ∃ r', t.store.sends.get sid = some r' ∧
            r'.dispatchedAt = r.dispatchedAt ∧ r'.providerDraftId = r.providerDraftId := by
  have hrun : ((system {}).exec {} gmailRun).any (fun w => ((w.nextOp 2).bind Op.sends).any fun r =>
      r.1 == .gmail && r.2.providerDraftId == some "r-1") = true := by decide +kernel
  have hal : (system {}).allowed (fun w a => (reclaimsDead w a && answers preparesOnly w a) && leavesUnderWay w a) {}
      gmailRun = true := by decide +kernel
  rw [Option.any_eq_true] at hrun
  obtain ⟨w, hw, hp⟩ := hrun
  obtain ⟨⟨provider, request⟩, hreq, hp⟩ := (Option.any_eq_true _ _).1 hp
  simp only [Bool.and_eq_true, beq_iff_eq] at hp
  obtain ⟨rfl, hid⟩ := hp
  have hop := sends_eq_some hreq
  refine ⟨w, request, hw, hop, hid, dispatch_durable realProviders ?_ 2 .gmail request hop⟩
  refine Machine.Steps.of_exec (fun u a ha => ?_) hw hal
  rw [Bool.and_eq_true, Bool.and_eq_true] at ha
  exact ⟨served_of_preparesOnly ha.1.1 ha.1.2, ha.2⟩

/-- A sweep (3) finds the message its dead worker had sent, and loses its transaction; the send is parked and resent, and
the finding is written between the next execution's commit and its hand-over. -/
def foundLate : List Action :=
  sampleRun ++ [
    .step 2 .none, .step 2 .none, .step 2 (.prepared (.ok {})), .step 2 .none, .step 2 .none, .settle 0 true, .crash 2,
    .tick 301000000, .sweep 50 (fun _ => false), .step 3 .none, .step 3 .none, .step 3 .none,
    .step 3 (.probed (.ok { verdict := .found, providerMessageId := some "#sales:1.0" })), .lose 3,
    .sweep 50 (fun _ => false), .step 4 .none, .step 4 .none, .step 4 .none, .step 4 (.probed (.error (.os "timed out"))),
    .step 4 .none, .step 4 .none, .finish 4 "" noDraw,
    .claim "host:1" 5 (fun _ => false), .step 5 .none, .step 5 .none, .step 5 .none, .step 5 .none,
    .step 5 (.probed (.error (.os "timed out"))), .step 5 .none, .finish 5 "" noDraw,
    .call (.resolveSend 0 1 "forced_resend" none), .step 6 .none, .step 6 .none, .finish 6 "" noDraw,
    .claim "host:1" 5 (fun _ => false), .step 7 .none, .step 7 .none, .step 7 (.prepared (.ok {})), .step 7 .none,
    .step 3 .none]

/-- The send is delivered, and about to be handed over. -/
theorem foundLate_delivered :
    ¬ ∀ w, (system {}).Reach (Served realProviders) w → ∀ pid provider request,
      w.nextOp pid = some (.sendCall provider request) → ∃ sid r, w.store.sends.get sid = some r ∧
        request.fingerprint = fingerprintFor r.idempotencyKey ∧ r.state = .inFlight ∧
        (∃ d, r.dispatchedAt = some d ∧ d ≤ w.store.now) ∧ r.providerDraftId = request.providerDraftId ∧
        ∀ t, (system {}).Steps (Served realProviders) w t → t.store.forced sid = w.store.forced sid →
          ∃ r', t.store.sends.get sid = some r' ∧ r'.dispatchedAt = r.dispatchedAt ∧
            r'.providerDraftId = r.providerDraftId := by
  intro hclaim
  have hrun : ((system {}).exec {} foundLate).any (fun w => ((w.nextOp 7).bind Op.sends).isSome &&
      !w.store.sends.any fun _ r => r.state == .inFlight) = true := by decide +kernel
  have hal : (system {}).allowed (fun w a => reclaimsDead w a && answers preparesOnly w a) {} foundLate = true := by
    decide +kernel
  rw [Option.any_eq_true] at hrun
  obtain ⟨w, hw, hp⟩ := hrun
  rw [Bool.and_eq_true, Bool.not_eq_true'] at hp
  obtain ⟨request, hreq⟩ := Option.isSome_iff_exists.1 hp.1
  have hreach : (system {}).Reach (Served realProviders) w := Machine.Steps.of_exec (fun u a ha => by
    rw [Bool.and_eq_true] at ha
    exact served_of_preparesOnly ha.1 ha.2) hw hal
  obtain ⟨sid, r, hr, -, hst, -⟩ := hclaim w hreach 7 _ _ (sends_eq_some hreq)
  have := Table.any_eq_false.1 hp.2 sid r hr
  rw [hst] at this
  cases this

end Send
end SafeSend
