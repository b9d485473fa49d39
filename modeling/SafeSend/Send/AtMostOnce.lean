import SafeSend.Send.Watched
/-!
# At most once

What the evidence gives: the bound on the messages a provider accepts for one send, and what a failed send has left at
the provider.
-/
namespace SafeSend
namespace Send

open Lib

variable {settings : Settings} {w t : World}

theorem answers_step {f : Store → Op → Env → Bool} {a : Action} (h : answers f w a = true) (pid : Nat) (e : Env)
    (ha : a = .step pid e) (o : Op) (ho : w.nextOp pid = some o) : f w.store o e = true := by
  subst ha
  simpa only [answers, ho, Option.all_some] using h

/-! ## The bound -/

/-- The conditions of a run: leases kept, probes sound. -/
def sweptSoundly (w : World) (a : Action) : Bool := reclaimsDead w a && answers soundProbe w a

/-- **At most once**: while probes are sound, only the dead are reclaimed from, and no `operator_retry` write lands on a
delivered send without a dispatch time, the messages accepted under a send's fingerprint are at most one more than the
resends forced on it. -/
theorem at_most_once
    (h : (system settings).Reach (fun w a => sweptSoundly w a = true ∧ retriesSeen w a = true) w) (sid : Nat) (r : SendRow)
    (hr : w.store.sends.get sid = some r) :
    (w.store.accepted (fingerprintFor r.idempotencyKey)).card ≤ 1 + w.store.forced sid := by
  have hw : Watched settings { sound := true } w := by
    refine reach_watched (fun u a _ _ ha => ?_) h
    obtain ⟨hreclaims, hsound⟩ := Bool.and_eq_true_iff.1 ha.1
    exact ⟨hreclaims, fun _ => ha.2, nofun, fun pid e he o ho => ⟨fun _ => answers_step hsound pid e he o ho, nofun, nofun⟩⟩
  exact (Finset.card_le_card (w.store.accepted_subset_live _)).trans ((hw.store.rows sid r hr).bound rfl)

/-- The message is accepted, its answer lost with the worker, and a sweep finds it once the lease is over. -/
def lostAnswer : List Action :=
  sampleRun ++ [.step 2 .none, .step 2 .none, .step 2 (.prepared (.ok {})), .step 2 .none, .step 2 .none, .settle 0 true,
    .crash 2, .tick 301000000, .sweep 50 (fun _ => false), .step 3 .none, .step 3 .none, .step 3 .none,
    .step 3 (.probed (.ok { verdict := .found, providerMessageId := some "#sales:1.0" })), .step 3 .none, .step 3 .none,
    .finish 3 "" noDraw]

theorem at_most_once_lostAnswer :
    ∃ w r, (system {}).exec {} lostAnswer = some w ∧ w.store.sends.get 0 = some r ∧ r.state = .delivered ∧
      (w.store.accepted sampleKey).card = 1 ∧
      (w.store.accepted (fingerprintFor r.idempotencyKey)).card ≤ 1 + w.store.forced 0 := by
  have hrun : ((system {}).exec {} lostAnswer).any (fun w =>
      stateOf w 0 == some .delivered && (w.store.accepted sampleKey).card == 1) = true := by decide +kernel
  have hal : (system {}).allowed (fun w a => sweptSoundly w a && retriesSeen w a) {} lostAnswer = true := by decide +kernel
  rw [Option.any_eq_true] at hrun
  obtain ⟨w, hw, hp⟩ := hrun
  rw [Bool.and_eq_true, beq_iff_eq, beq_iff_eq] at hp
  obtain ⟨r, hr, hd⟩ := stateOf_eq_some hp.1
  exact ⟨w, r, hw, hr, hd, hp.2,
    at_most_once (Machine.Steps.of_exec (fun _ _ ha => Bool.and_eq_true_iff.1 ha) hw hal) 0 r hr⟩

/-- A probe that raised. -/
def unavailable : Env := .probed (.error (.os "timed out"))

/-- What was sent once is hidden: an `operator_retry` call (3) that read the failed send waits, the send is retried and
dispatched, a sweep (6) finds the message and loses its transaction, the send is parked and resent; the sweep writes its
finding between the read and the commit of the next execution (10), and the call its row once that execution is dead. -/
def hiddenDispatch : List Action :=
  sampleRun ++ sampleRefusal 2 ++ [
    .call (.operatorRetry 0 1), .step 3 .none,
    .call (.operatorRetry 0 1), .step 4 .none, .step 4 .none, .finish 4 "" noDraw,
    .claim "host:1" 5 (fun _ => false),
    .step 5 .none, .step 5 .none, .step 5 (.prepared (.ok {})), .step 5 .none, .step 5 .none, .settle 0 true, .crash 5,
    .tick 301000000, .sweep 50 (fun _ => false), .step 6 .none, .step 6 .none, .step 6 .none,
    .step 6 (.probed (.ok { verdict := .found, providerMessageId := some "#sales:1.0" })), .lose 6,
    .sweep 50 (fun _ => false), .step 7 .none, .step 7 .none, .step 7 .none, .step 7 unavailable, .step 7 .none,
    .step 7 .none, .finish 7 "" noDraw,
    .claim "host:1" 5 (fun _ => false), .step 8 .none, .step 8 .none, .step 8 .none, .step 8 .none, .step 8 unavailable,
    .step 8 .none, .finish 8 "" noDraw,
    .call (.resolveSend 0 1 "forced_resend" none), .step 9 .none, .step 9 .none, .finish 9 "" noDraw,
    .claim "host:1" 5 (fun _ => false), .step 10 .none, .step 6 .none,
    .step 10 .none, .step 10 (.prepared (.ok {})), .step 10 .none, .step 10 .none, .settle 1 true, .crash 10,
    .step 3 .none, .finish 3 "" noDraw,
    .tick 301000000, .sweep 50 (fun _ => false), .step 11 .none, .step 11 .none, .finish 11 "" noDraw,
    .claim "host:1" 5 (fun _ => false),
    .step 12 .none, .step 12 .none, .step 12 (.prepared (.ok {})), .step 12 .none, .step 12 .none, .settle 2 true]

/-- Three messages are accepted, and one resend was forced. -/
theorem hiddenDispatch_thrice :
    ¬ ∀ w, (system {}).Reach (fun w a => sweptSoundly w a = true) w → ∀ sid r, w.store.sends.get sid = some r →
      (w.store.accepted (fingerprintFor r.idempotencyKey)).card ≤ 1 + w.store.forced sid := by
  intro hclaim
  have hrun : ((system {}).exec {} hiddenDispatch).any (fun w => (w.store.sends.get 0).any fun r =>
      (w.store.accepted (fingerprintFor r.idempotencyKey)).card == 3 && w.store.forced 0 == 1) = true := by decide +kernel
  have hal : (system {}).allowed sweptSoundly {} hiddenDispatch = true := by decide +kernel
  rw [Option.any_eq_true] at hrun
  obtain ⟨w, hw, hp⟩ := hrun
  rw [Option.any_eq_true] at hp
  obtain ⟨r, hr, hp⟩ := hp
  rw [Bool.and_eq_true, beq_iff_eq, beq_iff_eq] at hp
  have hbound := hclaim w (Machine.Steps.of_exec (fun _ _ ha => ha) hw hal) 0 r hr
  rw [hp.1, hp.2] at hbound
  omega

/-! ## Failed sends -/

/-- The step is no write of a `resolve_send`. -/
def unresolved (w : World) : Action → Bool
  | .step pid _ => match w.nextOp pid with
    | some (.resolveWrite _ _ _ _ _) => false
    | _ => true
  | _ => true

theorem Did.forced {w w' : Store} {o : Op} (h : Did settings w o w') :
    w'.forced = w.forced ∨ ∃ id userId resolution note partition, o = .resolveWrite id userId resolution note partition := by
  cases h with
  | resent id userId note partition jobs hrow hjobs => exact .inr ⟨_, _, _, _, _, rfl⟩
  | _ => exact .inl rfl

theorem forced_of_unresolved {ok : World → Action → Prop} (hok : ∀ w a, ok w a → unresolved w a = true)
    (h : (system settings).Reach ok w) : ∀ sid, w.store.forced sid = 0 := by
  refine Machine.Reach.inv (I := fun w => ∀ sid, w.store.forced sid = 0) (fun _ => rfl) (fun u a v _ hi ha hs sid => ?_) h
  cases moved_of_step hs with
  | ran pid e hp hn hsem =>
    rcases (did_of_sem hsem).forced with he | ⟨id, userId, resolution, note, partition, rfl⟩
    · simp only [World.withProc, he, hi sid]
    · have := hok u _ ha
      simp only [unresolved, nextOp_of_next hp hn, Bool.false_eq_true] at this
  | outside _ store hout =>
    cases a <;> simp only [Store.outside, Option.some.injEq, reduceCtorEq] at hout <;> subst hout <;> exact hi sid
  | _ => exact hi sid

/-- Where no resend was forced, a delivered send has its dispatch time. -/
theorem Watched.retriesSeen {A : Assumed} (hs : A.sound = true) (h : Watched settings A w)
    (hforced : ∀ sid, w.store.forced sid = 0) (a : Action) : retriesSeen w a = true := by
  unfold Send.retriesSeen
  split
  · split
    · rename_i id _ _ _
      rw [Option.all_eq_true]
      intro r hr
      rw [Bool.or_eq_true, bne_iff_ne, ← Decidable.imp_iff_not_or]
      intro hst
      by_contra hd
      have := (h.store.rows id r hr).sighted hs hst (Option.not_isSome_iff_eq_none.1 hd)
      rw [hforced id] at this
      exact Nat.lt_irrefl 0 this
    · rfl
  · rfl

/-- The conditions of a run without resolutions. -/
def sweptUnresolved (w : World) (a : Action) : Bool := sweptSoundly w a && unresolved w a

/-- **Failed means nothing went out**, along every run in which whoever raises anything but a transient failure has not
accepted the message and will not. -/
theorem failed_unsent
    (h : (system settings).Reach (fun w a => sweptUnresolved w a = true ∧ answers refusedOutright w a = true) w) (sid : Nat)
    (r : SendRow) (hr : w.store.sends.get sid = some r) (hf : r.state = .failedPermanent ∨ r.state = .failedTransient) :
    w.store.accepted (fingerprintFor r.idempotencyKey) = ∅ := by
  have hforced {u : World} (hu : (system settings).Reach
      (fun w a => sweptUnresolved w a = true ∧ answers refusedOutright w a = true) u) : ∀ sid, u.store.forced sid = 0 :=
    forced_of_unresolved (fun _ _ ha => (Bool.and_eq_true_iff.1 ha.1).2) hu
  have hw : Watched settings { sound := true, refused := true } w := by
    refine reach_watched (fun u a hu hwatched ha => ?_) h
    obtain ⟨hreclaims, hsound⟩ := Bool.and_eq_true_iff.1 (Bool.and_eq_true_iff.1 ha.1).1
    refine ⟨hreclaims, fun _ => ?_, nofun, fun pid e he o ho =>
      ⟨fun _ => answers_step hsound pid e he o ho, fun _ => answers_step ha.2 pid e he o ho, nofun⟩⟩
    -- Nothing was resent, so whatever is delivered was dispatched.
    exact Watched.retriesSeen rfl hwatched (hforced hu) a
  have hfailed : r.state.failed = true := by rcases hf with hf | hf <;> rw [hf] <;> rfl
  have hlive := (hw.store.rows sid r hr).failed rfl rfl hfailed
  rw [hforced h, Nat.le_zero, Finset.card_eq_zero] at hlive
  exact Finset.subset_empty.1 (hlive ▸ w.store.accepted_subset_live _)

/-- `chat.postMessage` answers a body that is no JSON. -/
def nonJsonResponse : Exn := .provider {
  provider := "slack"
  code := "non_json_response"
  detail := "\x7b\"error\": \"non_json_response\", \"detail\": \"\"\x7d"
  status := some 200 }

/-- The message is handed over and `settled`; the answer to it is unreadable. -/
def unreadableAnswer (settled : Bool) : List Action :=
  sampleRun ++ [.step 2 .none, .step 2 .none, .step 2 (.prepared (.ok {})), .step 2 .none, .step 2 .none,
    .settle 0 settled, .step 2 (.receipt (.error nonJsonResponse)), .step 2 .none]

theorem failed_unsent_dropped :
    ∃ w r, (system {}).exec {} (unreadableAnswer false) = some w ∧ w.store.sends.get 0 = some r ∧
      r.state = .failedPermanent ∧ w.store.accepted (fingerprintFor r.idempotencyKey) = ∅ := by
  have hrun : ((system {}).exec {} (unreadableAnswer false)).any (fun w => stateOf w 0 == some .failedPermanent) = true := by
    decide +kernel
  have hal : (system {}).allowed (fun w a => sweptUnresolved w a && answers refusedOutright w a) {} (unreadableAnswer false) =
      true := by decide +kernel
  rw [Option.any_eq_true] at hrun
  obtain ⟨w, hw, hp⟩ := hrun
  obtain ⟨r, hr, hf⟩ := stateOf_eq_some (beq_iff_eq.1 hp)
  exact ⟨w, r, hw, hr, hf, failed_unsent (Machine.Steps.of_exec (fun _ _ ha => Bool.and_eq_true_iff.1 ha) hw hal) 0 r hr
    (.inl hf)⟩

/-- The message was accepted, and the send says it failed for good. -/
theorem unreadableAnswer_sent :
    ¬ ∀ w, (system {}).Reach (fun w a => sweptUnresolved w a = true) w → ∀ sid r, w.store.sends.get sid = some r →
      r.state = .failedPermanent ∨ r.state = .failedTransient →
        w.store.accepted (fingerprintFor r.idempotencyKey) = ∅ := by
  intro hclaim
  have hrun : ((system {}).exec {} (unreadableAnswer true)).any (fun w => (w.store.sends.get 0).any fun r =>
      r.state == .failedPermanent && (w.store.accepted (fingerprintFor r.idempotencyKey)).card == 1) = true := by
    decide +kernel
  have hal : (system {}).allowed sweptUnresolved {} (unreadableAnswer true) = true := by decide +kernel
  rw [Option.any_eq_true] at hrun
  obtain ⟨w, hw, hp⟩ := hrun
  rw [Option.any_eq_true] at hp
  obtain ⟨r, hr, hp⟩ := hp
  rw [Bool.and_eq_true, beq_iff_eq, beq_iff_eq] at hp
  have hnone := hclaim w (Machine.Steps.of_exec (fun _ _ ha => ha) hw hal) 0 r hr (.inl hp.1)
  rw [hnone] at hp
  cases hp.2

end Send
end SafeSend
