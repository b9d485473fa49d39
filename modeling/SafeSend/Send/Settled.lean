import SafeSend.Send.Steps
/-!
# Settled sends

Every write of the worker and of `resolve_send` re-checks the state it decided on; `operator_retry`'s does not.
-/
namespace SafeSend
namespace Send

open Lib

/-- The step is the write of a `resolve_send` of this send. -/
def Resolves (w : World) (a : Action) (sid : Nat) : Prop :=
  ∃ pid e userId resolution note partition, a = .step pid e ∧
    w.nextOp pid = some (.resolveWrite sid userId resolution note partition)

/-- One step leaves a delivered send delivered, and an uncertain one uncertain unless it resolves it. -/
def LeavesSettled (w : World) (a : Action) (t : World) : Prop :=
  ∀ sid r, w.store.sends.get sid = some r →
    (r.state = .delivered → ∃ r', t.store.sends.get sid = some r' ∧ r'.state = .delivered) ∧
      (r.state = .uncertain → (∃ r', t.store.sends.get sid = some r' ∧ r'.state = .uncertain) ∨ Resolves w a sid)

def settled (s : SendRow) : Bool := s.state == .delivered || s.state == .uncertain

/-- An operator's retry does not write to a send that is settled by the time it writes. -/
def retriesUnsettled (w : World) : Action → Bool
  | .step pid _ =>
    match w.nextOp pid with
    | some (.operatorRetryWrite id _ _) => !(w.store.sends.get id).any settled
    | _ => true
  | _ => true

variable {settings : Settings}

theorem SendMove.settled {w : Store} {sid n : Nat} {o : Op} {q : Option SendRow} {r : SendRow} (h : SendMove w sid o q n)
    (hr : w.sends.get sid = some r)
    (hretry : ∀ userId partition, o = .operatorRetryWrite sid userId partition → settled r = false) :
    (r.state = .delivered → ∃ r', q = some r' ∧ r'.state = .delivered) ∧
      (r.state = .uncertain → (∃ r', q = some r' ∧ r'.state = .uncertain) ∨
        ∃ userId resolution note partition, o = .resolveWrite sid userId resolution note partition) := by
  cases h with
  | same => exact ⟨fun hs => ⟨r, hr, hs⟩, fun hs => .inl ⟨r, hr, hs⟩⟩
  | claimed args hn hfree => rw [hn, w.sends.get_next] at hr; cases hr
  | wrote u hr' hg =>
    obtain rfl := Option.some.inj (hr.symm.trans hr')
    rw [Write.inFlight_of_guard hg]
    exact ⟨nofun, nofun⟩
  | bumped hr' =>
    obtain rfl := Option.some.inj (hr.symm.trans hr')
    exact ⟨fun hs => ⟨_, rfl, hs⟩, fun hs => .inl ⟨_, rfl, hs⟩⟩
  | retried userId partition hr' =>
    have hns := hretry userId partition rfl
    simp only [Send.settled, Bool.or_eq_false_iff, beq_eq_false_iff_ne] at hns
    exact ⟨fun hs => absurd hs hns.1, fun hs => absurd hs hns.2⟩
  | attested userId note partition hr' hd | resent userId note partition hr' hd =>
    obtain rfl := Option.some.inj (hr.symm.trans hr')
    rw [hd]
    exact ⟨nofun, fun _ => .inr ⟨_, _, _, _, rfl⟩⟩

theorem leavesSettled_of_step {w t : World} {a : Action} (hok : retriesUnsettled w a = true)
    (h : World.step settings w a = some t) : LeavesSettled w a t := by
  intro sid r hr
  have stay (hs : t.store.sends = w.store.sends) :
      (r.state = .delivered → ∃ r', t.store.sends.get sid = some r' ∧ r'.state = .delivered) ∧
        (r.state = .uncertain → (∃ r', t.store.sends.get sid = some r' ∧ r'.state = .uncertain) ∨ Resolves w a sid) := by
    rw [hs]
    exact ⟨fun h => ⟨r, hr, h⟩, fun h => .inl ⟨r, hr, h⟩⟩
  cases moved_of_step h with
  | ran pid e hp hn hs =>
    have hop := nextOp_of_next hp hn
    obtain ⟨hd, hu⟩ := ((did_of_sem hs).send sid).settled hr fun userId partition ho => by
      subst ho
      simpa only [retriesUnsettled, hop, hr, Option.any_some, Bool.not_eq_true'] using hok
    refine ⟨hd, fun h => (hu h).imp_right ?_⟩
    rintro ⟨userId, resolution, note, partition, rfl⟩
    exact ⟨pid, e, userId, resolution, note, partition, rfl, hop⟩
  | outside _ store hout => exact stay (Store.outside_eq hout).1
  | _ => exact stay rfl

/-- **Settled sends stay settled** along every run in which no operator's retry writes to a settled send: what was
delivered is delivered ever after, and each further step leaves an uncertain send uncertain unless it resolves it. -/
theorem settled_stays {s t : World} (hrun : (system settings).Steps (fun w a => retriesUnsettled w a = true) s t) :
    (∀ sid r, s.store.sends.get sid = some r → r.state = .delivered →
        ∃ r', t.store.sends.get sid = some r' ∧ r'.state = .delivered) ∧
      ∀ a u, retriesUnsettled t a = true → (system settings).step t a = some u → LeavesSettled t a u := by
  refine ⟨fun sid r hr hd => ?_, fun a u hok h => leavesSettled_of_step hok h⟩
  refine Machine.Steps.keep (I := fun w => ∃ r', w.store.sends.get sid = some r' ∧ r'.state = .delivered) ?_ hrun ⟨r, hr, hd⟩
  rintro w a u ⟨r', hr', hd'⟩ hok h
  exact (leavesSettled_of_step hok h sid r' hr').1 hd'

/-- Two retries read a failed send; what the first one booked is delivered before the second one writes. -/
def staleRetry : List Action :=
  sampleRun ++ sampleRefusal 2 ++
    [.call (.operatorRetry 0 1), .call (.operatorRetry 0 1), .step 3 .none, .step 4 .none, .step 3 .none,
      .claim "host:1" 5 (fun _ => false)] ++ sampleDelivery 5 0

/-- The delivered send of that run, with the second retry crashing before it writes. -/
theorem settled_stays_staleRetry :
    ∃ s t, (system {}).exec {} staleRetry = some s ∧ stateOf s 0 = some .delivered ∧
      (system {}).exec s [.crash 4] = some t ∧
      ((∀ sid r, s.store.sends.get sid = some r → r.state = .delivered →
          ∃ r', t.store.sends.get sid = some r' ∧ r'.state = .delivered) ∧
        ∀ a u, retriesUnsettled t a = true → (system {}).step t a = some u → LeavesSettled t a u) := by
  have hrun : ((system {}).exec {} staleRetry).any (fun s =>
      stateOf s 0 == some .delivered && ((system {}).exec s [.crash 4]).isSome &&
        (system {}).allowed retriesUnsettled s [.crash 4]) = true := by decide +kernel
  rw [Option.any_eq_true] at hrun
  obtain ⟨s, hs, hp⟩ := hrun
  simp only [Bool.and_eq_true, beq_iff_eq, Option.isSome_iff_exists] at hp
  obtain ⟨⟨hd, t, ht⟩, hal⟩ := hp
  exact ⟨s, t, hs, hd, ht, settled_stays (Machine.Steps.of_exec (fun _ _ h => h) ht hal)⟩

/-- The second retry's write takes the delivered send back in flight. -/
theorem staleRetry_unsettles :
    ¬ ∀ w a t, (system {}).Reach (fun _ _ => True) w → (system {}).step w a = some t → LeavesSettled w a t := by
  intro hclaim
  have hrun : ((system {}).exec (system {}).init staleRetry).any (fun s =>
      stateOf s 0 == some .delivered && ((system {}).step s (.step 4 .none)).any fun t => stateOf t 0 == some .inFlight) =
        true := by decide +kernel
  obtain ⟨s, -, hreach, hp⟩ := Machine.reach_of_exec hrun
  simp only [Bool.and_eq_true, beq_iff_eq, Option.any_eq_true] at hp
  obtain ⟨hd, t, ht, hf⟩ := hp
  obtain ⟨r, hr, hd⟩ := stateOf_eq_some hd
  obtain ⟨r', hr', hd'⟩ := (hclaim s _ t hreach ht 0 r hr).1 hd
  obtain ⟨q, hq, hf⟩ := stateOf_eq_some hf
  rw [hr', Option.some.injEq] at hq
  rw [← hq, hd'] at hf
  cases hf

end Send
end SafeSend
