import SafeSend.Send.Gated
/-!
# Well-formed stores

What holds of the tables in every reachable state, with nothing assumed: a send is a draft's, and its only one; a send's
job is booked in the send's own partition; no two jobs of one partition run.
-/
namespace SafeSend
namespace Send

open Lib
open Queue (ClaimedJob Recovery JobRow)

/-- The dedupe key of the job a send is claimed with. -/
def sendKey (sid : Nat) : String := "send:" ++ toString sid

theorem sendKey_inj {m n : Nat} (h : sendKey m = sendKey n) : m = n :=
  toString_inj ((String.append_right_inj _).1 h)

theorem sendKey_ne_adapter (sid ref : Nat) : sendKey sid ≠ "adapter_run:" ++ toString ref := by
  intro h
  have := congrArg String.toList h
  simp [sendKey] at this

structure WellFormed (w : Store) : Prop where
  /-- Idempotency keys are the drafts'. -/
  keys : ∀ m n d e, w.drafts.get m = some d → w.drafts.get n = some e → d.idempotencyKey = e.idempotencyKey → m = n
  origin : ∀ sid r, w.sends.get sid = some r →
    ∃ d, w.drafts.get r.draftId = some d ∧ d.origin = (r.userId, r.connectionId, r.provider, r.idempotencyKey)
  /-- `sends_user_key_uniq`. -/
  unique : ∀ m n r q, w.sends.get m = some r → w.sends.get n = some q → r.userId = q.userId →
    r.idempotencyKey = q.idempotencyKey → m = n
  work : ∀ n j, w.jobs.get n = some j → j.kind = .send →
    ∃ r, w.sends.get j.refId = some r ∧ j.partitionKey = some r.partition
  /-- `jobs_running_partition_uniq`. -/
  exclusive : ∀ m n i j p, w.jobs.get m = some i → w.jobs.get n = some j → i.state = .running → j.state = .running →
    i.partitionKey = some p → j.partitionKey = some p → m = n
  named : ∀ n j sid, w.jobs.get n = some j → j.dedupeKey = some (sendKey sid) → ∃ r, w.sends.get sid = some r

theorem wellFormed_empty : WellFormed {} := by
  constructor <;> intros <;> simp_all

variable {settings : Settings} {w w' : Store}

theorem WellFormed.congr (h : WellFormed w) (hd : w'.drafts = w.drafts) (hs : w'.sends = w.sends) (hj : w'.jobs = w.jobs) :
    WellFormed w' := by
  obtain ⟨h1, h2, h3, h4, h5, h6⟩ := h
  constructor <;> simp only [hd, hs, hj] <;> assumption

/-- A key belongs to one send. -/
theorem WellFormed.key_inj (h : WellFormed w) {m n : Nat} {r q : SendRow} (hr : w.sends.get m = some r)
    (hq : w.sends.get n = some q) (hk : r.idempotencyKey = q.idempotencyKey) : m = n := by
  obtain ⟨d, hd, ho⟩ := h.origin m r hr
  obtain ⟨e, he, ho'⟩ := h.origin n q hq
  simp only [DraftRow.origin, Prod.mk.injEq] at ho ho'
  have hid : r.draftId = q.draftId := h.keys _ _ d e hd he (by rw [ho.2.2.2, ho'.2.2.2, hk])
  rw [hid, he] at hd
  obtain rfl := Option.some.inj hd
  exact h.unique m n r q hr hq (by rw [← ho.1, ← ho'.1]) hk

/-- **One draft, one send.** -/
theorem WellFormed.draft_inj (h : WellFormed w) {m n : Nat} {r q : SendRow} (hr : w.sends.get m = some r)
    (hq : w.sends.get n = some q) (hid : r.draftId = q.draftId) : m = n := by
  obtain ⟨d, hd, ho⟩ := h.origin m r hr
  obtain ⟨e, he, ho'⟩ := h.origin n q hq
  simp only [DraftRow.origin, Prod.mk.injEq] at ho ho'
  rw [hid, he] at hd
  obtain rfl := Option.some.inj hd
  exact h.key_inj hr hq (by rw [← ho.2.2.2, ← ho'.2.2.2])

theorem sendByKey_eq_some {userId id : Nat} {key : String} {row : SendRow}
    (h : w.sendByKey userId key = some (id, row)) :
    w.sends.get id = some row ∧ row.userId = userId ∧ row.idempotencyKey = key := by
  obtain ⟨hg, hp⟩ := Table.first_eq_some h
  simp only [Bool.and_eq_true, beq_iff_eq] at hp
  exact ⟨hg, hp⟩

theorem sendByKey_eq_none {userId : Nat} {key : String} (h : w.sendByKey userId key = none) {n : Nat} {r : SendRow}
    (hr : w.sends.get n = some r) : ¬ (r.userId = userId ∧ r.idempotencyKey = key) := by
  rintro ⟨rfl, rfl⟩
  have := Table.first_eq_none h n r hr
  simp at this

/-! ## Operations -/

variable {o : Op}

/-- A draft after the operation is one from before, of the same origin, or a new one with a key of its own. -/
theorem Did.draft_source (h : Did settings w o w') {id : Nat} {d' : DraftRow} (hd : w'.drafts.get id = some d') :
    (∃ d, w.drafts.get id = some d ∧ d'.origin = d.origin) ∨
      id = w.drafts.next ∧ ∀ m d, w.drafts.get m = some d → d.idempotencyKey ≠ d'.idempotencyKey := by
  rcases h.draft id with hs | ⟨_, edit, d, -, hd', -, hs⟩ | ⟨args, k, -, hk, hn, hs⟩
  · exact .inl ⟨d', hs ▸ hd, rfl⟩
  · rw [hs] at hd
    obtain rfl := Option.some.inj hd
    exact .inl ⟨d, hd', rfl⟩
  · rw [hs] at hd
    obtain rfl := Option.some.inj hd
    refine .inr ⟨hn, fun m d hm hkey => ?_⟩
    simp only [Store.freshKey, Bool.not_eq_true'] at hk
    have := Table.any_eq_false.1 hk m d hm
    simp only [beq_eq_false_iff_ne] at this
    exact this hkey

theorem keys_did (hw : WellFormed w) (h : Did settings w o w') (m n : Nat) (d e : DraftRow)
    (hm : w'.drafts.get m = some d) (hn : w'.drafts.get n = some e) (hk : d.idempotencyKey = e.idempotencyKey) : m = n := by
  have key {d e : DraftRow} (h : d.origin = e.origin) : d.idempotencyKey = e.idempotencyKey := by
    simp only [DraftRow.origin, Prod.mk.injEq] at h
    exact h.2.2.2
  rcases h.draft_source hm with ⟨d₀, hm₀, hd⟩ | ⟨hm₀, hd⟩ <;> rcases h.draft_source hn with ⟨e₀, hn₀, he⟩ | ⟨hn₀, he⟩
  · exact hw.keys m n d₀ e₀ hm₀ hn₀ (by rw [← key hd, hk, key he])
  · exact absurd (by rw [← key hd, hk]) (he m d₀ hm₀)
  · exact absurd (by rw [← key he, hk]) (hd n e₀ hn₀)
  · rw [hm₀, hn₀]

theorem origin_did (hw : WellFormed w) (hfits : Fits w o) (h : Did settings w o w') (sid : Nat) (r : SendRow)
    (hr : w'.sends.get sid = some r) :
    ∃ d, w'.drafts.get r.draftId = some d ∧ d.origin = (r.userId, r.connectionId, r.provider, r.idempotencyKey) := by
  have hmove := h.send sid
  rw [hr] at hmove
  rcases hmove.source with ⟨r₀, hr₀, hc⟩ | ⟨args, rfl, -, rfl, -⟩
  · obtain ⟨d, hd, ho⟩ := hw.origin sid r₀ hr₀
    obtain ⟨d', hd', ho'⟩ := h.extends.drafts _ d hd
    simp only [SendRow.claim, ClaimArgs.mk.injEq] at hc
    obtain ⟨h1, h2, h3, h4, h5, -⟩ := hc
    exact ⟨d', by rw [h2]; exact hd', by rw [ho', ho, h1, h3, h4, h5]⟩
  · obtain ⟨d, hd, ho⟩ := hfits
    obtain ⟨d', hd', ho'⟩ := h.extends.drafts _ d hd
    exact ⟨d', hd', by rw [ho', ho]; rfl⟩

theorem unique_did (hw : WellFormed w) (h : Did settings w o w') (m n : Nat) (r q : SendRow)
    (hr : w'.sends.get m = some r) (hq : w'.sends.get n = some q) (hu : r.userId = q.userId)
    (hk : r.idempotencyKey = q.idempotencyKey) : m = n := by
  have hm := h.send m
  have hn := h.send n
  rw [hr] at hm
  rw [hq] at hn
  have owner {a b : SendRow} (h : a.claim = b.claim) : a.userId = b.userId ∧ a.idempotencyKey = b.idempotencyKey := by
    simp only [SendRow.claim, ClaimArgs.mk.injEq] at h
    exact ⟨h.1, h.2.2.2.2.1⟩
  rcases hm.source with ⟨r₀, hr₀, hc⟩ | ⟨args, ho, hm₀, rfl, hfree⟩ <;>
    rcases hn.source with ⟨q₀, hq₀, hc'⟩ | ⟨args', ho', hn₀, rfl, hfree'⟩
  · exact hw.unique m n r₀ q₀ hr₀ hq₀ (by rw [← (owner hc).1, hu, (owner hc').1])
      (by rw [← (owner hc).2, hk, (owner hc').2])
  · exact absurd ⟨by rw [← (owner hc).1, hu]; rfl, by rw [← (owner hc).2, hk]; rfl⟩ (sendByKey_eq_none hfree' hr₀)
  · exact absurd ⟨by rw [← (owner hc').1, ← hu]; rfl, by rw [← (owner hc').2, ← hk]; rfl⟩ (sendByKey_eq_none hfree hq₀)
  · rw [hm₀, hn₀]

/-- A job's send is still there, in the same partition. -/
theorem work_extends (hext : Extends w w') {id : Nat} {p : Option String}
    (h : ∃ r, w.sends.get id = some r ∧ p = some r.partition) : ∃ r, w'.sends.get id = some r ∧ p = some r.partition := by
  obtain ⟨r, hr, hp⟩ := h
  obtain ⟨r', hr', hc⟩ := hext.sends id r hr
  exact ⟨r', hr', by rw [hp, partition_of_claim hc]⟩

theorem work_did (hw : WellFormed w) (hfits : Fits w o) (h : Did settings w o w') (n : Nat) (j : JobRow)
    (hj : w'.jobs.get n = some j) (hkind : j.kind = .send) :
    ∃ r, w'.sends.get j.refId = some r ∧ j.partitionKey = some r.partition := by
  cases hn : w.jobs.get n with
  | some j₀ =>
    have hq := (h.quiet n).move
    rw [hn, hj] at hq
    obtain ⟨j', he, hwork, -⟩ := hq.keeps
    obtain rfl := Option.some.inj he
    obtain ⟨h1, h2, h3⟩ := Queue.work_inj hwork
    rw [h2, h3]
    exact work_extends h.extends (hw.work n j₀ hn (h1 ▸ hkind))
  | none =>
    rcases h.booked hn hj with ⟨args, rfl, -, hs, rfl⟩ | ⟨id, userId, partition, rfl, hrow, ho⟩
    · exact ⟨_, hs, rfl⟩
    · obtain ⟨r, hr⟩ := Option.isSome_iff_exists.1 hrow
      have hp : r.partition = partition := by
        rcases ho with rfl | ⟨note, rfl⟩ <;> exact hfits r hr
      exact work_extends h.extends ⟨r, hr, by rw [← hp]; rfl⟩

theorem named_did (hw : WellFormed w) (h : Did settings w o w') (n : Nat) (j : JobRow) (sid : Nat)
    (hj : w'.jobs.get n = some j) (hkey : j.dedupeKey = some (sendKey sid)) : ∃ r, w'.sends.get sid = some r := by
  cases hn : w.jobs.get n with
  | some j₀ =>
    have hq := (h.quiet n).move
    rw [hn, hj] at hq
    obtain ⟨j', he, hwork, -⟩ := hq.keeps
    obtain rfl := Option.some.inj he
    simp only [JobRow.work, Prod.mk.injEq] at hwork
    obtain ⟨r, hr⟩ := hw.named n j₀ sid hn (by rw [← hwork.2.2.2, hkey])
    obtain ⟨r', hr', -⟩ := h.extends.sends sid r hr
    exact ⟨r', hr'⟩
  | none =>
    rcases h.booked hn hj with ⟨args, rfl, -, hs, rfl⟩ | ⟨id, userId, partition, rfl, -⟩
    · obtain rfl := sendKey_inj (Option.some.inj hkey)
      exact ⟨_, hs⟩
    · cases hkey

/-- No row starts to run but by a claim. -/
theorem exclusive_of_running (hw : WellFormed w) {jobs : Queue.Jobs}
    (h : ∀ n j, jobs.get n = some j → j.state = .running → w.jobs.get n = some j) (m n : Nat) (i j : JobRow) (p : String)
    (hi : jobs.get m = some i) (hj : jobs.get n = some j) (his : i.state = .running) (hjs : j.state = .running)
    (hip : i.partitionKey = some p) (hjp : j.partitionKey = some p) : m = n :=
  hw.exclusive m n i j p (h m i hi his) (h n j hj hjs) his hjs hip hjp

theorem WellFormed.did (hw : WellFormed w) (hfits : Fits w o) (h : Did settings w o w') : WellFormed w' where
  keys := keys_did hw h
  origin := origin_did hw hfits h
  unique := unique_did hw h
  work := work_did hw hfits h
  exclusive := exclusive_of_running hw fun n j hj hs => by
    have hq := h.quiet n
    rw [hj] at hq
    exact hq.running_of hs
  named := named_did hw h

/-! ## The system -/

/-- The jobs of a well-formed store replaced: rows move, and new ones are no sends'. -/
theorem WellFormed.withJobs (hw : WellFormed w) {jobs : Queue.Jobs} (hmove : ∀ n, Queue.Move (w.jobs.get n) (jobs.get n))
    (hnew : ∀ n j, w.jobs.get n = none → jobs.get n = some j →
      j.kind ≠ .send ∧ ∀ sid, j.dedupeKey ≠ some (sendKey sid))
    (hexcl : ∀ m n i j p, jobs.get m = some i → jobs.get n = some j → i.state = .running → j.state = .running →
      i.partitionKey = some p → j.partitionKey = some p → m = n) : WellFormed { w with jobs := jobs } where
  keys := hw.keys
  origin := hw.origin
  unique := hw.unique
  exclusive := hexcl
  work n j hj hkind := by
    cases hn : w.jobs.get n with
    | none => exact absurd hkind (hnew n j hn hj).1
    | some j₀ =>
      have hm := hmove n
      rw [hn, hj] at hm
      obtain ⟨j', he, hwork, -⟩ := hm.keeps
      obtain rfl := Option.some.inj he
      obtain ⟨h1, h2, h3⟩ := Queue.work_inj hwork
      rw [h2, h3]
      exact hw.work n j₀ hn (h1 ▸ hkind)
  named n j sid hj hkey := by
    cases hn : w.jobs.get n with
    | none => exact absurd hkey ((hnew n j hn hj).2 sid)
    | some j₀ =>
      have hm := hmove n
      rw [hn, hj] at hm
      obtain ⟨j', he, hwork, -⟩ := hm.keeps
      obtain rfl := Option.some.inj he
      simp only [JobRow.work, Prod.mk.injEq] at hwork
      exact hw.named n j₀ sid hn (by rw [← hwork.2.2.2, hkey])

/-- A table whose rows only leave their running state. -/
def Leaves (jobs jobs' : Queue.Jobs) : Prop :=
  ∀ n, jobs'.get n = jobs.get n ∨ ∃ j j', jobs.get n = some j ∧ jobs'.get n = some j' ∧ j.state = .running ∧
    j'.state ≠ .running ∧ j'.work = j.work ∧ j'.attempts = j.attempts

theorem Leaves.refl (jobs : Queue.Jobs) : Leaves jobs jobs := fun _ => .inl rfl

theorem leaves_of_finishes {id : Nat} {jobs jobs' : Queue.Jobs} (h : Queue.Finishes id jobs jobs') : Leaves jobs jobs' :=
  fun n => (h n).imp_right fun h => h.2

theorem leaves_applyRecoveries (now : Nat) (l : List (ClaimedJob × Recovery)) (jobs : Queue.Jobs) :
    Leaves jobs (Queue.applyRecoveries now jobs l) := by
  intro n
  rcases Queue.applyRecoveries_get now l jobs n with ⟨h, -⟩ | ⟨d, -, -, j, hj, hr, h⟩
  · exact .inl h
  · exact .inr ⟨j, _, hj, h, hr, (d.2.row_keeps now j).1, (d.2.row_keeps now j).2.1, (d.2.row_keeps now j).2.2⟩

theorem finishJob_finishes (w : Store) (job : ClaimedJob) (worker : String) (began : Nat) (trace : String) (draw : Draw)
    (r : Except Exn Unit) : Queue.Finishes job.id w.jobs ((finishJob w job worker began trace draw r).getD w.jobs) := by
  unfold finishJob
  cases r with
  | ok => exact Queue.succeed_finishes _ _ _ _
  | error exc =>
    dsimp only
    split
    · cases hf : Queue.fail w.now w.jobs job worker (classify exc) (detailOf exc trace) (retryAfterOf exc) draw with
      | none => exact Queue.Finishes.refl _ _
      | some out => exact Queue.fail_finishes hf
    · exact Queue.Finishes.refl _ _

theorem WellFormed.leaves (hw : WellFormed w) {jobs : Queue.Jobs} (h : Leaves w.jobs jobs) :
    WellFormed { w with jobs := jobs } := by
  refine hw.withJobs (fun n => ?_) (fun n j hn hj => ?_) (exclusive_of_running hw fun n j hj hs => ?_)
  · rcases h n with he | ⟨j, j', hj, hj', hr, hr', hwork, ha⟩
    · rw [he]; exact .same _
    · rw [hj, hj']; exact .left j j' hr hr' hwork ha
  · rcases h n with he | ⟨j₀, j', hj₀, -⟩
    · rw [he, hn] at hj; cases hj
    · rw [hn] at hj₀; cases hj₀
  · rcases h n with he | ⟨j₀, j', -, hj', -, hr', -⟩
    · rw [← he, hj]
    · rw [hj] at hj'
      exact absurd hs (Option.some.inj hj' ▸ hr')

theorem WellFormed.claim (hw : WellFormed w) (now limit : Nat) (locked : Nat → Bool) (l : Queue.Lease) :
    WellFormed { w with jobs := (Queue.claim now limit locked l w.jobs).2 } := by
  refine hw.withJobs Queue.claim_move (fun n j hn hj => ?_) (Queue.Exclusive.claim hw.exclusive)
  by_cases hc : n ∈ Queue.claimIds now limit locked w.jobs
  · obtain ⟨j₀, hj₀, -⟩ := Queue.mem_claimIds hc
    rw [hn] at hj₀; cases hj₀
  · rw [Queue.claim_get_of_not_mem hc, hn] at hj; cases hj

theorem WellFormed.outside (hw : WellFormed w) {a : Action} (h : w.outside settings a = some w') : WellFormed w' := by
  cases a <;> simp only [Store.outside, Option.some.injEq, reduceCtorEq] at h <;> subst h
  case planAdapterRun ref =>
    refine hw.withJobs (fun n => (Queue.enqueue_quiet settings w.now w.jobs _ n).move) (fun n j hn hj => ?_)
      (exclusive_of_running hw fun n j hj hs => ?_)
    · rcases Queue.enqueue_get settings w.now w.jobs (Store.adapterJob ref) n with he | ⟨-, -, he⟩
      · rw [he, hn] at hj; cases hj
      · rw [he] at hj
        obtain rfl := Option.some.inj hj
        refine ⟨by simp [Queue.newRow, Store.adapterJob], fun sid hkey => ?_⟩
        exact sendKey_ne_adapter sid ref (Option.some.inj hkey).symm
    · have hq := Queue.enqueue_quiet settings w.now w.jobs (Store.adapterJob ref) n
      rw [hj] at hq
      exact hq.running_of hs
  all_goals exact hw.congr rfl rfl rfl

/-- Well-formed tables under programs that hand over what fits. -/
structure Coherent (settings : Settings) (w : World) : Prop where
  store : WellFormed w.store
  procs : ∀ pid p, w.procs.get pid = some p → p.Gated settings w.store

theorem Moved.extends {w t : World} {a : Action} (h : Moved settings w a t) : Extends w.store t.store := by
  rcases h.store with ⟨_, _, _, _, _, _, -, -, hs, -⟩ | hout | ⟨jobs, he⟩
  · exact (did_of_sem hs).extends
  · obtain ⟨hs, hd⟩ := Store.outside_eq hout
    exact ⟨fun _ r hr => ⟨r, by rw [hs]; exact hr, rfl⟩, fun _ d hd' => ⟨d, by rw [hd]; exact hd', rfl⟩⟩
  · rw [he]
    exact ⟨fun _ r hr => ⟨r, hr, rfl⟩, fun _ d hd => ⟨d, hd, rfl⟩⟩

theorem Coherent.moved {w t : World} {a : Action} (h : Coherent settings w) (hm : Moved settings w a t) :
    Coherent settings t where
  store := by
    cases hm with
    | outside _ store hout => exact h.store.outside hout
    | claimed worker limit locked => exact h.store.claim _ _ _ _
    | ran pid e hp hn hs => exact h.store.did ((h.procs pid _ hp).next hn hs).1 (did_of_sem hs)
    | executed pid trace draw hp hfree => exact h.store.leaves (leaves_of_finishes (finishJob_finishes _ _ _ _ _ _ _))
    | recovered pid trace draw hp => exact h.store.leaves (leaves_applyRecoveries _ _ _)
    | called | swept | raised | lost | aborted | answered | crashed => exact h.store
  procs pid p hp := by
    cases hm.proc hp with
    | kept pid hp => exact (h.procs pid p hp).extends hm.extends
    | ran pid e hp hn hs => exact ((h.procs pid _ hp).next hn hs).2
    | raised => exact Prog.Safe.done
    | lost n hn => exact (h.procs n _ hn).extends hm.extends
    | called r => exact gated_request r _
    | claimed job => exact gated_of_plain _ (plain_of_worker (worker_handler job))
    | swept stale => exact gated_of_plain _ (plain_of_worker (worker_of_quiet (quiet_sweepJobs stale)))

/-- **Every reachable state is well formed**, whatever the steps. -/
theorem reach_coherent {ok : World → Action → Prop} {w : World} (h : (system settings).Reach ok w) :
    Coherent settings w :=
  Machine.Reach.inv ⟨wellFormed_empty, fun pid p hp => by cases hp⟩
    (fun _ _ _ _ hi _ hs => hi.moved (moved_of_step hs)) h

end Send
end SafeSend
