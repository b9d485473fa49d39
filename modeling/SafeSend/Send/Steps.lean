import SafeSend.Jobs.Moves
import SafeSend.Send.System
/-!
# What a step can do

Said once: the changes an operation can make to the store (`Did`), and the moves of the system (`Moved`).  Every
invariant is read off these.
-/
namespace SafeSend
namespace Send

open Lib
open Queue (ClaimedJob Recovery)

/-! ## Operations -/

/-- The changes of one operation; `same` is a read, or a write that was refused. -/
inductive Did (settings : Settings) (w : Store) : Op → Store → Prop
  | same (o : Op) : Did settings w o w
  | wrote (id : Nat) (u : Write) : Did settings w (.write id u) (w.updateSend id u.guard (u.row w.now))
  | bumped (id : Nat) : Did settings w (.bumpReconcileAttempts id) (w.updateSend id (fun _ => true) bumpRow)
  | called (provider : ProviderKind) (request : SendRequest) :
    Did settings w (.sendCall provider request)
      { w with calls := w.calls.insert { provider := provider, request := request } }
  | connection (o : Op) (connections : Table ConnectionRow)
      (hkept : ∀ n, (connections.get n).isSome = (w.connections.get n).isSome) :
    Did settings w o { w with connections := connections }
  | drafted (args : DraftArgs) (k : String) (hk : w.freshKey k = true) :
    Did settings w (.insertDraft args) { w with drafts := w.drafts.insert (Store.newDraft args k) }
  | edited {id userId : Nat} {edit : DraftEdit} {d : DraftRow} (hd : w.drafts.get id = some d)
      (hallowed : Store.editAllowed userId edit d = true) :
    Did settings w (.updateDraft id userId edit) { w with drafts := w.drafts.modify id (Store.editRow edit) }
  | claimed (args : ClaimArgs) (hfree : w.sendByKey args.userId args.idempotencyKey = none) :
    Did settings w (.claimAndEnqueue args)
      { w with
        sends := w.sends.insert (Store.newSend w.now args)
        jobs := (Queue.enqueue settings w.now w.jobs
          (Store.sendJob w.sends.next (Store.newSend w.now args))).2 }
  | retried (id userId : Nat) (partition : String) (jobs : Queue.Jobs) (hrow : (w.sends.get id).isSome)
      (hjobs : (Store.latestSendJob w.jobs id = none ∧
          jobs = (Queue.enqueue settings w.now w.jobs (Store.retryJob id partition)).2) ∨
        ∃ job hit, Store.latestSendJob w.jobs id = some job ∧
          Queue.operatorRetry w.now w.jobs job = some (hit, jobs)) :
    Did settings w (.operatorRetryWrite id userId partition)
      { w.updateSend id (fun s => s.userId == userId) operatorRetryRow with jobs := jobs }
  | attested (id userId : Nat) (note : Option String) (partition : String) :
    Did settings w (.resolveWrite id userId .markedDelivered note partition)
      (Store.updateSend { w with resolutions := w.resolutions.insert ⟨id, userId, .markedDelivered, note⟩ } id
        (fun s => s.userId == userId && inDoubt s) (attestedRow w.now))
  | resent (id userId : Nat) (note : Option String) (partition : String) (jobs : Queue.Jobs)
      (hrow : (w.sends.get id).isSome)
      (hjobs : Store.resumeOrEnqueue settings w.now w.jobs id partition = some jobs) :
    Did settings w (.resolveWrite id userId .forcedResend note partition)
      { Store.updateSend { w with resolutions := w.resolutions.insert ⟨id, userId, .forcedResend, note⟩ } id
          (fun s => s.userId == userId && inDoubt s) resendRow with
        jobs := jobs
        forced := fun n =>
          if n = id ∧ w.sends.affected id (fun s => s.userId == userId && inDoubt s) then w.forced n + 1
          else w.forced n }

theorem did_claimAndEnqueue (settings : Settings) (w : Store) (args : ClaimArgs) :
    Did settings w (.claimAndEnqueue args) (w.claimAndEnqueue settings args).2 := by
  unfold Store.claimAndEnqueue
  split
  · exact .same _
  · rename_i hfree
    exact .claimed args hfree

theorem did_updateDraft (settings : Settings) (w : Store) (id userId : Nat) (edit : DraftEdit) :
    Did settings w (.updateDraft id userId edit) (w.updateDraft id userId edit).2 := by
  unfold Store.updateDraft
  split
  · exact .same _
  · rename_i d hd
    split
    · exact .same _
    · rename_i hu
      rw [not_not] at hu
      split
      · exact .same _
      · rename_i ht
        rw [Bool.not_eq_true', Bool.not_eq_false] at ht
        split
        · exact .same _
        · rename_i hs
          rw [Bool.not_eq_true', Bool.not_eq_false] at hs
          exact .edited hd (by simp only [Store.editAllowed, hu, ht, hs, beq_self_eq_true, Bool.and_self])

theorem did_operatorRetryWrite (settings : Settings) (w : Store) (id userId : Nat) (partition : String) :
    Did settings w (.operatorRetryWrite id userId partition) (w.operatorRetryWrite settings id userId partition).2 := by
  unfold Store.operatorRetryWrite
  simp only
  split
  · rename_i jobs row hjobs hrow
    have hsome : (w.sends.get id).isSome := by
      rw [← w.sends.isSome_get_modify id, Option.isSome_iff_exists]
      exact ⟨row, hrow⟩
    refine .retried id userId partition jobs hsome ?_
    split at hjobs
    · rename_i hnone
      exact .inl ⟨hnone, (Option.some.inj hjobs).symm⟩
    · rename_i job hjob
      rw [Option.map_eq_some_iff] at hjobs
      obtain ⟨⟨hit, jobs'⟩, hr, rfl⟩ := hjobs
      exact .inr ⟨job, hit, hjob, hr⟩
  · exact .same _
  · exact .same _

theorem did_resolveWrite (settings : Settings) (w : Store) (id userId : Nat) (resolution : Resolution)
    (note : Option String) (partition : String) :
    Did settings w (.resolveWrite id userId resolution note partition)
      (w.resolveWrite settings id userId resolution note partition).2 := by
  unfold Store.resolveWrite
  cases resolution with
  | markedDelivered =>
    simp only
    split
    · rename_i w' row h
      simp only [Option.map_some, Option.some.injEq, Prod.mk.injEq] at h
      obtain ⟨rfl, -⟩ := h
      exact .attested id userId note partition
    · exact .same _
    · exact .same _
  | forcedResend =>
    simp only
    split
    · rename_i w' row h
      simp only [Option.map_map, Option.map_eq_some_iff, Function.comp_apply, Prod.mk.injEq] at h
      obtain ⟨jobs, hjobs, rfl, hrow⟩ := h
      have hsome : (w.sends.get id).isSome := by
        rw [← w.sends.isSome_get_modify id, Option.isSome_iff_exists]
        exact ⟨row, hrow⟩
      exact .resent id userId note partition jobs hsome hjobs
    · exact .same _
    · exact .same _

theorem store_of_some {α : Type} {p : α × Store} {x : α} {w' : Store} (h : some p = some (x, w')) : w' = p.2 :=
  (congrArg Prod.snd (Option.some.inj h)).symm

/-- **Every operation does one of these.** -/
theorem did_of_sem {settings : Settings} {o : Op} {e : Env} {w w' : Store} {x : o.Ans}
    (h : sem settings o e w = some (x, w')) : Did settings w o w' := by
  cases o with
  | write id u => exact (sem_write h).1 ▸ .wrote id u
  | insertDraft args =>
    cases e with
    | key k =>
      obtain ⟨hk, h⟩ := Option.ite_none_right_eq_some.1 h
      exact store_of_some h ▸ .drafted _ _ hk
    | _ => cases h
  | bumpReconcileAttempts id => cases e <;> first | exact store_of_some h ▸ .bumped _ | cases h
  | sendCall provider request => cases e <;> first | exact store_of_some h ▸ .called _ _ | cases h
  | recordSuccess id =>
    cases e <;> first | exact store_of_some h ▸ .connection _ _ (w.connections.isSome_get_modify _ _) | cases h
  | updateDraft id userId edit => cases e <;> first | exact store_of_some h ▸ did_updateDraft _ _ _ _ _ | cases h
  | claimAndEnqueue args => cases e <;> first | exact store_of_some h ▸ did_claimAndEnqueue _ _ _ | cases h
  | operatorRetryWrite id userId partition =>
    cases e <;> first | exact store_of_some h ▸ did_operatorRetryWrite _ _ _ _ _ | cases h
  | resolveWrite id userId resolution note partition =>
    cases e <;> first | exact store_of_some h ▸ did_resolveWrite _ _ _ _ _ _ _ | cases h
  | _ => cases e <;> first | exact store_of_some h ▸ .same _ | cases h

/-! ### One send -/

/-- The columns of a send that nothing writes again. -/
def SendRow.claim (s : SendRow) : ClaimArgs :=
  ⟨s.userId, s.draftId, s.connectionId, s.provider, s.idempotencyKey, s.confirmedSha256⟩

@[simp] theorem claim_row (u : Write) (now : Nat) (s : SendRow) : (u.row now s).claim = s.claim := by cases u <;> rfl

theorem Write.inFlight_of_guard {u : Write} {s : SendRow} (h : u.guard s = true) : s.state = .inFlight := by
  cases u <;> simp only [Write.guard, Bool.and_eq_true, inFlight, beq_iff_eq] at h
  case uncertain => exact h.1
  all_goals exact h

/-- The changes of one operation to one send and to the count of resends applied to it. -/
inductive SendMove (w : Store) (sid : Nat) : Op → Option SendRow → Nat → Prop
  | same (o : Op) : SendMove w sid o (w.sends.get sid) (w.forced sid)
  | wrote {r : SendRow} (u : Write) (hr : w.sends.get sid = some r) (hg : u.guard r = true) :
    SendMove w sid (.write sid u) (some (u.row w.now r)) (w.forced sid)
  | bumped {r : SendRow} (hr : w.sends.get sid = some r) :
    SendMove w sid (.bumpReconcileAttempts sid) (some (bumpRow r)) (w.forced sid)
  | claimed (args : ClaimArgs) (hn : sid = w.sends.next)
      (hfree : w.sendByKey args.userId args.idempotencyKey = none) :
    SendMove w sid (.claimAndEnqueue args) (some (Store.newSend w.now args)) (w.forced sid)
  | retried {r : SendRow} (userId : Nat) (partition : String) (hr : w.sends.get sid = some r) :
    SendMove w sid (.operatorRetryWrite sid userId partition) (some (operatorRetryRow r)) (w.forced sid)
  | attested {r : SendRow} (userId : Nat) (note : Option String) (partition : String) (hr : w.sends.get sid = some r)
      (hd : r.state = .uncertain) :
    SendMove w sid (.resolveWrite sid userId .markedDelivered note partition) (some (attestedRow w.now r)) (w.forced sid)
  | resent {r : SendRow} (userId : Nat) (note : Option String) (partition : String) (hr : w.sends.get sid = some r)
      (hd : r.state = .uncertain) :
    SendMove w sid (.resolveWrite sid userId .forcedResend note partition) (some (resendRow r)) (w.forced sid + 1)

variable {settings : Settings} {o : Op} {w w' : Store}

theorem inDoubt_of_guard {r : SendRow} {userId : Nat} (h : (r.userId == userId && inDoubt r) = true) :
    r.state = .uncertain := by
  simp only [Bool.and_eq_true, inDoubt, beq_iff_eq] at h
  exact h.2

theorem Did.send (h : Did settings w o w') (sid : Nat) : SendMove w sid o (w'.sends.get sid) (w'.forced sid) := by
  cases h with
  | same => exact .same o
  | connection => exact .same o
  | called => exact .same _
  | drafted => exact .same _
  | edited => exact .same _
  | wrote id u =>
    rcases w.sends.get_updateWhere_cases id u.guard (u.row w.now) sid with hs | ⟨rfl, r, hr, hg, hs⟩
    · simp only [Store.updateSend, hs]; exact .same _
    · simp only [Store.updateSend, hs]; exact .wrote u hr hg
  | bumped id =>
    rcases w.sends.get_updateWhere_cases id (fun _ => true) bumpRow sid with hs | ⟨rfl, r, hr, -, hs⟩
    · simp only [Store.updateSend, hs]; exact .same _
    · simp only [Store.updateSend, hs]; exact .bumped hr
  | claimed args hfree =>
    by_cases hn : sid = w.sends.next
    · simp only [Table.get_insert, if_pos hn]; exact .claimed args hn hfree
    · simp only [Table.get_insert, if_neg hn]; exact .same _
  | retried id userId partition jobs hrow hjobs =>
    rcases w.sends.get_updateWhere_cases id (fun s => s.userId == userId) operatorRetryRow sid with
      hs | ⟨rfl, r, hr, -, hs⟩
    · simp only [Store.updateSend, hs]; exact .same _
    · simp only [Store.updateSend, hs]; exact .retried userId partition hr
  | attested id userId note partition =>
    rcases w.sends.get_updateWhere_cases id (fun s => s.userId == userId && inDoubt s) (attestedRow w.now) sid with
      hs | ⟨rfl, r, hr, hg, hs⟩
    · simp only [Store.updateSend, hs]; exact .same _
    · simp only [Store.updateSend, hs]; exact .attested userId note partition hr (inDoubt_of_guard hg)
  | resent id userId note partition jobs hrow hjobs =>
    simp only [Store.updateSend]
    rcases w.sends.get_updateWhere_cases id (fun s => s.userId == userId && inDoubt s) resendRow sid with
      hs | ⟨rfl, r, hr, hg, hs⟩
    · have hcount : ¬ (sid = id ∧ w.sends.affected id (fun s => s.userId == userId && inDoubt s) = true) := by
        rintro ⟨rfl, ha⟩
        obtain ⟨r, hr, hg⟩ := Table.affected_iff.1 ha
        rw [Table.get_updateWhere_hit resendRow hr hg, hr, Option.some.injEq] at hs
        have := congrArg SendRow.state hs
        rw [inDoubt_of_guard hg] at this
        cases this
      rw [hs, if_neg hcount]; exact .same _
    · rw [hs, if_pos ⟨rfl, Table.affected_iff.2 ⟨r, hr, hg⟩⟩]
      exact .resent userId note partition hr (inDoubt_of_guard hg)

/-- **A send's claim never changes**, and no send is forgotten. -/
theorem SendMove.keeps {sid n : Nat} {r : SendRow} {q : Option SendRow} (h : SendMove w sid o q n)
    (hr : w.sends.get sid = some r) : ∃ r', q = some r' ∧ r'.claim = r.claim := by
  cases h with
  | same => exact ⟨r, hr, rfl⟩
  | claimed args hn hfree => rw [hn, w.sends.get_next] at hr; cases hr
  | wrote u hr' hg =>
    obtain rfl := Option.some.inj (hr.symm.trans hr')
    exact ⟨_, rfl, claim_row u w.now r⟩
  | bumped hr' | retried _ _ hr' | attested _ _ _ hr' _ | resent _ _ _ hr' _ =>
    obtain rfl := Option.some.inj (hr.symm.trans hr')
    exact ⟨_, rfl, rfl⟩

/-- A send after the operation is one from before, or the claim that was won. -/
theorem SendMove.source {sid n : Nat} {r' : SendRow} (h : SendMove w sid o (some r') n) :
    (∃ r, w.sends.get sid = some r ∧ r'.claim = r.claim) ∨
      ∃ args, o = .claimAndEnqueue args ∧ sid = w.sends.next ∧ r' = Store.newSend w.now args ∧
        w.sendByKey args.userId args.idempotencyKey = none := by
  cases hr : w.sends.get sid with
  | some r =>
    obtain ⟨_, he, hc⟩ := h.keeps hr
    exact .inl ⟨r, rfl, Option.some.inj he ▸ hc⟩
  | none =>
    generalize hq : some r' = q at h
    cases h with
    | same => rw [hr] at hq; cases hq
    | claimed args hn hfree => exact .inr ⟨args, rfl, hn, Option.some.inj hq, hfree⟩
    | wrote _ hr' _ | bumped hr' | retried _ _ hr' | attested _ _ _ hr' _ | resent _ _ _ hr' _ =>
      rw [hr] at hr'; cases hr'

/-! ### The other tables -/

theorem Did.now (h : Did settings w o w') : w'.now = w.now := by cases h <;> rfl

/-- A forced resend is never taken back. -/
theorem Did.forced_le (h : Did settings w o w') (sid : Nat) : w.forced sid ≤ w'.forced sid := by
  have hm := h.send sid
  generalize w'.sends.get sid = q at hm
  generalize w'.forced sid = n at hm ⊢
  cases hm with
  | resent => exact Nat.le_succ _
  | _ => exact Nat.le_refl _

theorem Did.calls (h : Did settings w o w') :
    w'.calls = w.calls ∨ ∃ provider request, o = .sendCall provider request ∧
      w'.calls = w.calls.insert { provider := provider, request := request } := by
  cases h with
  | called provider request => exact .inr ⟨provider, request, rfl, rfl⟩
  | _ => exact .inl rfl

/-- The columns of a draft that no edit writes. -/
def DraftRow.origin (d : DraftRow) : Nat × Nat × ProviderKind × String :=
  (d.userId, d.connectionId, d.channel, d.idempotencyKey)

theorem Did.draft (h : Did settings w o w') (id : Nat) :
    w'.drafts.get id = w.drafts.get id ∨
      (∃ userId edit d, o = .updateDraft id userId edit ∧ w.drafts.get id = some d ∧
        Store.editAllowed userId edit d = true ∧ w'.drafts.get id = some (Store.editRow edit d)) ∨
      ∃ args k, o = .insertDraft args ∧ w.freshKey k = true ∧ id = w.drafts.next ∧
        w'.drafts.get id = some (Store.newDraft args k) := by
  cases h with
  | drafted args k hk =>
    by_cases hn : id = w.drafts.next
    · exact .inr (.inr ⟨args, k, rfl, hk, hn, by simp only [Table.get_insert, if_pos hn]⟩)
    · exact .inl (w.drafts.get_insert_of_ne _ hn)
  | @edited id' userId edit d hd hallowed =>
    by_cases hn : id = id'
    · subst hn
      exact .inr (.inl ⟨userId, edit, d, rfl, hd, hallowed, by simp only [Table.get_modify_self, hd, Option.map_some]⟩)
    · exact .inl (w.drafts.get_modify_of_ne _ hn)
  | _ => exact .inl rfl

/-! ### The jobs -/

theorem resumeOrEnqueue_cases {now id : Nat} {jobs jobs' : Queue.Jobs} {partition : String}
    (h : Store.resumeOrEnqueue settings now jobs id partition = some jobs') :
    (∃ job, Store.latestSendJob jobs id = some job ∧ Queue.operatorRetry now jobs job = some (true, jobs')) ∨
      ∃ jobs₁, (jobs₁ = jobs ∨ ∃ job, Queue.operatorRetry now jobs job = some (false, jobs₁)) ∧
        jobs' = (Queue.enqueue settings now jobs₁ (Store.retryJob id partition)).2 := by
  unfold Store.resumeOrEnqueue at h
  simp only [Option.map_eq_some_iff] at h
  obtain ⟨⟨hit, jobs₁⟩, hr, he⟩ := h
  split at hr
  · simp only [Option.some.injEq, Prod.mk.injEq] at hr
    obtain ⟨rfl, rfl⟩ := hr
    exact .inr ⟨jobs, .inl rfl, he.symm⟩
  · rename_i job hjob
    cases hit with
    | true =>
      obtain rfl : jobs₁ = jobs' := he
      exact .inl ⟨job, hjob, hr⟩
    | false => exact .inr ⟨jobs₁, .inr ⟨job, hr⟩, he.symm⟩

theorem resumeOrEnqueue_quiet {now id : Nat} {jobs jobs' : Queue.Jobs} {partition : String}
    (h : Store.resumeOrEnqueue settings now jobs id partition = some jobs') (n : Nat) :
    Queue.Quiet (jobs.get n) (jobs'.get n) := by
  rcases resumeOrEnqueue_cases h with ⟨job, -, hr⟩ | ⟨jobs₁, rfl | ⟨job, hr⟩, rfl⟩
  · exact Queue.operatorRetry_quiet hr n
  · exact Queue.enqueue_quiet settings now _ _ n
  · exact (Queue.operatorRetry_quiet hr n).trans_booked (Queue.operatorRetry_next hr)

/-- **No operation of a program claims or finishes a job.** -/
theorem Did.quiet (h : Did settings w o w') (n : Nat) : Queue.Quiet (w.jobs.get n) (w'.jobs.get n) := by
  cases h with
  | claimed args hfree => exact Queue.enqueue_quiet _ _ _ _ n
  | retried id userId partition jobs hrow hjobs =>
    rcases hjobs with ⟨-, rfl⟩ | ⟨job, hit, -, hr⟩
    · exact Queue.enqueue_quiet _ _ _ _ n
    · exact Queue.operatorRetry_quiet hr n
  | resent id userId note partition jobs hrow hjobs => exact resumeOrEnqueue_quiet hjobs n
  | _ => exact .same _

/-- What a job a program booked is for. -/
theorem Did.booked (h : Did settings w o w') {n : Nat} {j : Queue.JobRow} (hn : w.jobs.get n = none)
    (hj : w'.jobs.get n = some j) :
    (∃ args, o = .claimAndEnqueue args ∧ w.sendByKey args.userId args.idempotencyKey = none ∧
        w'.sends.get w.sends.next = some (Store.newSend w.now args) ∧
        j = Queue.newRow settings w.now (Store.sendJob w.sends.next (Store.newSend w.now args))) ∨
      ∃ id userId partition, j = Queue.newRow settings w.now (Store.retryJob id partition) ∧ (w.sends.get id).isSome ∧
        (o = .operatorRetryWrite id userId partition ∨
          ∃ note, o = .resolveWrite id userId .forcedResend note partition) := by
  have fresh {jobs : Queue.Jobs} {a : Queue.EnqueueArgs} (h0 : jobs.get n = none)
      (h : (Queue.enqueue settings w.now jobs a).2.get n = some j) : j = Queue.newRow settings w.now a := by
    rcases Queue.enqueue_get settings w.now jobs a n with hs | ⟨-, -, hs⟩
    · rw [hs, h0] at h; cases h
    · exact Option.some.inj (h.symm.trans hs)
  have kept {jobs : Queue.Jobs} {job : Nat} {hit : Bool} (hr : Queue.operatorRetry w.now w.jobs job = some (hit, jobs)) :
      jobs.get n = none := by
    have hq := Queue.operatorRetry_quiet hr n
    unfold Queue.operatorRetry at hr
    simp only at hr
    split at hr
    · cases hr
    · simp only [Option.some.injEq, Prod.mk.injEq] at hr
      rw [← hr.2, Table.updateWhere, Table.get_modify, hn]
      split <;> rfl
  cases h with
  | claimed args hfree =>
    exact .inl ⟨args, rfl, hfree, w.sends.get_insert_self _, fresh hn hj⟩
  | retried id userId partition jobs hrow hjobs =>
    rcases hjobs with ⟨-, rfl⟩ | ⟨job, hit, -, hr⟩
    · exact .inr ⟨id, userId, partition, fresh hn hj, hrow, .inl rfl⟩
    · simp only [kept hr] at hj; cases hj
  | resent id userId note partition jobs hrow hjobs =>
    refine .inr ⟨id, userId, partition, ?_, hrow, .inr ⟨note, rfl⟩⟩
    rcases resumeOrEnqueue_cases hjobs with ⟨job, -, hr⟩ | ⟨jobs₁, rfl | ⟨job, hr⟩, rfl⟩
    · simp only [kept hr] at hj; cases hj
    · exact fresh hn hj
    · exact fresh (kept hr) hj
  | _ => cases hn.symm.trans hj

/-! ## The system -/

/-- One operation of a process: it was `o`, it was answered `x`, and `p'` is what is left. -/
inductive Proc.Next : Proc → (o : Op) → o.Ans → Proc → Prop
  | exec (job : ClaimedJob) (worker : String) (began : Nat) (o : Op) (k : o.Ans → SendProg (Except Exn Unit))
      (x : o.Ans) : Next (.exec job worker began (.op o k)) o x (.exec job worker began (k x))
  | sweep (stale : List ClaimedJob) (began : Nat) (o : Op) (k : o.Ans → SendProg (List (ClaimedJob × Recovery)))
      (x : o.Ans) : Next (.sweep stale began (.op o k)) o x (.sweep stale began (k x))
  | adrift (o : Op) (k : o.Ans → SendProg (List (ClaimedJob × Recovery))) (x : o.Ans) :
    Next (.adrift (.op o k)) o x (.adrift (k x))
  | request (o : Op) (k : o.Ans → SendProg Unit) (x : o.Ans) : Next (.request (.op o k)) o x (.request (k x))

/-- What an operation hands to a provider's `prepare`. -/
def Op.prepares : Op → Option (ProviderKind × SendRequest)
  | prepare provider request => some (provider, request)
  | _ => none

/-- What an operation hands to a provider's `send`. -/
def Op.sends : Op → Option (ProviderKind × SendRequest)
  | sendCall provider request => some (provider, request)
  | _ => none

theorem prepares_eq_some {q : Option Op} {r : ProviderKind × SendRequest} (h : q.bind Op.prepares = some r) :
    q = some (.prepare r.1 r.2) := by
  obtain ⟨o, rfl, ho⟩ := Option.bind_eq_some_iff.1 h
  cases o with
  | prepare =>
    obtain rfl := Option.some.inj ho
    rfl
  | _ => cases ho

theorem sends_eq_some {q : Option Op} {r : ProviderKind × SendRequest} (h : q.bind Op.sends = some r) :
    q = some (.sendCall r.1 r.2) := by
  obtain ⟨o, rfl, ho⟩ := Option.bind_eq_some_iff.1 h
  cases o with
  | sendCall =>
    obtain rfl := Option.some.inj ho
    rfl
  | _ => cases ho

theorem nextOp_of_next {w : World} {pid : Nat} {p p' : Proc} {x : o.Ans} (hp : w.procs.get pid = some p)
    (hn : p.Next o x p') : w.nextOp pid = some o := by
  cases hn <;> simp only [World.nextOp, hp]

/-- The process about to carry out an operation can be answered anything. -/
theorem next_of_nextOp {w : World} {pid : Nat} {o : Op} (h : w.nextOp pid = some o) (x : o.Ans) :
    ∃ p p', w.procs.get pid = some p ∧ p.Next o x p' := by
  unfold World.nextOp at h
  split at h
  · rename_i job worker began _ k hp
    obtain rfl := Option.some.inj h
    exact ⟨_, _, hp, .exec job worker began _ k x⟩
  · rename_i stale began _ k hp
    obtain rfl := Option.some.inj h
    exact ⟨_, _, hp, .sweep stale began _ k x⟩
  · rename_i _ k hp
    obtain rfl := Option.some.inj h
    exact ⟨_, _, hp, .adrift _ k x⟩
  · rename_i _ k hp
    obtain rfl := Option.some.inj h
    exact ⟨_, _, hp, .request _ k x⟩
  · cases h

/-- What is left of an execution is what it raises: its time is up, the database refuses its write, or its own transaction
is over by the time its handler has ended. -/
inductive Raises (pid : Nat) : Action → SendProg (Except Exn Unit) → Exn → Prop
  | timedOut (o : Op) (k : o.Ans → SendProg (Except Exn Unit)) : Raises pid (.timeout pid) (.op o k) (.os "")
  | refused (e : Env) (id : Nat) (u : Write) (k : Bool → SendProg (Except Exn Unit)) (hu : u.storable = false) :
    Raises pid (.step pid e) (.op (.write id u) k) untranslatable
  | lost : Raises pid (.lose pid) (.ret (.ok ())) connectionClosed

/-- A sweep that ends at its next step, and commits nothing. -/
def Proc.aborts : Proc → Bool
  | .sweep _ _ body => refusedAt body
  | .adrift body => refusedAt body || ownsNext body
  | _ => false

/-- The moves of the system. -/
inductive Moved (settings : Settings) (w : World) : Action → World → Prop
  | outside (a : Action) (store : Store) (h : w.store.outside settings a = some store) :
    Moved settings w a { w with store := store }
  | called (r : Request) : Moved settings w (.call r) { w with procs := w.procs.insert (.request r.prog) }
  | claimed (worker : String) (limit : Nat) (locked : Nat → Bool) :
    Moved settings w (.claim worker limit locked)
      { store := { w.store with jobs := (w.store.claimJobs settings worker limit locked).2 }
        procs := World.spawn worker w.store.now w.procs (w.store.claimJobs settings worker limit locked).1 }
  | swept (limit : Nat) (locked : Nat → Bool) (hidle : w.sweeping = false) (stale : List ClaimedJob)
      (hstale : stale = Queue.selectStale w.store.now limit locked w.store.jobs) :
    Moved settings w (.sweep limit locked)
      { w with procs := w.procs.insert (.sweep stale w.store.now (sweepJobs stale)) }
  | ran (pid : Nat) (e : Env) {p p' : Proc} {o : Op} {x : o.Ans} {store : Store} (hp : w.procs.get pid = some p)
      (hn : p.Next o x p') (hs : sem settings o e w.store = some (x, store)) :
    Moved settings w (.step pid e) (w.withProc pid p' store)
  | raised {a : Action} (pid : Nat) {job : ClaimedJob} {worker : String} {began : Nat}
      {body : SendProg (Except Exn Unit)} {exc : Exn} (hp : w.procs.get pid = some (.exec job worker began body))
      (hwhy : Raises pid a body exc) : Moved settings w a (w.raised pid job worker began exc)
  | lost (pid : Nat) {stale : List ClaimedJob} {began : Nat} {body : SendProg (List (ClaimedJob × Recovery))}
      (hp : w.procs.get pid = some (.sweep stale began body)) :
    Moved settings w (.lose pid) (w.withProc pid (.adrift body) w.store)
  | aborted (pid : Nat) (e : Env) {p : Proc} (hp : w.procs.get pid = some p) (hends : p.aborts = true) :
    Moved settings w (.step pid e) (w.without pid w.store.jobs)
  | executed (pid : Nat) (trace : String) (draw : Draw) {job : ClaimedJob} {worker : String} {began : Nat}
      {r : Except Exn Unit} (hp : w.procs.get pid = some (.exec job worker began (.ret r)))
      (hfree : w.lockedBySweep job.id = false) :
    Moved settings w (.finish pid trace draw)
      (w.without pid ((finishJob w.store job worker began trace draw r).getD w.store.jobs))
  | recovered (pid : Nat) (trace : String) (draw : Draw) {stale : List ClaimedJob} {began : Nat}
      {decisions : List (ClaimedJob × Recovery)} (hp : w.procs.get pid = some (.sweep stale began (.ret decisions))) :
    Moved settings w (.finish pid trace draw) (w.without pid (Queue.applyRecoveries began w.store.jobs decisions))
  | answered (pid : Nat) (trace : String) (draw : Draw) (hp : w.procs.get pid = some (.request (.ret ()))) :
    Moved settings w (.finish pid trace draw) (w.without pid w.store.jobs)
  | crashed (pid : Nat) {p : Proc} (hp : w.procs.get pid = some p) :
    Moved settings w (.crash pid) (w.without pid w.store.jobs)

theorem Store.outside_eq {w w' : Store} {a : Action} (h : w.outside settings a = some w') :
    w'.sends = w.sends ∧ w'.drafts = w.drafts := by
  cases a <;> simp only [Store.outside, Option.some.injEq, reduceCtorEq] at h <;> subst h <;> exact ⟨rfl, rfl⟩

theorem refusedAt_eq_true {α : Type} {body : SendProg α} (h : refusedAt body = true) :
    ∃ id u k, body = .op (.write id u) k ∧ u.storable = false := by
  unfold refusedAt at h
  split at h
  · rename_i id u k
    exact ⟨id, u, k, rfl, by rwa [Bool.not_eq_true'] at h⟩
  · cases h

theorem stepProc_cases {world t : World} {pid : Nat} {e : Env} {p : Proc} (hp : world.procs.get pid = some p)
    (h : world.stepProc settings pid e p = some t) : Moved settings world (.step pid e) t := by
  have ran {α : Type} {make : SendProg α → Proc} {body : SendProg α} (hmake : p = make body)
      (hnext : ∀ (o : Op) k (x : o.Ans), (make (.op o k)).Next o x (make (k x)))
      (hs : ((body.step (sem settings) e world.store).map fun r => world.withProc pid (make r.1) r.2) = some t) :
      Moved settings world (.step pid e) t := by
    rw [Option.map_eq_some_iff] at hs
    obtain ⟨⟨body', store⟩, hs, rfl⟩ := hs
    obtain ⟨o, k, x, rfl, hsem, rfl⟩ := Prog.step_eq_some hs
    exact .ran pid e (hmake ▸ hp) (hnext o k x) hsem
  unfold World.stepProc at h
  cases p with
  | exec job worker began body =>
    dsimp only at h
    by_cases hr : refusedAt body = true
    · rw [if_pos hr] at h
      obtain rfl := Option.some.inj h
      obtain ⟨id, u, k, rfl, hu⟩ := refusedAt_eq_true hr
      exact .raised pid hp (.refused e id u k hu)
    · rw [if_neg hr] at h
      exact ran rfl (.exec job worker began) h
  | sweep stale began body =>
    dsimp only at h
    by_cases hr : refusedAt body = true
    · rw [if_pos hr] at h
      obtain rfl := Option.some.inj h
      exact .aborted pid e hp hr
    · rw [if_neg hr] at h
      exact ran rfl (.sweep stale began) h
  | adrift body =>
    dsimp only at h
    by_cases hr : (refusedAt body || ownsNext body) = true
    · rw [if_pos hr] at h
      obtain rfl := Option.some.inj h
      exact .aborted pid e hp hr
    · rw [if_neg hr] at h
      exact ran rfl .adrift h
  | request body => exact ran rfl .request h

/-- **Every step is one of these moves.** -/
theorem moved_of_step {a : Action} {w t : World} (h : World.step settings w a = some t) : Moved settings w a t := by
  cases a with
  | call r =>
    obtain rfl := Option.some.inj h
    exact .called r
  | claim worker limit locked =>
    obtain rfl := Option.some.inj h
    exact .claimed worker limit locked
  | sweep limit locked =>
    simp only [World.step] at h
    split at h
    · cases h
    · rename_i hidle
      obtain rfl := Option.some.inj h
      exact .swept limit locked (Bool.eq_false_iff.2 hidle) _ rfl
  | step pid e =>
    simp only [World.step, Option.bind_eq_some_iff] at h
    obtain ⟨p, hp, h⟩ := h
    exact stepProc_cases hp h
  | timeout pid =>
    simp only [World.step, Option.bind_eq_some_iff] at h
    obtain ⟨p, hp, h⟩ := h
    unfold World.timeoutProc at h
    split at h
    · obtain rfl := Option.some.inj h
      exact .raised pid hp (.timedOut _ _)
    · cases h
  | finish pid trace draw =>
    simp only [World.step, Option.bind_eq_some_iff] at h
    obtain ⟨p, hp, h⟩ := h
    unfold World.finishProc at h
    split at h
    · split at h
      · cases h
      · rename_i hfree
        obtain rfl := Option.some.inj h
        exact .executed pid trace draw hp (Bool.eq_false_iff.2 hfree)
    · obtain rfl := Option.some.inj h
      exact .recovered pid trace draw hp
    · obtain rfl := Option.some.inj h
      exact .answered pid trace draw hp
    · cases h
  | lose pid =>
    simp only [World.step, Option.bind_eq_some_iff] at h
    obtain ⟨p, hp, h⟩ := h
    unfold World.loseProc at h
    split at h
    · obtain rfl := Option.some.inj h
      exact .lost pid hp
    · obtain rfl := Option.some.inj h
      exact .raised pid hp .lost
    · cases h
  | crash pid =>
    simp only [World.step, Option.map_eq_some_iff] at h
    obtain ⟨p, hp, rfl⟩ := h
    exact .crashed pid hp
  | _ =>
    simp only [World.step, Option.map_eq_some_iff] at h
    obtain ⟨store, hs, rfl⟩ := h
    exact .outside _ store hs

theorem spawn_get {worker : String} {now : Nat} : ∀ {l : List ClaimedJob} {procs : Table Proc} {pid : Nat} {p : Proc},
    (World.spawn worker now procs l).get pid = some p →
      procs.get pid = some p ∨ ∃ job ∈ l, p = .exec job worker now (handler job)
  | [], _, _, _, h => .inl h
  | job :: l, procs, pid, p, h => by
    rw [World.spawn] at h
    rcases spawn_get h with h | ⟨job', hm, rfl⟩
    · rcases Table.get_insert_cases h with ⟨-, rfl⟩ | ⟨-, h⟩
      · exact .inr ⟨job, List.mem_cons_self, rfl⟩
      · exact .inl h
    · exact .inr ⟨job', List.mem_cons_of_mem _ hm, rfl⟩

/-- **What a process is after a move**: one from before, one carried a step on, or one that begins. -/
inductive ProcMove (settings : Settings) (w : World) (store : Store) : Proc → Prop
  | kept {p : Proc} (pid : Nat) (hp : w.procs.get pid = some p) : ProcMove settings w store p
  | ran {p p' : Proc} {o : Op} {x : o.Ans} (pid : Nat) (e : Env) (hp : w.procs.get pid = some p) (hn : p.Next o x p')
      (hs : sem settings o e w.store = some (x, store)) : ProcMove settings w store p'
  | raised (job : ClaimedJob) (worker : String) (began : Nat) (exc : Exn) :
    ProcMove settings w store (.exec job worker began (.ret (.error exc)))
  | lost {stale : List ClaimedJob} {began : Nat} {body : SendProg (List (ClaimedJob × Recovery))} (pid : Nat)
      (hp : w.procs.get pid = some (.sweep stale began body)) : ProcMove settings w store (.adrift body)
  | called (r : Request) : ProcMove settings w store (.request r.prog)
  | claimed (job : ClaimedJob) (worker : String) :
    ProcMove settings w store (.exec job worker w.store.now (handler job))
  | swept (stale : List ClaimedJob) : ProcMove settings w store (.sweep stale w.store.now (sweepJobs stale))

/-- The process `pid` as the move begins it, or as an end to its handler or to its transaction leaves it. -/
inductive Proc.Begins (w : World) (pid : Nat) : Action → Proc → Prop
  | raised {a : Action} {job : ClaimedJob} {worker : String} {began : Nat} {body : SendProg (Except Exn Unit)} {exc : Exn}
      (hp : w.procs.get pid = some (.exec job worker began body)) (hwhy : Raises pid a body exc) :
    Begins w pid a (.exec job worker began (.ret (.error exc)))
  | lost {stale : List ClaimedJob} {began : Nat} {body : SendProg (List (ClaimedJob × Recovery))}
      (hp : w.procs.get pid = some (.sweep stale began body)) : Begins w pid (.lose pid) (.adrift body)
  | called (r : Request) (hpid : pid = w.procs.next) : Begins w pid (.call r) (.request r.prog)
  | claimed (worker : String) (limit : Nat) (locked : Nat → Bool) (job : ClaimedJob) :
    Begins w pid (.claim worker limit locked) (.exec job worker w.store.now (handler job))
  | swept (limit : Nat) (locked : Nat → Bool) (stale : List ClaimedJob) :
    Begins w pid (.sweep limit locked) (.sweep stale w.store.now (sweepJobs stale))

/-- The process of an id after a move is the one before, the one before carried a step on, or one the move begins. -/
theorem Moved.proc_cases {w t : World} {a : Action} (h : Moved settings w a t) {pid : Nat} {p : Proc}
    (hp : t.procs.get pid = some p) :
    (∃ (e : Env) (q : Proc) (o : Op) (x : o.Ans), a = .step pid e ∧ w.procs.get pid = some q ∧ q.Next o x p ∧
        sem settings o e w.store = some (x, t.store)) ∨
      w.procs.get pid = some p ∨ p.Begins w pid a := by
  have hwithout {n : Nat} (he : (w.procs.erase n).get pid = some p) : w.procs.get pid = some p := by
    rw [Table.get_erase] at he
    split at he
    · cases he
    · exact he
  cases h with
  | outside => exact .inr (.inl hp)
  | called r =>
    rcases Table.get_insert_cases hp with ⟨hpid, rfl⟩ | ⟨-, hp⟩
    · exact .inr (.inr (.called r hpid))
    · exact .inr (.inl hp)
  | claimed worker limit locked =>
    rcases spawn_get hp with hp | ⟨job, -, rfl⟩
    · exact .inr (.inl hp)
    · exact .inr (.inr (.claimed worker limit locked job))
  | swept limit locked hidle stale =>
    rcases Table.get_insert_cases hp with ⟨-, rfl⟩ | ⟨-, hp⟩
    · exact .inr (.inr (.swept limit locked stale))
    · exact .inr (.inl hp)
  | ran pid' e hp' hn hs =>
    rcases Table.get_modify_cases hp with ⟨rfl, _, -, rfl⟩ | ⟨-, hp⟩
    · exact .inl ⟨e, _, _, _, rfl, hp', hn, hs⟩
    · exact .inr (.inl hp)
  | raised pid' hp' hwhy =>
    rcases Table.get_modify_cases hp with ⟨rfl, _, -, rfl⟩ | ⟨-, hp⟩
    · exact .inr (.inr (.raised hp' hwhy))
    · exact .inr (.inl hp)
  | lost pid' hp' =>
    rcases Table.get_modify_cases hp with ⟨rfl, _, -, rfl⟩ | ⟨-, hp⟩
    · exact .inr (.inr (.lost hp'))
    · exact .inr (.inl hp)
  | executed | recovered | answered | crashed | aborted => exact .inr (.inl (hwithout hp))

theorem Moved.proc {w t : World} {a : Action} (h : Moved settings w a t) {pid : Nat} {p : Proc}
    (hp : t.procs.get pid = some p) : ProcMove settings w t.store p := by
  rcases h.proc_cases hp with ⟨e, q, o, x, -, hq, hn, hs⟩ | hp | hbegins
  · exact .ran pid e hq hn hs
  · exact .kept pid hp
  · cases hbegins with
    | raised => exact .raised _ _ _ _
    | lost hsweep => exact .lost pid hsweep
    | called r => exact .called r
    | claimed worker limit locked job => exact .claimed job worker
    | swept limit locked stale => exact .swept stale

/-- **What a move does to the store**: one operation's change, one from outside, or the jobs alone. -/
theorem Moved.store {w t : World} {a : Action} (h : Moved settings w a t) :
    (∃ pid p p' o x e, w.procs.get pid = some p ∧ p.Next o x p' ∧ sem settings o e w.store = some (x, t.store) ∧
        a = .step pid e) ∨
      w.store.outside settings a = some t.store ∨ ∃ jobs, t.store = { w.store with jobs := jobs } := by
  cases h with
  | outside _ store h => exact .inr (.inl h)
  | ran pid e hp hn hs => exact .inl ⟨pid, _, _, _, _, e, hp, hn, hs, rfl⟩
  | called | swept | raised | lost => exact .inr (.inr ⟨w.store.jobs, rfl⟩)
  | _ => exact .inr (.inr ⟨_, rfl⟩)

end Send
end SafeSend
