import SafeSend.Send.Claim
import SafeSend.Send.WellFormed
/-!
# The claim elects one winner

However the statements, commits and rollbacks of the claiming transactions interleave.  A losing insert answers only once
the conflicting row is committed, nothing deletes it, and the read that follows takes a new snapshot: so it is found, and
the loop never comes to its second turn.
-/
namespace SafeSend
namespace Send
namespace Claim

open Lib
open Lib.Prog (Safe Stable Contract)

/-- The two have one `(user_id, idempotency_key)`. -/
def Keyed (a : ClaimArgs) (r : SendRow) : Prop := r.userId = a.userId ∧ r.idempotencyKey = a.idempotencyKey

def keyOf (r : SendRow) : Nat × String := (r.userId, r.idempotencyKey)

/-- No job names the send. -/
def Unnamed (n : Nat) (s : Db) : Prop := ∀ m v, s.jobs.get m = some v → v.row.dedupeKey ≠ some (sendKey n)

def Owns (tx n : Nat) (r : SendRow) (s : Db) : Prop := s.sends.get n = some ⟨r, some tx⟩

def Committed (n : Nat) (r : SendRow) (s : Db) : Prop := s.sends.get n = some ⟨r, none⟩

structure Sound (s : Db) : Prop where
  unique : Versions.Unique keyOf s.sends
  named : ∀ m v n, s.jobs.get m = some v → v.row.dedupeKey = some (sendKey n) → n < s.sends.next

/-- What others leave of a transaction's. -/
structure Spares (tx : Nat) (s t : Db) : Prop where
  committed : ∀ n r, Committed n r s → ∃ r', Committed n r' t ∧ r'.claim = r.claim
  own : ∀ n r, Owns tx n r t ↔ Owns tx n r s
  jobs : ∀ m j, s.jobs.get m = some ⟨j, some tx⟩ → t.jobs.get m = some ⟨j, some tx⟩
  unnamed : ∀ n r, Owns tx n r s → Unnamed n s → Unnamed n t
  claimed : t.claimed tx = s.claimed tx

theorem Spares.refl (tx : Nat) (s : Db) : Spares tx s s :=
  ⟨fun _ r h => ⟨r, h, rfl⟩, fun _ _ => .rfl, fun _ _ h => h, fun _ _ _ h => h, rfl⟩

theorem Spares.trans {tx : Nat} {s t u : Db} (h : Spares tx s t) (h' : Spares tx t u) : Spares tx s u where
  committed n r hr := by
    obtain ⟨r', hr', hc⟩ := h.committed n r hr
    obtain ⟨r'', hr'', hc'⟩ := h'.committed n r' hr'
    exact ⟨r'', hr'', hc'.trans hc⟩
  own n r := (h'.own n r).trans (h.own n r)
  jobs m j hj := h'.jobs m j (h.jobs m j hj)
  unnamed n r ho hn := h'.unnamed n r ((h.own n r).2 ho) (h.unnamed n r ho hn)
  claimed := h'.claimed.trans h.claimed

/-- What `claim_send` tells its caller, as it returns. -/
def Truthful (tx : Nat) (a : ClaimArgs) (s : Db) : Except ClaimContention ClaimResult → Prop
  | .error _ => False
  | .ok ⟨n, row, true⟩ => Owns tx n row s ∧ Keyed a row
  | .ok ⟨n, row, false⟩ => (∃ q, Committed n q s ∧ q.claim = row.claim) ∧ Keyed a row

/-- A job is enqueued for the transaction's own send, and what is told is true. -/
def Owed (tx : Nat) (s : Db) : Stmt → Prop
  | .enqueue a => ∃ n row r, Owns tx n r s ∧ a = Store.sendJob n row
  | .claimed a r => Truthful tx a s r
  | _ => True

/-- A transaction among others. -/
def claiming (settings : Settings) (tx began : Nat) : Contract Stmt Stmt.Ans Env Db where
  sem := sem settings tx began
  ok _ _ _ := True
  inv := Sound
  rely := Spares tx
  guar o s _ := Owed tx s o
  refl := Spares.refl tx
  trans := Spares.trans

/-! ## What a statement does -/

inductive Ran (settings : Settings) (tx began : Nat) (s : Db) : (o : Stmt) → o.Ans → Db → Prop
  | draft (draftId userId : Nat) (r : Except GateExn DraftView) : Ran settings tx began s (.getDraft draftId userId) r s
  | selected (userId : Nat) (key : String) :
    Ran settings tx began s (.selectSend userId key) (s.sends.select tx (holds userId key)) s
  | refused (a : ClaimArgs) {n : Nat} {v : Version SendRow} (hv : s.sends.get n = some v)
      (hw : v.writer = none ∨ v.writer = some tx) (hk : Keyed a v.row) : Ran settings tx began s (.insertSend a) none s
  | inserted (a : ClaimArgs) (hfree : ∀ n v, s.sends.get n = some v → ¬ Keyed a v.row) :
    Ran settings tx began s (.insertSend a) (some (s.sends.next, Store.newSend began a))
      { s with sends := Table.insert s.sends ⟨Store.newSend began a, some tx⟩ }
  | duplicate (a : Queue.EnqueueArgs) {m : Nat} {v : Version Queue.JobRow} (hv : s.jobs.get m = some v)
      (hd : a.dedupeKey.isSome) (hk : v.row.dedupeKey = a.dedupeKey) : Ran settings tx began s (.enqueue a) none s
  | enqueued (a : Queue.EnqueueArgs) :
    Ran settings tx began s (.enqueue a) (some s.jobs.next)
      { s with jobs := Table.insert s.jobs ⟨Queue.newRow settings began a, some tx⟩ }
  | clock : Ran settings tx began s .clock s.now s
  | told (a : ClaimArgs) (r : Except ClaimContention ClaimResult) :
    Ran settings tx began s (.claimed a r) () { s with claimed := fun t => if t = tx then some (a, r) else s.claimed t }

variable {settings : Settings} {tx tx' began : Nat} {s t : Db} {o : Stmt} {e : Env} {x : o.Ans}

theorem holds_iff {a : ClaimArgs} {r : SendRow} : holds a.userId a.idempotencyKey r = true ↔ Keyed a r := by
  simp only [holds, Bool.and_eq_true, beq_iff_eq, Keyed]

/-- **Every statement does one of these.** -/
theorem ran_of_sem (h : sem settings tx began o e s = some (x, t)) : Ran settings tx began s o x t := by
  unfold sem at h
  split at h
  · obtain ⟨rfl, rfl⟩ := Prod.mk.inj (Option.some.inj h); exact .draft _ _ _
  · obtain ⟨rfl, rfl⟩ := Prod.mk.inj (Option.some.inj h); exact .selected _ _
  · rename_i a
    rw [Option.map_eq_some_iff] at h
    obtain ⟨⟨id, sends⟩, hi, he⟩ := h
    obtain ⟨rfl, rfl⟩ := Prod.mk.inj he
    rcases Versions.insertUnless_cases hi with ⟨rfl, rfl, n, v, hv, hw, hk⟩ | ⟨rfl, rfl, hfree⟩
    · exact .refused a hv hw (holds_iff.1 hk)
    · exact .inserted a fun n v hv hk => absurd (holds_iff.2 hk) (Bool.eq_false_iff.1 (hfree n v hv))
  · rename_i a
    rw [Option.map_eq_some_iff] at h
    obtain ⟨⟨id, jobs⟩, hi, he⟩ := h
    obtain ⟨rfl, rfl⟩ := Prod.mk.inj he
    rcases Versions.insertUnless_cases hi with ⟨rfl, rfl, n, v, hv, -, hk⟩ | ⟨rfl, rfl, -⟩
    · simp only [duplicates, Bool.and_eq_true, beq_iff_eq] at hk
      exact .duplicate a hv hk.1.1 hk.1.2
    · exact .enqueued a
  · obtain ⟨rfl, rfl⟩ := Prod.mk.inj (Option.some.inj h); exact .clock
  · obtain ⟨rfl, rfl⟩ := Prod.mk.inj (Option.some.inj h); exact .told _ _
  · cases h

theorem keyed_newSend (a : ClaimArgs) (began : Nat) : Keyed a (Store.newSend began a) := ⟨rfl, rfl⟩

theorem Sound.ran (h : Sound s) (hr : Ran settings tx began s o x t) (ho : Owed tx s o) : Sound t := by
  cases hr with
  | inserted a hfree =>
    refine ⟨h.unique.insert fun n v hv hk => hfree n v hv ?_, fun m v n hv hk => Nat.lt_succ_of_lt (h.named m v n hv hk)⟩
    simp only [keyOf, Store.newSend, Prod.mk.injEq] at hk
    exact hk
  | enqueued a =>
    refine ⟨h.unique, fun m v n hv hk => ?_⟩
    rcases Table.get_insert_cases hv with ⟨-, rfl⟩ | ⟨-, hv⟩
    · obtain ⟨n', row, r, hown, rfl⟩ := ho
      obtain rfl : n' = n := sendKey_inj (Option.some.inj hk)
      exact Table.lt_next_of_get hown
    · exact h.named m v n hv hk
  | told => exact ⟨h.unique, h.named⟩
  | _ => exact h

/-- **A statement spares every other transaction.** -/
theorem Ran.spares (hr : Ran settings tx began s o x t) (ho : Owed tx s o) (hne : tx' ≠ tx) : Spares tx' s t := by
  cases hr with
  | inserted a hfree =>
    refine ⟨fun n r h => ⟨r, Table.get_insert_of_get _ h, rfl⟩, fun n r => ⟨fun h => ?_, fun h => Table.get_insert_of_get _ h⟩,
      fun _ _ h => h, fun _ _ _ h => h, rfl⟩
    rcases Table.get_insert_cases h with ⟨-, he⟩ | ⟨-, h⟩
    · exact absurd (Option.some.inj (Version.mk.inj he).2) hne
    · exact h
  | enqueued a =>
    refine ⟨fun n r h => ⟨r, h, rfl⟩, fun _ _ => .rfl, fun m j h => Table.get_insert_of_get _ h,
      fun n r hown hn m v hv => ?_, rfl⟩
    rcases Table.get_insert_cases hv with ⟨-, rfl⟩ | ⟨-, hv⟩
    · obtain ⟨n', row, r', hown', rfl⟩ := ho
      intro hk
      obtain rfl : n' = n := sendKey_inj (Option.some.inj hk)
      have hw := congrArg Version.writer (Option.some.inj (hown'.symm.trans hown))
      exact hne (Option.some.inj hw).symm
    · exact hn m v hv
  | told a r =>
    exact ⟨fun n r h => ⟨r, h, rfl⟩, fun _ _ => .rfl, fun _ _ h => h, fun _ _ _ h => h, if_neg hne⟩
  | _ => exact .refl _ _

/-! ## The programs -/

def NoOwn (tx : Nat) (s : Db) : Prop := ∀ n r, ¬ Owns tx n r s

/-- The transaction's send: its only one, and not yet named by a job. -/
structure Won (tx : Nat) (a : ClaimArgs) (n : Nat) (row : SendRow) (s : Db) : Prop where
  owns : Owns tx n row s
  keyed : Keyed a row
  only : ∀ m r, Owns tx m r s → m = n
  unnamed : Unnamed n s

/-- The winner's send, as the loser read it. -/
def Lost (tx : Nat) (a : ClaimArgs) (n : Nat) (row : SendRow) (s : Db) : Prop :=
  NoOwn tx s ∧ (∃ q, Committed n q s ∧ q.claim = row.claim) ∧ Keyed a row

/-- What a transaction wrote, it was told it won. -/
def Settled (tx : Nat) (s : Db) : Prop :=
  ∀ n r, Owns tx n r s → ∃ a row, s.claimed tx = some (a, .ok ⟨n, row, true⟩)

/-- A job of the send that can be claimed. -/
def Runnable (n : Nat) (j : Queue.JobRow) : Prop :=
  j.kind = .send ∧ j.refId = n ∧ j.state = .ready ∧ j.attempts < j.maxAttempts

def Booked (tx : Nat) (s : Db) : Prop :=
  ∀ n r, Owns tx n r s → ∃ m j, s.jobs.get m = some ⟨j, some tx⟩ ∧ Runnable n j

/-- What a call leaves when it has returned. -/
def Call.post (tx : Nat) : Call → Db → Prop
  | .claimSend _, s => Settled tx s
  | .sendDraft _ _ _, s => Settled tx s ∧ Booked tx s

section
variable {a : ClaimArgs} {n : Nat} {row : SendRow}

theorem stable_noOwn : Stable (claiming settings tx began) (NoOwn tx) :=
  fun _ _ h hr _ n r ho => h n r ((hr.own n r).1 ho)

theorem stable_won : Stable (claiming settings tx began) (Won tx a n row) := fun _ _ h hr _ =>
  ⟨(hr.own n row).2 h.owns, h.keyed, fun m r ho => h.only m r ((hr.own m r).1 ho), hr.unnamed n row h.owns h.unnamed⟩

theorem stable_lost : Stable (claiming settings tx began) (Lost tx a n row) := by
  rintro s t ⟨hno, ⟨q, hq, hc⟩, hk⟩ hr hi
  obtain ⟨q', hq', hc'⟩ := hr.committed n q hq
  exact ⟨stable_noOwn s t hno hr hi, ⟨q', hq', hc'.trans hc⟩, hk⟩

theorem stable_claimed (v : Option (ClaimArgs × Except ClaimContention ClaimResult)) :
    Stable (claiming settings tx began) fun s => s.claimed tx = v := fun _ _ h hr _ => hr.claimed.trans h

theorem stable_settled : Stable (claiming settings tx began) (Settled tx) := by
  intro s t h hr _ n r ho
  rw [hr.claimed]
  exact h n r ((hr.own n r).1 ho)

theorem stable_booked : Stable (claiming settings tx began) (Booked tx) := by
  intro s t h hr _ n r ho
  obtain ⟨m, j, hj, hrun⟩ := h n r ((hr.own n r).1 ho)
  exact ⟨m, j, hr.jobs m j hj, hrun⟩

theorem NoOwn.settled (h : NoOwn tx s) : Settled tx s := fun n r ho => absurd ho (h n r)

theorem NoOwn.booked (h : NoOwn tx s) : Booked tx s := fun n r ho => absurd ho (h n r)

variable {α : Type} {post : α → Db → Prop}

/-- **One statement**, from a stable assertion that owes for it. -/
theorem Safe.statement {P : Db → Prop} (hP : Stable (claiming settings tx began) P) {f : o.Ans → TxProg α} (h : P s)
    (howed : ∀ t, P t → Owed tx t o)
    (hk : ∀ t x u, P t → Sound t → Ran settings tx began t o x u → Safe (claiming settings tx began) post (f x) u) :
    Safe (claiming settings tx began) post (perform o >>= f) s :=
  Safe.perform hP h fun t _ x u ht hi _ hs =>
    have hr := ran_of_sem hs
    ⟨hi.ran hr (howed t ht), howed t ht, hk t x u ht hi hr⟩

/-- **The loop answers on its first turn**: the send it inserted, or the committed one that refused it. -/
theorem safe_claimLoop {k : Except ClaimContention ClaimResult → TxProg α} (turns : Nat) (h : NoOwn tx s)
    (hwon : ∀ t n row, Won tx a n row t → Safe (claiming settings tx began) post (k (.ok ⟨n, row, true⟩)) t)
    (hlost : ∀ t n row, Lost tx a n row t → Safe (claiming settings tx began) post (k (.ok ⟨n, row, false⟩)) t) :
    Safe (claiming settings tx began) post (claimLoop a (turns + 1) >>= k) s := by
  unfold claimLoop
  rw [Prog.bind_assoc]
  refine Safe.statement stable_noOwn h (fun _ _ => trivial) fun t x u ht hi hr => ?_
  cases hr with
  | inserted _ hfree =>
    refine hwon _ _ _ ⟨Table.get_insert_self _ _, keyed_newSend a began, fun m r ho => ?_, fun m v hv hk => ?_⟩
    · rcases Table.get_insert_cases ho with ⟨hm, -⟩ | ⟨-, ho⟩
      · exact hm
      · exact absurd ho (ht m r)
    · exact Nat.lt_irrefl _ (hi.named m v _ hv hk)
  | @refused _ n v hv hw hk =>
    -- The row that refused the insert is not the transaction's own, so it is committed.
    have hcommitted : Committed n v.row t := by
      rcases hw with hw | hw
      · rw [Committed, hv, ← hw]
      · exact absurd (show Owns tx n v.row t by rw [Owns, hv, ← hw]) (ht n v.row)
    have hP : Stable (claiming settings tx began) fun s => NoOwn tx s ∧ ∃ q, Committed n q s ∧ q.claim = v.row.claim := by
      rintro s t ⟨hno, q, hq, hc⟩ hr hi
      obtain ⟨q', hq', hc'⟩ := hr.committed n q hq
      exact ⟨stable_noOwn s t hno hr hi, q', hq', hc'.trans hc⟩
    show Safe _ _ ((perform (.selectSend a.userId a.idempotencyKey) >>= _) >>= k) t
    rw [Prog.bind_assoc]
    refine Safe.statement hP ⟨ht, v.row, hcommitted, rfl⟩ (fun _ _ => trivial) fun t' _ _ ht' _ hr' => ?_
    cases hr' with
    | selected =>
      obtain ⟨hno, q, hq, hc⟩ := ht'
      have hkq : Keyed a q := by
        simp only [SendRow.claim, ClaimArgs.mk.injEq] at hc
        exact ⟨hc.1.trans hk.1, hc.2.2.2.2.1.trans hk.2⟩
      cases hx : t'.sends.select tx (holds a.userId a.idempotencyKey) with
      | none => exact absurd hx (Versions.select_ne_none hq (.inl rfl) (holds_iff.2 hkq))
      | some found =>
        obtain ⟨m, row⟩ := found
        obtain ⟨w, hm, hw, hkm⟩ := Versions.select_eq_some hx
        refine hlost t' m row ⟨hno, ⟨row, ?_, rfl⟩, holds_iff.1 hkm⟩
        rcases hw with rfl | rfl
        · exact hm
        · exact absurd hm (hno m row)

/-- **`claim_send` tells the truth, and never contends.** -/
theorem safe_claimSend {f : Except ClaimContention ClaimResult → TxProg α} (h : NoOwn tx s)
    (hwon : ∀ t n row, Won tx a n row t → t.claimed tx = some (a, .ok ⟨n, row, true⟩) →
      Safe (claiming settings tx began) post (f (.ok ⟨n, row, true⟩)) t)
    (hlost : ∀ t n row, NoOwn tx t → Safe (claiming settings tx began) post (f (.ok ⟨n, row, false⟩)) t) :
    Safe (claiming settings tx began) post (claimSend a >>= f) s := by
  unfold claimSend
  rw [Prog.bind_assoc]
  refine safe_claimLoop 2 h (fun t n row hw => ?_) fun t n row hl => ?_
  · refine Safe.statement stable_won hw (fun _ hw => ⟨hw.owns, hw.keyed⟩) fun t x u hw _ hr => ?_
    cases hr with
    | told => exact hwon _ n row ⟨hw.owns, hw.keyed, hw.only, hw.unnamed⟩ (if_pos rfl)
  · refine Safe.statement stable_lost hl (fun _ hl => ⟨hl.2.1, hl.2.2⟩) fun t x u hl _ hr => ?_
    cases hr with
    | told => exact hlost _ n row hl.1

/-- What the winner is left with. -/
theorem Won.settled (h : Won tx a n row s) (hc : s.claimed tx = some (a, .ok ⟨n, row, true⟩)) : Settled tx s := by
  intro m r ho
  obtain rfl := h.only m r ho
  exact ⟨a, row, hc⟩

theorem safe_replay (id : Nat) (row : SendRow) (confirmed : String) (h : NoOwn tx s) :
    Safe (claiming settings tx began) (fun _ => NoOwn tx) (replay id row confirmed) s := by
  unfold replay
  split
  · exact Safe.ret stable_noOwn h
  · exact Safe.statement stable_noOwn h (fun _ _ => trivial) fun t x u ht _ hr => by
      cases hr
      exact Safe.ret stable_noOwn ht

/-- The winner enqueues the job of its own send. -/
theorem safe_enqueue {f : Option Nat → TxProg α} (hw : Won tx a n row s)
    (hc : s.claimed tx = some (a, .ok ⟨n, row, true⟩))
    (hk : ∀ t x, Settled tx t ∧ Booked tx t → Safe (claiming settings tx began) post (f x) t) :
    Safe (claiming settings tx began) post (perform (.enqueue (Store.sendJob n row)) >>= f) s := by
  refine Safe.statement (stable_won.and (stable_claimed _)) ⟨hw, hc⟩ (fun t ht => ⟨n, row, row, ht.1.owns, rfl⟩)
    fun t x u ht _ hr => ?_
  obtain ⟨hw, hc⟩ := ht
  cases hr with
  | duplicate _ hv hd hkey => exact absurd hkey (hw.unnamed _ _ hv)
  | enqueued =>
    refine hk _ _ ⟨hw.settled hc, fun m r ho => ?_⟩
    obtain rfl := hw.only m r ho
    exact ⟨_, _, Table.get_insert_self _ _, rfl, rfl, rfl, settings.maxAttempts_pos⟩

/-- **The gate's transaction books a job for the send it won.** -/
theorem safe_sendDraft (draftId userId : Nat) (confirmedSha256 : Option String) (h : NoOwn tx s) :
    Safe (claiming settings tx began) (fun _ t => Settled tx t ∧ Booked tx t) (sendDraft draftId userId confirmedSha256) s := by
  have hpost : Stable (claiming settings tx began) fun t => Settled tx t ∧ Booked tx t := stable_settled.and stable_booked
  have hret {t : Db} (h : NoOwn tx t) (r : Except DraftExn SendOutcome) :
      Safe (claiming settings tx began) (fun _ t => Settled tx t ∧ Booked tx t) (.ret r) t :=
    Safe.ret hpost ⟨h.settled, h.booked⟩
  have hreplay {t : Db} (h : NoOwn tx t) (id : Nat) (row : SendRow) (confirmed : String) :
      Safe (claiming settings tx began) (fun _ t => Settled tx t ∧ Booked tx t) (replay id row confirmed) t :=
    Safe.mono (fun _ _ _ h => ⟨h.settled, h.booked⟩) (safe_replay id row confirmed h)
  unfold sendDraft
  refine Safe.statement stable_noOwn h (fun _ _ => trivial) fun t view u ht _ hr => ?_
  cases hr with | draft _ _ view => ?_
  cases view with
  | error e => exact hret ht _
  | ok view =>
    show Safe _ _ (if _ then _ else _) t
    split
    · exact hret ht _
    · refine Safe.statement stable_noOwn ht (fun _ _ => trivial) fun t existing u ht _ hr => ?_
      cases hr
      cases t.sends.select tx (holds userId view.draft.idempotencyKey) with
      | some found => exact hreplay ht found.1 found.2 _
      | none =>
        show Safe _ _ (if _ then _ else _) t
        split
        · exact hret ht _
        · refine safe_claimSend ht (fun t n row hw hc => ?_) fun t n row hno => hreplay hno n row _
          exact safe_enqueue hw hc fun t _ ht => Safe.ret hpost ht

theorem safe_call (call : Call) (h : NoOwn tx s) :
    Safe (claiming settings tx began) (fun _ => call.post tx) call.prog s := by
  cases call with
  | claimSend a =>
    refine safe_claimSend h (fun t n row hw hc => ?_) fun t n row hno => ?_
    · exact Safe.ret stable_settled (hw.settled hc)
    · exact Safe.ret stable_settled hno.settled
  | sendDraft draftId userId confirmed =>
    refine Safe.bind (Safe.mono (fun _ t _ ht => ?_) (safe_sendDraft draftId userId confirmed h))
    exact Safe.ret (stable_settled.and stable_booked) ht

end

/-! ## The end of a transaction, and what others update -/

/-- A table that changed without a new key, and named no more sends. -/
theorem Sound.of_source (h : Sound s) (hnext : t.sends.next = s.sends.next)
    (hs : ∀ n v, t.sends.get n = some v → ∃ u, s.sends.get n = some u ∧ keyOf u.row = keyOf v.row)
    (hj : ∀ m v, t.jobs.get m = some v → ∃ u, s.jobs.get m = some u ∧ u.row.dedupeKey = v.row.dedupeKey) : Sound t := by
  refine ⟨h.unique.of_source hs, fun m v n hv hk => ?_⟩
  obtain ⟨u, hu, he⟩ := hj m v hv
  rw [hnext]
  exact h.named m u n hu (he.trans hk)

theorem Sound.commit (h : Sound s) (tx : Nat) : Sound (s.commit tx) := by
  refine h.of_source rfl (fun n v hv => ?_) fun m v hv => ?_
  · obtain ⟨u, hu, he⟩ := Versions.commit_source hv
    exact ⟨u, hu, by rw [he]⟩
  · obtain ⟨u, hu, he⟩ := Versions.commit_source hv
    exact ⟨u, hu, by rw [he]⟩

theorem Sound.rollback (h : Sound s) (tx : Nat) : Sound (s.rollback tx) :=
  h.of_source rfl (fun _ v hv => ⟨v, (Versions.rollback_eq_some.1 hv).1, rfl⟩) fun _ v hv =>
    ⟨v, (Versions.rollback_eq_some.1 hv).1, rfl⟩

theorem spares_commit (hne : tx' ≠ tx) : Spares tx' s (s.commit tx) where
  committed n r h := ⟨r, Versions.commit_eq_some.2 (.inl ⟨h, nofun⟩), rfl⟩
  own n r := by
    refine Versions.commit_eq_some.trans ⟨fun h => ?_, fun h => .inl ⟨h, fun he => hne (Option.some.inj he)⟩⟩
    rcases h with ⟨h, -⟩ | ⟨h, -⟩
    · exact h
    · cases h
  jobs m j h := Versions.commit_eq_some.2 (.inl ⟨h, fun he => hne (Option.some.inj he)⟩)
  unnamed n r _ h m v hv := by
    obtain ⟨u, hu, he⟩ := Versions.commit_source hv
    rw [← he]
    exact h m u hu
  claimed := rfl

theorem spares_rollback (hne : tx' ≠ tx) : Spares tx' s (s.rollback tx) where
  committed _ r h := ⟨r, Versions.rollback_eq_some.2 ⟨h, nofun⟩, rfl⟩
  own _ _ := Versions.rollback_eq_some.trans ⟨fun h => h.1, fun h => ⟨h, fun he => hne (Option.some.inj he)⟩⟩
  jobs _ _ h := Versions.rollback_eq_some.2 ⟨h, fun he => hne (Option.some.inj he)⟩
  unnamed _ _ _ h m v hv := h m v (Versions.rollback_eq_some.1 hv).1
  claimed := rfl

theorem keyOf_of_claim {r q : SendRow} (h : q.claim = r.claim) : keyOf q = keyOf r := by
  simp only [SendRow.claim, ClaimArgs.mk.injEq] at h
  simp only [keyOf, h]

theorem revise_sound (h : Sound s) (n : Nat) {f : SendRow → SendRow} (hf : ∀ r, (f r).claim = r.claim) :
    Sound { s with sends := s.sends.revise n f } := by
  refine h.of_source rfl (fun m v hv => ?_) fun _ v hv => ⟨v, hv, rfl⟩
  rcases Versions.revise_eq_some hv with hv | ⟨-, r, hr, he⟩
  · exact ⟨v, hv, rfl⟩
  · exact ⟨_, hr, by rw [he, keyOf_of_claim (hf r)]⟩

theorem revise_spares (n : Nat) {f : SendRow → SendRow} (hf : ∀ r, (f r).claim = r.claim) :
    Spares tx s { s with sends := s.sends.revise n f } where
  committed m r h := by
    rcases Versions.revise_committed n h with hs | hs
    · exact ⟨r, hs, rfl⟩
    · exact ⟨f r, hs, hf r⟩
  own m r := Versions.revise_own n
  jobs _ _ h := h
  unnamed _ _ _ h := h
  claimed := rfl

theorem reviseJob_source {n m : Nat} {f : Queue.JobRow → Queue.JobRow} (hf : ∀ j, (f j).dedupeKey = j.dedupeKey)
    {v : Version Queue.JobRow} (hv : (s.jobs.revise n f).get m = some v) :
    ∃ u, s.jobs.get m = some u ∧ u.row.dedupeKey = v.row.dedupeKey := by
  rcases Versions.revise_eq_some hv with hv | ⟨-, r, hr, he⟩
  · exact ⟨v, hv, rfl⟩
  · exact ⟨_, hr, by rw [he, hf r]⟩

theorem reviseJob_spares (n : Nat) {f : Queue.JobRow → Queue.JobRow} (hf : ∀ j, (f j).dedupeKey = j.dedupeKey) :
    Spares tx s { s with jobs := s.jobs.revise n f } where
  committed m r h := ⟨r, h, rfl⟩
  own _ _ := .rfl
  jobs m j h := (Versions.revise_own n).2 h
  unnamed k r _ h m v hv := by
    obtain ⟨u, hu, he⟩ := reviseJob_source hf hv
    rw [← he]
    exact h m u hu
  claimed := rfl

/-! ## Every run -/

/-- What a transaction was told, by what became of it. -/
def Told (status : TxStatus) (tx : Nat) (a : ClaimArgs) (s : Db) : Except ClaimContention ClaimResult → Prop
  | .error _ => False
  | .ok ⟨n, row, false⟩ => (∃ q, Committed n q s ∧ q.claim = row.claim) ∧ Keyed a row
  | .ok ⟨n, row, true⟩ => Keyed a row ∧
    match status with
    | .live => Owns tx n row s
    | .committed => ∃ q, Committed n q s ∧ q.claim = row.claim
    | .rolledBack => s.sends.get n = none ∧ n < s.sends.next

/-- What the transactions know of each other. -/
structure Elected (settings : Settings) (u : State) : Prop where
  sound : Sound u.db
  live : ∀ tx T, u.txns.get tx = some T → T.status = .live →
    Safe (claiming settings tx T.began) (fun _ => T.call.post tx) T.body u.db
  writers : ∀ tx n r, Owns tx n r u.db → ∃ T, u.txns.get tx = some T ∧ T.status = .live
  told : ∀ tx a r, u.db.claimed tx = some (a, r) → ∃ T, u.txns.get tx = some T ∧ Told T.status tx a u.db r
  apart : ∀ tx tx' a a' n row row', u.db.claimed tx = some (a, .ok ⟨n, row, true⟩) →
    u.db.claimed tx' = some (a', .ok ⟨n, row', true⟩) → tx = tx'
  winner : ∀ n r, Committed n r u.db → ∃ tx T a row, u.txns.get tx = some T ∧ T.status = .committed ∧
    u.db.claimed tx = some (a, .ok ⟨n, row, true⟩) ∧ row.claim = r.claim

variable {status : TxStatus} {a : ClaimArgs} {r : Except ClaimContention ClaimResult}

/-- What was told stays true over what keeps the committed sends, the transaction's own and the numbers that are gone. -/
theorem Told.keeps (h : Told status tx a s r)
    (hcom : ∀ n r, Committed n r s → ∃ r', Committed n r' t ∧ r'.claim = r.claim)
    (hown : status = .live → ∀ n r, Owns tx n r s → Owns tx n r t)
    (hgone : ∀ n, s.sends.get n = none → n < s.sends.next → t.sends.get n = none ∧ n < t.sends.next) :
    Told status tx a t r := by
  have hcommitted {n : Nat} {row : SendRow} (h : ∃ q, Committed n q s ∧ q.claim = row.claim) :
      ∃ q, Committed n q t ∧ q.claim = row.claim := by
    obtain ⟨q, hq, hc⟩ := h
    obtain ⟨q', hq', hc'⟩ := hcom n q hq
    exact ⟨q', hq', hc'.trans hc⟩
  match r, h with
  | .ok ⟨n, row, false⟩, h => exact ⟨hcommitted h.1, h.2⟩
  | .ok ⟨n, row, true⟩, h =>
    refine ⟨h.1, ?_⟩
    cases status with
    | live => exact hown rfl n row h.2
    | committed => exact hcommitted h.2
    | rolledBack => exact hgone n h.2.1 h.2.2

/-- A send that is won twice is won by one transaction. -/
theorem Told.owner {status' : TxStatus} {a' : ClaimArgs} {n : Nat} {row row' : SendRow} (ho : Owns tx n row s)
    (h : Told status' tx' a' s (.ok ⟨n, row', true⟩)) : tx' = tx := by
  have hrow := h.2
  cases status' with
  | live => exact Option.some.inj (Version.mk.inj (Option.some.inj (Eq.trans (Eq.symm hrow) ho))).2
  | committed =>
    obtain ⟨q, hq, -⟩ := hrow
    cases (Version.mk.inj (Option.some.inj (Eq.trans (Eq.symm hq) ho))).2
  | rolledBack => cases Eq.trans (Eq.symm hrow.1) ho

variable {u v : State}

/-- What happens outside every transaction. -/
theorem Elected.outside (h : Elected settings u) {db : Db} (hsound : Sound db) (hsp : ∀ tx, Spares tx u.db db)
    (hback : ∀ n r, Committed n r db → ∃ q, Committed n q u.db ∧ r.claim = q.claim)
    (hgone : ∀ n, u.db.sends.get n = none → n < u.db.sends.next → db.sends.get n = none ∧ n < db.sends.next) :
    Elected settings { u with db := db } where
  sound := hsound
  live tx T hT hs := (h.live tx T hT hs).rely (hsp tx)
  writers tx n r ho := h.writers tx n r (((hsp tx).own n r).1 ho)
  told tx a r hc := by
    obtain ⟨T, hT, htold⟩ := h.told tx a r ((hsp tx).claimed ▸ hc)
    exact ⟨T, hT, htold.keeps (hsp tx).committed (fun _ n r => ((hsp tx).own n r).2) hgone⟩
  apart tx tx' a a' n row row' hc hc' := h.apart tx tx' a a' n row row' ((hsp tx).claimed ▸ hc) ((hsp tx').claimed ▸ hc')
  winner n r hr := by
    obtain ⟨q, hq, he⟩ := hback n r hr
    obtain ⟨tx, T, a, row, hT, hs, hc, hrow⟩ := h.winner n q hq
    exact ⟨tx, T, a, row, hT, hs, (hsp tx).claimed.trans hc, hrow.trans he.symm⟩

theorem Elected.begins (h : Elected settings u) (call : Call) :
    Elected settings { u with txns := u.txns.insert { call := call, began := u.db.now, body := call.prog } } where
  sound := h.sound
  live tx T hT hs := by
    rcases Table.get_insert_cases hT with ⟨rfl, rfl⟩ | ⟨-, hT⟩
    · refine safe_call call fun n r ho => ?_
      obtain ⟨T, hT, -⟩ := h.writers _ n r ho
      cases hT.symm.trans u.txns.get_next
    · exact h.live tx T hT hs
  writers tx n r ho := by
    obtain ⟨T, hT, hs⟩ := h.writers tx n r ho
    exact ⟨T, Table.get_insert_of_get _ hT, hs⟩
  told tx a r hc := by
    obtain ⟨T, hT, htold⟩ := h.told tx a r hc
    exact ⟨T, Table.get_insert_of_get _ hT, htold⟩
  apart := h.apart
  winner n r hr := by
    obtain ⟨tx, T, a, row, hT, hs, hc, hrow⟩ := h.winner n r hr
    exact ⟨tx, T, a, row, Table.get_insert_of_get _ hT, hs, hc, hrow⟩

/-! ### A statement -/

theorem Ran.committed_iff (hr : Ran settings tx began s o x t) (n : Nat) (r : SendRow) :
    Committed n r t ↔ Committed n r s := by
  cases hr with
  | inserted a hfree =>
    refine ⟨fun h => ?_, fun h => Table.get_insert_of_get _ h⟩
    rcases Table.get_insert_cases h with ⟨-, he⟩ | ⟨-, h⟩
    · cases (Version.mk.inj he).2
    · exact h
  | _ => exact .rfl

theorem Ran.owns (hr : Ran settings tx began s o x t) {n : Nat} {r : SendRow} (h : Owns tx' n r s) : Owns tx' n r t := by
  cases hr with
  | inserted a hfree => exact Table.get_insert_of_get _ h
  | _ => exact h

theorem Ran.gone (hr : Ran settings tx began s o x t) {n : Nat} (h : s.sends.get n = none) (hn : n < s.sends.next) :
    t.sends.get n = none ∧ n < t.sends.next := by
  cases hr with
  | inserted a hfree =>
    refine ⟨(Table.get_insert_of_ne _ _ (Nat.ne_of_lt hn)).trans h, Nat.lt_succ_of_lt hn⟩
  | _ => exact ⟨h, hn⟩

/-- What a transaction is told, it is told as `claim_send` returns. -/
theorem Ran.claimed (hr : Ran settings tx began s o x t) (ho : Owed tx s o) {a : ClaimArgs}
    {r : Except ClaimContention ClaimResult} (hc : t.claimed tx' = some (a, r)) :
    s.claimed tx' = some (a, r) ∨ tx' = tx ∧ Truthful tx a s r := by
  cases hr with
  | told a' r' =>
    by_cases hn : tx' = tx
    · have he : some (a', r') = some (a, r) := by rw [← hc]; exact (if_pos hn).symm
      obtain ⟨rfl, rfl⟩ := Prod.mk.inj (Option.some.inj he)
      exact .inr ⟨hn, ho⟩
    · exact .inl ((if_neg hn).symm.trans hc)
  | _ => exact .inl hc

theorem told_of_truthful (h : Truthful tx a s r) : Told .live tx a s r := by
  match r, h with
  | .ok ⟨n, row, false⟩, h => exact h
  | .ok ⟨n, row, true⟩, h => exact ⟨h.2, h.1⟩

theorem Elected.ran (h : Elected settings u) {T : Txn} {body : TxProg Unit} (hT : u.txns.get tx = some T)
    (hs : T.status = .live) (hstep : T.body.step (sem settings tx T.began) e u.db = some (body, t)) :
    Elected settings { db := t, txns := u.txns.modify tx fun T => { T with body := body } } := by
  obtain ⟨o, k, hp, hsound, howed, hsafe⟩ := (h.live tx T hT hs).step h.sound (fun _ _ _ => trivial) hstep
  obtain ⟨_, _, x, hp', hsem, -⟩ := Prog.step_eq_some hstep
  obtain ⟨rfl, -⟩ := Prog.op.inj (hp.symm.trans hp')
  have hr := ran_of_sem hsem
  have hget {n : Nat} {U : Txn} (hU : u.txns.get n = some U) :
      ∃ V, (u.txns.modify tx fun T => { T with body := body }).get n = some V ∧ V.status = U.status := by
    by_cases hn : n = tx
    · subst hn
      exact ⟨{ U with body := body }, by rw [Table.get_modify_self, hU]; rfl, rfl⟩
    · exact ⟨U, by rw [Table.get_modify_of_ne _ _ hn, hU], rfl⟩
  have hspare {n : Nat} (hn : n ≠ tx) : Spares n u.db t := hr.spares howed hn
  refine ⟨hsound, fun n U hU hlive => ?_, fun n m r ho => ?_, fun n a r hc => ?_, ?_, fun n r hcom => ?_⟩
  · rcases Table.get_modify_cases hU with ⟨rfl, V, hV, rfl⟩ | ⟨hn, hU⟩
    · obtain rfl := Option.some.inj (hV.symm.trans hT)
      exact hsafe
    · exact (h.live n U hU hlive).rely (hspare hn)
  · by_cases hn : n = tx
    · subst hn
      obtain ⟨V, hV, he⟩ := hget hT
      exact ⟨V, hV, he.trans hs⟩
    · obtain ⟨U, hU, hlive⟩ := h.writers n m r (((hspare hn).own m r).1 ho)
      obtain ⟨V, hV, he⟩ := hget hU
      exact ⟨V, hV, he.trans hlive⟩
  · rcases hr.claimed howed hc with hold | ⟨rfl, htrue⟩
    · obtain ⟨U, hU, htold⟩ := h.told n a r hold
      obtain ⟨V, hV, he⟩ := hget hU
      refine ⟨V, hV, ?_⟩
      rw [he]
      exact htold.keeps (fun m q hq => ⟨q, (hr.committed_iff m q).2 hq, rfl⟩) (fun _ _ _ ho => hr.owns ho) fun _ => hr.gone
    · obtain ⟨V, hV, he⟩ := hget hT
      refine ⟨V, hV, ?_⟩
      rw [he, hs]
      exact (told_of_truthful htrue).keeps (fun m q hq => ⟨q, (hr.committed_iff m q).2 hq, rfl⟩) (fun _ _ _ ho => hr.owns ho)
        fun _ => hr.gone
  · intro n n' a a' m row row' hc hc'
    rcases hr.claimed howed hc with hold | ⟨rfl, htrue⟩ <;> rcases hr.claimed howed hc' with hold' | ⟨rfl, htrue'⟩
    · exact h.apart n n' a a' m row row' hold hold'
    · obtain ⟨U, -, htold⟩ := h.told n a _ hold
      exact Told.owner htrue'.1 htold
    · obtain ⟨U, -, htold⟩ := h.told n' a' _ hold'
      exact (Told.owner htrue.1 htold).symm
    · rfl
  · obtain ⟨n', U, a, row, hU, hend, hc, hrow⟩ := h.winner n r ((hr.committed_iff n r).1 hcom)
    obtain ⟨V, hV, he⟩ := hget hU
    have hn : n' ≠ tx := by
      rintro rfl
      rw [Option.some.inj (hU.symm.trans hT), hs] at hend
      cases hend
    exact ⟨n', V, a, row, hV, he.trans hend, (hspare hn).claimed.trans hc, hrow⟩

/-! ### A commit, a rollback -/

theorem setStatus_get {status : TxStatus} {db : Db} {n : Nat} {V : Txn}
    (hV : (u.setStatus tx status db).txns.get n = some V) :
    (n = tx ∧ ∃ T, u.txns.get tx = some T ∧ V = { T with status := status }) ∨ n ≠ tx ∧ u.txns.get n = some V := by
  rcases Table.get_modify_cases hV with ⟨rfl, T, hT, he⟩ | ⟨hn, hV⟩
  · exact .inl ⟨rfl, T, hT, he⟩
  · exact .inr ⟨hn, hV⟩

theorem get_setStatus_of_ne {status : TxStatus} {db : Db} {n : Nat} (hn : n ≠ tx) :
    (u.setStatus tx status db).txns.get n = u.txns.get n := Table.get_modify_of_ne _ _ hn

theorem get_setStatus {status : TxStatus} {db : Db} {T : Txn} (hT : u.txns.get tx = some T) :
    (u.setStatus tx status db).txns.get tx = some { T with status := status } := by
  rw [State.setStatus, Table.get_modify_self, hT]
  rfl

/-- A transaction that ends, told what becomes of it, and its sends committed or gone. -/
theorem Elected.ends (h : Elected settings u) {T : Txn} (hT : u.txns.get tx = some T) (hs : T.status = .live)
    (hend : status ≠ .live) (hsound : Sound t) (hsp : ∀ n, n ≠ tx → Spares n u.db t) (hclaimed : t.claimed = u.db.claimed)
    (hown : ∀ n r, ¬ Owns tx n r t)
    (hcom : ∀ n r, Committed n r u.db → ∃ r', Committed n r' t ∧ r'.claim = r.claim)
    (hgone : ∀ n, u.db.sends.get n = none → n < u.db.sends.next → t.sends.get n = none ∧ n < t.sends.next)
    (htold : ∀ a n row, Told .live tx a u.db (.ok ⟨n, row, true⟩) → Told status tx a t (.ok ⟨n, row, true⟩))
    (hwin : ∀ n r, Committed n r t → Committed n r u.db ∨
      status = .committed ∧ ∃ a row, u.db.claimed tx = some (a, .ok ⟨n, row, true⟩) ∧ row.claim = r.claim) :
    Elected settings (u.setStatus tx status t) := by
  refine ⟨hsound, fun n V hV hlive => ?_, fun n m r ho => ?_, fun n a r hc => ?_, ?_, fun n r hr => ?_⟩
  · rcases setStatus_get hV with ⟨-, T, -, rfl⟩ | ⟨hn, hV⟩
    · exact absurd hlive hend
    · exact (h.live n V hV hlive).rely (hsp n hn)
  · by_cases hn : n = tx
    · subst hn
      exact absurd ho (hown m r)
    · rw [get_setStatus_of_ne hn]
      exact h.writers n m r (((hsp n hn).own m r).1 ho)
  · have hc' : u.db.claimed n = some (a, r) := by rw [← hclaimed]; exact hc
    obtain ⟨V, hV, ht⟩ := h.told n a r hc'
    by_cases hn : n = tx
    · subst hn
      obtain rfl := Option.some.inj (hV.symm.trans hT)
      rw [hs] at ht
      refine ⟨_, get_setStatus hV, ?_⟩
      match r, ht with
      | .ok ⟨m, row, true⟩, ht => exact htold a m row ht
      | .ok ⟨m, row, false⟩, ⟨⟨q, hq, hc⟩, hk⟩ =>
        obtain ⟨q', hq', hc'⟩ := hcom m q hq
        exact ⟨⟨q', hq', hc'.trans hc⟩, hk⟩
    · exact ⟨V, (get_setStatus_of_ne hn).trans hV, ht.keeps hcom (fun _ m r => ((hsp n hn).own m r).2) hgone⟩
  · intro n n' a a' m row row' hc hc'
    have he : (u.setStatus tx status t).db.claimed = u.db.claimed := hclaimed
    rw [he] at hc hc'
    exact h.apart n n' a a' m row row' hc hc'
  · have he : (u.setStatus tx status t).db.claimed = u.db.claimed := hclaimed
    rw [he]
    rcases hwin n r hr with hold | ⟨rfl, a, row, hc, hrow⟩
    · obtain ⟨n', V, a, row, hV, hend', hc, hrow⟩ := h.winner n r hold
      have hn : n' ≠ tx := by
        rintro rfl
        rw [Option.some.inj (hV.symm.trans hT), hs] at hend'
        cases hend'
      exact ⟨n', V, a, row, (get_setStatus_of_ne hn).trans hV, hend', hc, hrow⟩
    · exact ⟨tx, _, a, row, get_setStatus hT, rfl, hc, hrow⟩

theorem Elected.commit (h : Elected settings u) {call : Call} {began : Nat}
    (hT : u.txns.get tx = some ⟨call, began, .ret (), .live⟩) :
    Elected settings (u.setStatus tx .committed (u.db.commit tx)) := by
  have hpost : Settled tx u.db := by
    have hp := (h.live tx _ hT rfl).post h.sound
    cases call with
    | claimSend => exact hp
    | sendDraft => exact hp.1
  refine h.ends hT rfl nofun (h.sound.commit tx) (fun n hn => spares_commit hn) rfl (fun n r ho => ?_)
    (fun n r hr => ⟨r, Versions.commit_eq_some.2 (.inl ⟨hr, nofun⟩), rfl⟩) (fun n hn hlt => ⟨?_, hlt⟩) (fun a n row ht => ?_)
    fun n r hr => ?_
  · rcases Versions.commit_eq_some.1 ho with ⟨-, hne⟩ | ⟨he, -⟩
    · exact hne rfl
    · cases he
  · cases hg : (u.db.commit tx).sends.get n with
    | none => rfl
    | some v =>
      obtain ⟨w, hw, -⟩ := Versions.commit_source hg
      cases hn.symm.trans hw
  · exact ⟨ht.1, row, Versions.commit_eq_some.2 (.inr ⟨rfl, ht.2⟩), rfl⟩
  · rcases Versions.commit_eq_some.1 hr with ⟨hold, -⟩ | ⟨-, hown⟩
    · exact .inl hold
    · obtain ⟨a, row, hc⟩ := hpost n r hown
      obtain ⟨V, hV, ht⟩ := h.told tx a _ hc
      obtain rfl := Option.some.inj (hV.symm.trans hT)
      have hrow : Owns tx n row u.db := ht.2
      obtain rfl := (Version.mk.inj (Option.some.inj (Eq.trans (Eq.symm hrow) hown))).1
      exact .inr ⟨rfl, a, row, hc, rfl⟩

theorem Elected.rollback (h : Elected settings u) {T : Txn} (hT : u.txns.get tx = some T) (hs : T.status = .live) :
    Elected settings (u.setStatus tx .rolledBack (u.db.rollback tx)) := by
  refine h.ends hT hs nofun (h.sound.rollback tx) (fun n hn => spares_rollback hn) rfl (fun n r ho => ?_)
    (fun n r hr => ⟨r, Versions.rollback_eq_some.2 ⟨hr, nofun⟩, rfl⟩) (fun n hn hlt => ⟨?_, hlt⟩) (fun a n row ht => ?_)
    fun n r hr => .inl (Versions.rollback_eq_some.1 hr).1
  · exact (Versions.rollback_eq_some.1 ho).2 rfl
  · cases hg : (u.db.rollback tx).sends.get n with
    | none => rfl
    | some v => cases hn.symm.trans (Versions.rollback_eq_some.1 hg).1
  · have hrow : Owns tx n row u.db := ht.2
    refine ⟨ht.1, ?_, Table.lt_next_of_get (t := u.db.sends) hrow⟩
    cases hg : (u.db.rollback tx).sends.get n with
    | none => rfl
    | some v =>
      obtain ⟨hv, hne⟩ := Versions.rollback_eq_some.1 hg
      obtain rfl := Option.some.inj (Eq.trans (Eq.symm hrow) hv)
      exact absurd rfl hne

theorem Elected.step (h : Elected settings u) {act : Action} (hs : State.step settings u act = some v) :
    Elected settings v := by
  cases act with
  | tick elapsed =>
    obtain rfl := Option.some.inj hs
    exact h.outside ⟨h.sound.unique, h.sound.named⟩
      (fun tx => ⟨fun _ r h => ⟨r, h, rfl⟩, fun _ _ => .rfl, fun _ _ h => h, fun _ _ _ h => h, rfl⟩)
      (fun n r hr => ⟨r, hr, rfl⟩) fun _ hn hlt => ⟨hn, hlt⟩
  | begins call =>
    obtain rfl := Option.some.inj hs
    exact h.begins call
  | step tx e =>
    simp only [State.step, Option.bind_eq_some_iff] at hs
    obtain ⟨T, hT, hs⟩ := hs
    split at hs
    · rename_i hlive
      rw [Option.map_eq_some_iff] at hs
      obtain ⟨⟨body, db⟩, hstep, rfl⟩ := hs
      exact h.ran hT hlive hstep
    · cases hs
  | commit tx =>
    simp only [State.step] at hs
    split at hs
    · rename_i hT
      obtain rfl := Option.some.inj hs
      exact h.commit hT
    · cases hs
  | rollback tx =>
    simp only [State.step] at hs
    split at hs
    · rename_i hT
      obtain rfl := Option.some.inj hs
      exact h.rollback hT rfl
    · cases hs
  | revise n f hf =>
    obtain rfl := Option.some.inj hs
    refine h.outside (revise_sound h.sound n hf) (fun tx => revise_spares n hf) (fun m r hr => ?_) fun m hm hlt => ⟨?_, hlt⟩
    · rcases Versions.revise_eq_some hr with hr | ⟨-, q, hq, he⟩
      · exact ⟨r, hr, rfl⟩
      · exact ⟨q, hq, (congrArg SendRow.claim he).trans (hf q)⟩
    · cases hg : (u.db.sends.revise n f).get m with
      | none => rfl
      | some w =>
        rcases Versions.revise_eq_some hg with hw | ⟨-, q, hq, -⟩
        · cases hm.symm.trans hw
        · cases hm.symm.trans hq
  | reviseJob n f hf =>
    obtain rfl := Option.some.inj hs
    refine h.outside (h.sound.of_source rfl (fun _ v hv => ⟨v, hv, rfl⟩) fun m v hv => reviseJob_source hf hv)
      (fun tx => reviseJob_spares n hf) (fun m r hr => ⟨r, hr, rfl⟩) fun _ hm hlt => ⟨hm, hlt⟩

theorem reach_elected {ok : State → Action → Prop} (h : (claims settings).Reach ok u) : Elected settings u :=
  Machine.Reach.inv
    ⟨⟨fun _ _ _ _ hu => (nomatch hu), fun _ _ _ hv => (nomatch hv)⟩, fun _ _ hT => (nomatch hT), fun _ _ _ ho => (nomatch ho),
      fun _ _ _ hc => (nomatch hc), fun _ _ _ _ _ _ _ hc => (nomatch hc), fun _ _ hr => (nomatch hr)⟩
    (fun _ _ _ _ hi _ hs => hi.step hs) h

/-! ## What it comes to -/

/-- The transaction committed. -/
def State.ended (u : State) (tx : Nat) : Prop := ∃ T, u.txns.get tx = some T ∧ T.status = .committed

/-- A `claim_send` for the key returned `r` in the transaction. -/
def State.Returned (u : State) (userId : Nat) (key : String) (tx : Nat) (r : Except ClaimContention ClaimResult) : Prop :=
  ∃ a, u.db.claimed tx = some (a, r) ∧ a.userId = userId ∧ a.idempotencyKey = key

def State.Row (u : State) (userId : Nat) (key : String) (n : Nat) (r : SendRow) : Prop :=
  Committed n r u.db ∧ r.userId = userId ∧ r.idempotencyKey = key

structure OneWinner (settings : Settings) (u : State) (userId : Nat) (key : String) : Prop where
  /-- At most one send is ever committed for the key. -/
  unique : ∀ m n r q, u.Row userId key m r → u.Row userId key n q → m = n
  /-- It is the one of a transaction that won, and that committed. -/
  winner : ∀ n r, u.Row userId key n r →
    ∃ tx row, u.ended tx ∧ u.Returned userId key tx (.ok ⟨n, row, true⟩) ∧ row.claim = r.claim
  /-- No other transaction that won commits. -/
  alone : ∀ tx tx' n n' row row', u.ended tx → u.ended tx' → u.Returned userId key tx (.ok ⟨n, row, true⟩) →
    u.Returned userId key tx' (.ok ⟨n', row', true⟩) → tx = tx'
  /-- Who lost got the committed row. -/
  loser : ∀ tx n row, u.Returned userId key tx (.ok ⟨n, row, false⟩) →
    ∃ q, u.Row userId key n q ∧ q.claim = row.claim
  /-- Nobody contends. -/
  quiet : ∀ tx e, ¬ u.Returned userId key tx (.error e)
  /-- The gate's transaction commits the send together with a job of its own that can be claimed. -/
  booked : ∀ tx v draftId owner confirmed began,
    u.txns.get tx = some ⟨.sendDraft draftId owner confirmed, began, .ret (), .live⟩ →
    State.step settings u (.commit tx) = some v → ∀ n r, v.Row userId key n r → ¬ Committed n r u.db →
      ∃ m j, u.db.jobs.get m = some ⟨j, some tx⟩ ∧ v.db.jobs.get m = some ⟨j, none⟩ ∧ Runnable n j

theorem Elected.committed_of_told (h : Elected settings u) {tx n : Nat} {a : ClaimArgs} {row : SendRow}
    (hend : u.ended tx) (hc : u.db.claimed tx = some (a, .ok ⟨n, row, true⟩)) :
    ∃ q, Committed n q u.db ∧ q.claim = row.claim ∧ Keyed a row := by
  obtain ⟨T, hT, hs⟩ := hend
  obtain ⟨V, hV, ht⟩ := h.told tx a _ hc
  obtain rfl := Option.some.inj (hV.symm.trans hT)
  rw [hs] at ht
  obtain ⟨q, hq, he⟩ := ht.2
  exact ⟨q, hq, he, ht.1⟩

theorem keyed_of_claim {a : ClaimArgs} {r q : SendRow} (h : q.claim = r.claim) (hk : Keyed a r) : Keyed a q := by
  simp only [SendRow.claim, ClaimArgs.mk.injEq] at h
  exact ⟨h.1.trans hk.1, h.2.2.2.2.1.trans hk.2⟩

/-- **The claim elects one winner**, in every state of every run of the claiming transactions. -/
theorem claim_elects_one (h : (claims settings).Reach (fun _ _ => True) u) (userId : Nat) (key : String) :
    OneWinner settings u userId key := by
  have hi := reach_elected h
  constructor
  · rintro m n r q ⟨hr, hru, hrk⟩ ⟨hq, hqu, hqk⟩
    exact hi.sound.unique m n _ _ hr hq (Prod.ext (hru.trans hqu.symm) (hrk.trans hqk.symm))
  · rintro n r ⟨hr, hru, hrk⟩
    obtain ⟨tx, T, a, row, hT, hs, hc, he⟩ := hi.winner n r hr
    obtain ⟨V, hV, ht⟩ := hi.told tx a _ hc
    have hk : Keyed a r := keyed_of_claim he.symm ht.1
    exact ⟨tx, row, ⟨T, hT, hs⟩, ⟨a, hc, hk.1.symm.trans hru, hk.2.symm.trans hrk⟩, he⟩
  · rintro tx tx' n n' row row' hend hend' ⟨a, hc, hau, hak⟩ ⟨a', hc', hau', hak'⟩
    obtain ⟨q, hq, he, hk⟩ := hi.committed_of_told hend hc
    obtain ⟨q', hq', he', hk'⟩ := hi.committed_of_told hend' hc'
    have hkq := keyed_of_claim he hk
    have hkq' := keyed_of_claim he' hk'
    obtain rfl : n = n' := hi.sound.unique n n' _ _ hq hq' (Prod.ext
      ((hkq.1.trans hau).trans (hkq'.1.trans hau').symm) ((hkq.2.trans hak).trans (hkq'.2.trans hak').symm))
    exact hi.apart tx tx' a a' n row row' hc hc'
  · rintro tx n row ⟨a, hc, hau, hak⟩
    obtain ⟨V, hV, ⟨q, hq, he⟩, hk⟩ := hi.told tx a _ hc
    have hkq := keyed_of_claim he hk
    exact ⟨q, ⟨hq, hkq.1.trans hau, hkq.2.trans hak⟩, he⟩
  · rintro tx e ⟨a, hc, -⟩
    obtain ⟨V, -, ht⟩ := hi.told tx a _ hc
    exact ht
  · rintro tx v draftId owner confirmed began hT hs n r ⟨hr, -⟩ hnew
    simp only [State.step, hT, Option.some.injEq] at hs
    subst hs
    rcases Versions.commit_eq_some.1 hr with ⟨hold, -⟩ | ⟨-, hown⟩
    · exact absurd hold hnew
    · obtain ⟨m, j, hj, hrun⟩ := ((hi.live tx _ hT rfl).post hi.sound).2 n r hown
      exact ⟨m, j, hj, Versions.commit_eq_some.2 (.inr ⟨rfl, hj⟩), hrun⟩

def raceView : DraftView where
  draft := ⟨0, .slack, "#sales", none, "hello", "key"⟩
  confirmation := ⟨.slack, "#sales", "Acme", 0, none, "hello", "digest", ""⟩

/-- Two calls for one draft: the second inserts only once the first has committed, and replays its send. -/
def race : List Action := [
  .begins (.sendDraft 0 1 (some "digest")), .begins (.sendDraft 0 1 (some "digest")),
  .step 0 (.draft (.ok raceView)), .step 1 (.draft (.ok raceView)), .step 0 .none, .step 1 .none,
  .step 0 .none, .step 0 .none, .step 0 .none, .commit 0,
  .step 1 .none, .step 1 .none, .step 1 .none, .step 1 .none, .commit 1]

theorem claim_elects_one_race :
    ∃ u, (claims {}).exec {} race = some u ∧ (u.db.claimed 0).any (fun c => c.2.toOption.any ClaimResult.won) ∧
      (u.db.claimed 1).any (fun c => c.2.toOption.any fun r => !r.won) ∧ OneWinner {} u 1 "key" := by
  have hrun : ((claims {}).exec (claims {}).init race).any (fun u =>
      (u.db.claimed 0).any (fun c => c.2.toOption.any ClaimResult.won) &&
        (u.db.claimed 1).any fun c => c.2.toOption.any fun r => !r.won) = true := by decide +kernel
  obtain ⟨u, hu, hreach, hp⟩ := Machine.reach_of_exec hrun
  rw [Bool.and_eq_true] at hp
  exact ⟨u, hu, hp.1, hp.2, claim_elects_one hreach 1 "key"⟩

end Claim
end Send
end SafeSend
