import SafeSend.Send.Resolve
import SafeSend.Send.WellFormed
/-!
# An uncertain send is resolved once

Where every call comes to its update in time.  The update takes the send's lock while the send is in doubt, and only the
lock's holder writes a job: so until it ends nothing else is settled, and when it commits, its audit row, its resolution
and its job are committed together.
-/
namespace SafeSend
namespace Send
namespace Resolve

open Lib
open Lib.Prog (Safe Stable Contract)
open Claim (TxStatus duplicates)

/-- What is known of the store the calls find. -/
structure Base (w : Store) (sid : Nat) (r : SendRow) : Prop where
  row : w.sends.get sid = some r
  doubt : r.state = .uncertain
  /-- A dedupe key of the send's is on jobs of the send alone. -/
  keyed : ∀ m n i j, w.jobs.get m = some i → w.jobs.get n = some j → jobOf sid i = true → i.dedupeKey.isSome = true →
    j.dedupeKey = i.dedupeKey → jobOf sid j = true

/-- The transaction holds the send's lock, over the row it found in doubt. -/
def Holds (sid : Nat) (r : SendRow) (tx : Nat) (s : Db) : Prop := ∃ a, s.sends.get sid = some ⟨some r, some (tx, a)⟩

/-- A committed audit row that was not there before. -/
def Audit (w : Store) (s : Db) (n : Nat) (row : ResolutionRow) : Prop :=
  w.resolutions.next ≤ n ∧ ∃ v, s.resolutions.get n = some v ∧ v.committed = some row

/-- Nothing is settled yet. -/
structure Open (w : Store) (sid : Nat) (r : SendRow) (s : Db) : Prop where
  row : ∃ own, s.sends.get sid = some ⟨some r, own⟩
  audits : ∀ n row, ¬ Audit w s n row
  jobs : ∀ n, (s.jobs.get n).bind Slot.committed = w.jobs.get n

/-- The send is settled, as `d` does. -/
structure Closed (w : Store) (sid : Nat) (r : SendRow) (d : Resolution) (s : Db) : Prop where
  row : ∃ began, s.sends.get sid = some ⟨some (resolvedRow began d r), none⟩
  audit : ∃ n row, Audit w s n row ∧ row.sendId = sid ∧ row.resolution = d
  only : ∀ m n p q, Audit w s m p → Audit w s n q → m = n
  job : (s.liveJobs sid).card ≤ 1

structure Sound (w : Store) (sid : Nat) (r : SendRow) (s : Db) : Prop where
  phase : Open w sid r s ∨ ∃ d, Closed w sid r d s
  /-- Only the send's holder has written a job. -/
  jobs : ∀ n v tx, s.jobs.get n = some v → v.heldBy tx = true → Holds sid r tx s
  grown : w.resolutions.next ≤ s.resolutions.next
  older : ∀ n, n < w.resolutions.next → s.resolutions.get n = (Slots.ofTable w.resolutions).get n

/-- What others leave of a transaction's. -/
structure Spares (w : Store) (sid : Nat) (r : SendRow) (tx : Nat) (s t : Db) : Prop where
  sends : Slots.Keeps tx s.sends t.sends
  resolutions : Slots.Keeps tx s.resolutions t.resolutions
  jobs : Slots.Keeps tx s.jobs t.jobs
  still : Holds sid r tx s → ∀ n, t.jobs.get n = s.jobs.get n
  closed : ∀ d, Closed w sid r d s → Closed w sid r d t

variable {w : Store} {sid : Nat} {r : SendRow} {tx tx' began : Nat} {s t u : Db} {d : Resolution} {settings : Settings}

theorem Holds.keeps (h : Holds sid r tx s) (hk : Slots.Keeps tx s.sends t.sends) : Holds sid r tx t := by
  obtain ⟨a, ha⟩ := h
  exact ⟨a, (hk sid _ (Slot.heldBy_iff.2 ⟨a, rfl⟩)).2 ha⟩

theorem Holds.inj (h : Holds sid r tx s) (h' : Holds sid r tx' s) : tx = tx' := by
  obtain ⟨a, ha⟩ := h
  obtain ⟨b, hb⟩ := h'
  obtain he := Option.some.inj (ha.symm.trans hb)
  exact Slot.heldBy_inj (Slot.heldBy_iff.2 ⟨a, rfl⟩) (Slot.heldBy_iff.2 ⟨b, congrArg Slot.own he⟩)

theorem Spares.refl (w : Store) (sid : Nat) (r : SendRow) (tx : Nat) (s : Db) : Spares w sid r tx s s :=
  ⟨.refl _ _, .refl _ _, .refl _ _, fun _ _ => rfl, fun _ h => h⟩

theorem Spares.trans (h : Spares w sid r tx s t) (h' : Spares w sid r tx t u) : Spares w sid r tx s u where
  sends := h.sends.trans h'.sends
  resolutions := h.resolutions.trans h'.resolutions
  jobs := h.jobs.trans h'.jobs
  still hs n := (h'.still (hs.keeps h.sends) n).trans (h.still hs n)
  closed d hs := h'.closed d (h.closed d hs)

/-- A transaction among others, each of which comes to its update in time. -/
def settling (settings : Settings) (w : Store) (sid : Nat) (r : SendRow) (tx began : Nat) :
    Contract Stmt Stmt.Ans Unit Db where
  sem := sem settings tx began
  ok o _ s := inTime s tx o = true
  inv := Sound w sid r
  rely := Spares w sid r tx
  guar _ s t := (∀ tx', tx' ≠ tx → Spares w sid r tx' s t) ∧ ∀ d, Closed w sid r d t → Closed w sid r d s
  refl := Spares.refl w sid r tx
  trans := Spares.trans

/-! ## The phases -/

theorem state_resolvedRow (now : Nat) (d : Resolution) (r : SendRow) : (resolvedRow now d r).state ≠ .uncertain := by
  cases d <;> exact SendState.noConfusion

theorem userId_resolvedRow (now : Nat) (d : Resolution) (r : SendRow) : (resolvedRow now d r).userId = r.userId := by
  cases d <;> rfl

/-- What is not settled is not settled either way. -/
theorem Open.not_closed (hb : Base w sid r) (h : Open w sid r s) : ¬ Closed w sid r d s := by
  intro hc
  obtain ⟨own, ho⟩ := h.row
  obtain ⟨began, hr⟩ := hc.row
  rw [ho, Option.some.injEq, Slot.mk.injEq, Option.some.injEq] at hr
  refine state_resolvedRow began d r ?_
  rw [← hr.1]
  exact hb.doubt

theorem Holds.open (hs : Sound w sid r s) (h : Holds sid r tx s) : Open w sid r s := by
  obtain ⟨a, ha⟩ := h
  rcases hs.phase with ho | ⟨d, hc⟩
  · exact ho
  · obtain ⟨began, hr⟩ := hc.row
    rw [ha, Option.some.injEq, Slot.mk.injEq] at hr
    cases hr.2

/-- The send's row, as committed. -/
theorem Sound.committed (h : Sound w sid r s) : ∃ v q, s.sends.get sid = some v ∧ v.committed = some q ∧
    q.userId = r.userId := by
  rcases h.phase with ho | ⟨d, hc⟩
  · obtain ⟨own, hr⟩ := ho.row
    exact ⟨_, _, hr, rfl, rfl⟩
  · obtain ⟨began, hr⟩ := hc.row
    exact ⟨_, _, hr, rfl, userId_resolvedRow began d r⟩

theorem mem_liveJobs {n : Nat} : n ∈ s.liveJobs sid ↔
    ∃ v j, s.jobs.get n = some v ∧ v.committed = some j ∧ jobOf sid j = true ∧ j.live = true := by
  unfold Db.liveJobs
  rw [Table.mem_hits]
  constructor
  · rintro ⟨v, hv, hany⟩
    obtain ⟨j, hj, hlive⟩ := (Option.any_eq_true _ _).1 hany
    rw [Bool.and_eq_true] at hlive
    exact ⟨v, j, hv, hj, hlive⟩
  · rintro ⟨v, j, hv, hj, hof, hlive⟩
    exact ⟨v, hv, (Option.any_eq_true _ _).2 ⟨j, hj, by rw [hof, hlive]; rfl⟩⟩

/-! ## What a transaction knows -/

/-- The transaction has written nothing. -/
structure Db.Clean (tx : Nat) (s : Db) : Prop where
  sends : Slots.Clean tx s.sends
  resolutions : Slots.Clean tx s.resolutions
  jobs : Slots.Clean tx s.jobs

/-- Its audit row, and no other. -/
def Noted (w : Store) (sid tx : Nat) (d : Resolution) (s : Db) : Prop :=
  ∃ n row, s.resolutions.get n = some ⟨none, some (tx, row)⟩ ∧ w.resolutions.next ≤ n ∧ row.sendId = sid ∧
    row.resolution = d ∧ ∀ m v, s.resolutions.get m = some v → v.heldBy tx = true → m = n

structure Checked (w : Store) (sid tx : Nat) (d : Resolution) (s : Db) : Prop where
  sends : Slots.Clean tx s.sends
  noted : Noted w sid tx d s
  jobs : Slots.Clean tx s.jobs

/-- The send is resolved, and not committed. -/
structure Swapped (w : Store) (sid : Nat) (r : SendRow) (tx : Nat) (d : Resolution) (s : Db) : Prop where
  row : ∃ began, s.sends.get sid = some ⟨some r, some (tx, resolvedRow began d r)⟩
  noted : Noted w sid tx d s

/-- The job the transaction sees in the row is live, and the send's. -/
def LiveSeen (sid tx : Nat) (s : Db) (n : Nat) : Prop := ∃ j, s.jobs.seen tx n = some j ∧ jobOf sid j = true ∧ j.live = true

/-- And there is no more than one live job in what it will commit. -/
structure Done (w : Store) (sid : Nat) (r : SendRow) (tx : Nat) (d : Resolution) (s : Db) : Prop extends
    Swapped w sid r tx d s where
  job : ∀ m n, LiveSeen sid tx s m → LiveSeen sid tx s n → m = n

/-- Nothing is scheduled yet, and nothing is live. -/
structure Unscheduled (w : Store) (sid : Nat) (r : SendRow) (tx : Nat) (d : Resolution) (s : Db) : Prop extends
    Swapped w sid r tx d s where
  clean : Slots.Clean tx s.jobs
  none_live : ∀ n, ¬ LiveSeen sid tx s n

theorem Swapped.holds (h : Swapped w sid r tx d s) : Holds sid r tx s := by
  obtain ⟨began, hr⟩ := h.row
  exact ⟨_, hr⟩

theorem Noted.keeps (h : Noted w sid tx d s) (hk : Slots.Keeps tx s.resolutions t.resolutions) : Noted w sid tx d t := by
  obtain ⟨n, row, hn, hnew, hid, hd, honly⟩ := h
  refine ⟨n, row, (hk n _ (Slot.heldBy_iff.2 ⟨row, rfl⟩)).2 hn, hnew, hid, hd, fun m v hv hheld => ?_⟩
  exact honly m v ((hk m v hheld).1 hv) hheld

theorem Swapped.keeps (h : Swapped w sid r tx d s) (hs : Slots.Keeps tx s.sends t.sends)
    (hr : Slots.Keeps tx s.resolutions t.resolutions) : Swapped w sid r tx d t := by
  obtain ⟨began, hrow⟩ := h.row
  exact ⟨⟨began, (hs sid _ (Slot.heldBy_iff.2 ⟨_, rfl⟩)).2 hrow⟩, h.noted.keeps hr⟩

theorem LiveSeen.congr {n : Nat} (h : LiveSeen sid tx t n) (he : ∀ n, t.jobs.get n = s.jobs.get n) :
    LiveSeen sid tx s n := by
  obtain ⟨j, hj, hlive⟩ := h
  refine ⟨j, ?_, hlive⟩
  unfold Slots.seen at hj ⊢
  rw [← he n]
  exact hj

theorem stable_clean : Stable (settling settings w sid r tx began) (Db.Clean tx) := fun _ _ h hr _ =>
  ⟨hr.sends.clean h.sends, hr.resolutions.clean h.resolutions, hr.jobs.clean h.jobs⟩

theorem stable_checked : Stable (settling settings w sid r tx began) (Checked w sid tx d) := fun _ _ h hr _ =>
  ⟨hr.sends.clean h.sends, h.noted.keeps hr.resolutions, hr.jobs.clean h.jobs⟩

theorem stable_done : Stable (settling settings w sid r tx began) (Done w sid r tx d) := fun _ _ h hr _ =>
  ⟨h.toSwapped.keeps hr.sends hr.resolutions, fun m n hm hn =>
    h.job m n (hm.congr (hr.still h.holds)) (hn.congr (hr.still h.holds))⟩

theorem stable_unscheduled : Stable (settling settings w sid r tx began) (Unscheduled w sid r tx d) := fun _ _ h hr _ =>
  ⟨h.toSwapped.keeps hr.sends hr.resolutions, hr.jobs.clean h.clean, fun n hn =>
    h.none_live n (hn.congr (hr.still h.holds))⟩

/-! ## Statements -/

theorem Closed.congr (h : Closed w sid r d s) (hrow : t.sends.get sid = s.sends.get sid)
    (haudit : ∀ n row, Audit w t n row ↔ Audit w s n row) (hlive : t.liveJobs sid = s.liveJobs sid) :
    Closed w sid r d t where
  row := by rw [hrow]; exact h.row
  audit := by
    obtain ⟨n, row, ha, hrest⟩ := h.audit
    exact ⟨n, row, (haudit n row).2 ha, hrest⟩
  only m n p q hp hq := h.only m n p q ((haudit m p).1 hp) ((haudit n q).1 hq)
  job := by rw [hlive]; exact h.job

theorem audit_insert (s : Db) (tx : Nat) (row : ResolutionRow) (n : Nat) (q : ResolutionRow) :
    Audit w { s with resolutions := s.resolutions.insert tx row } n q ↔ Audit w s n q := by
  constructor
  · rintro ⟨hn, v, hv, hq⟩
    rcases Table.get_insert_cases hv with ⟨-, rfl⟩ | ⟨-, hv⟩
    · cases hq
    · exact ⟨hn, v, hv, hq⟩
  · rintro ⟨hn, v, hv, hq⟩
    exact ⟨hn, v, Table.get_insert_of_get _ hv, hq⟩

/-- A statement that leaves the phase as it is, and others' rows. -/
theorem guarded (hopen : Open w sid r s) (hopen' : Open w sid r t) (hb : Base w sid r)
    (hsends : ∀ tx', tx' ≠ tx → Slots.Keeps tx' s.sends t.sends)
    (hjobs : ∀ tx', tx' ≠ tx → Slots.Keeps tx' s.jobs t.jobs)
    (hstill : ∀ tx', tx' ≠ tx → Holds sid r tx' s → ∀ n, t.jobs.get n = s.jobs.get n)
    (hres : t.resolutions = s.resolutions) :
    (∀ tx', tx' ≠ tx → Spares w sid r tx' s t) ∧ ∀ d, Closed w sid r d t → Closed w sid r d s := by
  refine ⟨fun tx' hne => ⟨hsends tx' hne, ?_, hjobs tx' hne, hstill tx' hne, fun d hc => ?_⟩, fun d hc => ?_⟩
  · rw [hres]
    exact .refl _ _
  · exact absurd hc (hopen.not_closed hb)
  · exact absurd hc (hopen'.not_closed hb)

variable {α : Type} {post : α → Db → Prop} {o : Stmt}

/-- A statement that only reads. -/
theorem Safe.reads {P : Db → Prop} (hP : Stable (settling settings w sid r tx began) P) {f : o.Ans → TxProg α}
    (h : P s) (hread : ∀ t x u, sem settings tx began o () t = some (x, u) → u = t)
    (hk : ∀ t x u, P t → Sound w sid r t → sem settings tx began o () t = some (x, u) →
      Safe (settling settings w sid r tx began) post (f x) t) :
    Safe (settling settings w sid r tx began) post (perform o >>= f) s :=
  Safe.perform hP h fun t e x u ht hi _ hs => by
    obtain rfl := hread t x u hs
    exact ⟨hi, ⟨fun tx' _ => .refl w sid r tx' u, fun _ hc => hc⟩, hk u x u ht hi hs⟩

/-- **The audit row** is the transaction's own until it commits. -/
theorem safe_insertResolution (note : Option String) {userId : Nat} {f : Unit → TxProg α} (h : s.Clean tx)
    (hk : ∀ t, Checked w sid tx d t → Safe (settling settings w sid r tx began) post (f ()) t) :
    Safe (settling settings w sid r tx began) post
      (perform (.insertResolution ⟨sid, userId, d, note⟩) >>= f) s := by
  refine Safe.perform stable_clean h fun t e x u ht hi _ hs => ?_
  obtain ⟨-, rfl⟩ := Prod.mk.inj (Option.some.inj hs)
  have haudit := audit_insert (w := w) t tx ⟨sid, userId, d, note⟩
  have hsound : Sound w sid r { t with resolutions := t.resolutions.insert tx ⟨sid, userId, d, note⟩ } := by
    have holder (n : Nat) (hn : n < w.resolutions.next) :
        (t.resolutions.insert tx ⟨sid, userId, d, note⟩).get n = (Slots.ofTable w.resolutions).get n := by
      rw [Slots.insert, Table.get_insert_of_ne _ _ (Nat.ne_of_lt (Nat.lt_of_lt_of_le hn hi.grown))]
      exact hi.older n hn
    refine ⟨?_, hi.jobs, Nat.le_succ_of_le hi.grown, holder⟩
    rcases hi.phase with ho | ⟨d', hc⟩
    · exact .inl ⟨ho.row, fun n row ha => ho.audits n row ((haudit n row).1 ha), ho.jobs⟩
    · exact .inr ⟨d', hc.congr rfl haudit rfl⟩
  refine ⟨hsound, ⟨fun tx' hne => ?_, fun d' hc => hc.congr rfl (fun n row => (haudit n row).symm) rfl⟩, hk _ ?_⟩
  · exact ⟨.refl _ _, Slots.keeps_insert _ _ hne, .refl _ _, fun _ _ => rfl, fun d' hc => hc.congr rfl haudit rfl⟩
  · refine ⟨ht.sends, ⟨t.resolutions.next, _, Table.get_insert_self _ _, hi.grown, rfl, rfl, fun m v hv hheld => ?_⟩, ht.jobs⟩
    rcases Table.get_insert_cases hv with ⟨hm, -⟩ | ⟨-, hv⟩
    · exact hm
    · rw [ht.resolutions m v hv] at hheld
      cases hheld

/-- **The update**: in time, it finds the send in doubt and takes its lock. -/
theorem safe_updateSend (hb : Base w sid r) {userId : Nat} {f : Bool → TxProg α} (h : Checked w sid tx d s)
    (hk : ∀ t, Swapped w sid r tx d t → Slots.Clean tx t.jobs →
      (t.liveJobs sid).card ≤ (match d with | .markedDelivered => 1 | .forcedResend => 0) →
      r.userId = userId → Safe (settling settings w sid r tx began) post (f true) t) :
    Safe (settling settings w sid r tx began) post (perform (.updateSend sid userId d) >>= f) s := by
  refine Safe.perform stable_checked h fun t e x u ht hi hok hs => ?_
  obtain ⟨⟨hit, sends⟩, hup, he⟩ := Option.map_eq_some_iff.1 hs
  obtain ⟨rfl, rfl⟩ := Prod.mk.inj he
  have htime : inTime t tx (.updateSend sid userId d) = true := hok
  simp only [inTime, Bool.and_eq_true] at htime
  obtain ⟨q, hq, hdoubt⟩ := (Option.any_eq_true _ _).1 htime.1
  rcases Slots.updateWhere_cases hup with ⟨-, -, hmiss⟩ | ⟨rfl, v, a, hv, ha, hp, hfree, rfl⟩
  · rw [hmiss q hq] at hdoubt
    cases hdoubt
  · -- The row it sees is the committed one, and in doubt: nothing is settled.
    have hclean := ht.sends sid v hv
    rw [Slot.seenBy_of_not_held hclean] at ha
    simp only [unresolved, inDoubt, Bool.and_eq_true, beq_iff_eq] at hp
    have hopen : Open w sid r t := by
      rcases hi.phase with ho | ⟨d', hc⟩
      · exact ho
      · obtain ⟨began', hr⟩ := hc.row
        rw [hv, Option.some.injEq] at hr
        rw [hr, Option.some.injEq] at ha
        exact absurd (ha ▸ hp.2) (state_resolvedRow began' d' r)
    obtain ⟨own, hrow⟩ := hopen.row
    obtain rfl := Option.some.inj (hv.symm.trans hrow)
    obtain rfl := Option.some.inj ha
    have hnone : own = none := by
      cases own with
      | none => rfl
      | some o =>
        have hlocked : (Slot.mk (some r) (some o)).locked tx = true := by
          rw [Slot.locked, hclean]
          rfl
        rw [hlocked] at hfree
        cases hfree
    subst hnone
    have hnew : (Table.modify t.sends sid fun v => { v with own := some (tx, resolvedRow began d r) }).get sid =
        some ⟨some r, some (tx, resolvedRow began d r)⟩ := by
      rw [Table.get_modify_self, hv]
      rfl
    have hnobody (tx' : Nat) : ¬ Holds sid r tx' t := by
      rintro ⟨b, hb'⟩
      rw [hv, Option.some.injEq, Slot.mk.injEq] at hb'
      cases hb'.2
    have hopen' : Open w sid r
        { t with sends := Table.modify t.sends sid fun v => { v with own := some (tx, resolvedRow began d r) } } :=
      ⟨⟨_, hnew⟩, hopen.audits, hopen.jobs⟩
    refine ⟨⟨.inl hopen', fun n v' tx' hv' hheld => absurd (hi.jobs n v' tx' hv' hheld) (hnobody tx'), hi.grown,
      hi.older⟩, ?_, ?_⟩
    · exact guarded hopen hopen' hb (fun tx' hne => Slots.keeps_modify hv hfree hne _) (fun _ _ => .refl _ _)
        (fun _ _ _ _ => rfl) rfl
    · refine hk _ ⟨⟨began, hnew⟩, ht.noted⟩ ht.jobs ?_ hp.1
      cases d with
      | markedDelivered => exact of_decide_eq_true htime.2
      | forcedResend => exact Nat.le_of_eq (of_decide_eq_true htime.2)

/-! ## The scheduling -/

theorem seen_clean {n : Nat} (h : Slots.Clean tx s.jobs) : s.jobs.seen tx n = (s.jobs.get n).bind Slot.committed := by
  unfold Slots.seen
  cases hv : s.jobs.get n with
  | none => rfl
  | some v => exact Slot.seenBy_of_not_held (h n v hv)

/-- A job written by the holder of the send. -/
theorem written (hb : Base w sid r) (hs : Sound w sid r s) (h : Holds sid r tx s) {jobs : Slots Queue.JobRow}
    (hcommitted : ∀ n, (jobs.get n).bind Slot.committed = (s.jobs.get n).bind Slot.committed)
    (hheld : ∀ n v tx', jobs.get n = some v → v.heldBy tx' = true → tx' = tx ∨ s.jobs.get n = some v)
    (hkeeps : ∀ tx', tx' ≠ tx → Slots.Keeps tx' s.jobs jobs) :
    Sound w sid r { s with jobs := jobs } ∧
      (∀ tx', tx' ≠ tx → Spares w sid r tx' s { s with jobs := jobs }) ∧
        ∀ d, Closed w sid r d { s with jobs := jobs } → Closed w sid r d s := by
  have hopen := h.open hs
  have hopen' : Open w sid r { s with jobs := jobs } :=
    ⟨hopen.row, hopen.audits, fun n => (hcommitted n).trans (hopen.jobs n)⟩
  refine ⟨⟨.inl hopen', fun n v tx' hv hh => ?_, hs.grown, hs.older⟩,
    guarded hopen hopen' hb (fun _ _ => .refl _ _) hkeeps ?_ rfl⟩
  · rcases hheld n v tx' hv hh with rfl | hv
    · exact h
    · exact hs.jobs n v tx' hv hh
  · intro tx' hne hother
    exact absurd (hother.inj h) hne

theorem sem_enqueue {a : Queue.EnqueueArgs} {x : Option Nat} (ha : a.dedupeKey = none)
    (h : sem settings tx began (.enqueue a) () s = some (x, t)) :
    t = { s with jobs := s.jobs.insert tx (Queue.newRow settings began a) } := by
  have hclash : clashes s.jobs tx none a.dedupeKey = false := by
    rw [ha]
    refine Table.any_eq_false.2 fun n v _ => ?_
    cases v.seenBy tx <;> rfl
  have hwait : awaits s.jobs tx none a.dedupeKey = false := by
    rw [ha]
    refine Table.any_eq_false.2 fun n v _ => ?_
    have hno : (v.own.any fun o => duplicates none o.2) = false := by
      cases v.own <;> rfl
    rw [hno, Bool.and_false]
  simp only [sem, hclash, hwait, Bool.false_eq_true, if_false] at h
  exact (Prod.mk.inj (Option.some.inj h)).2.symm

/-- **A new job**: the only live one. -/
theorem safe_enqueue (hb : Base w sid r) (partition : String) {f : Option Nat → TxProg α} (h : Unscheduled w sid r tx d s)
    (hk : ∀ t x, Done w sid r tx d t → Safe (settling settings w sid r tx began) post (f x) t) :
    Safe (settling settings w sid r tx began) post (perform (.enqueue (Store.retryJob sid partition)) >>= f) s := by
  refine Safe.perform stable_unscheduled h fun t e x u ht hi _ hs => ?_
  obtain rfl := sem_enqueue rfl hs
  generalize hrow : Queue.newRow settings began (Store.retryJob sid partition) = row
  have hcommitted (n : Nat) : ((t.jobs.insert tx row).get n).bind Slot.committed = (t.jobs.get n).bind Slot.committed := by
    by_cases hn : n = t.jobs.next
    · subst hn
      rw [Slots.insert, Table.get_insert_self, Table.get_next]
      rfl
    · rw [Slots.insert, Table.get_insert_of_ne _ _ hn]
  have hheld (n : Nat) (v : Slot Queue.JobRow) (tx' : Nat) (hv : (t.jobs.insert tx row).get n = some v)
      (hheld : v.heldBy tx' = true) : tx' = tx ∨ t.jobs.get n = some v := by
    rcases Table.get_insert_cases hv with ⟨-, rfl⟩ | ⟨-, hv⟩
    · obtain ⟨b, hb'⟩ := Slot.heldBy_iff.1 hheld
      exact .inl (Prod.mk.inj (Option.some.inj hb')).1.symm
    · exact .inr hv
  obtain ⟨hsound, hguar⟩ := written hb hi ht.holds hcommitted hheld fun _ hne => Slots.keeps_insert t.jobs row hne
  refine ⟨hsound, hguar, hk _ _ ⟨⟨ht.row, ht.noted⟩, ?_⟩⟩
  have hnew (n : Nat) (hn : LiveSeen sid tx { t with jobs := t.jobs.insert tx row } n) : n = t.jobs.next := by
    by_contra hne
    refine ht.none_live n ?_
    obtain ⟨j, hj, hlive⟩ := hn
    refine ⟨j, ?_, hlive⟩
    unfold Slots.seen at hj ⊢
    rwa [Slots.insert, Table.get_insert_of_ne _ _ hne] at hj
  intro m n hm hn
  rw [hnew m hm, hnew n hn]

/-- A job of the send, as the transaction sees it. -/
def Sees (sid tx job : Nat) (s : Db) : Prop := ∃ i, s.jobs.seen tx job = some i ∧ jobOf sid i = true

theorem stable_sees (job : Nat) : Stable (settling settings w sid r tx began)
    fun s => Unscheduled w sid r tx d s ∧ Sees sid tx job s := by
  rintro s t ⟨h, i, hi, hof⟩ hr hinv
  refine ⟨stable_unscheduled s t h hr hinv, i, ?_, hof⟩
  unfold Slots.seen at hi ⊢
  rwa [hr.still h.holds job]

/-- No live row has the key of a job of the send. -/
theorem clashes_eq_false (hb : Base w sid r) (hi : Sound w sid r s) (h : Unscheduled w sid r tx d s) {job : Nat}
    {i : Queue.JobRow} (hseen : s.jobs.seen tx job = some i) (hof : jobOf sid i = true) :
    clashes s.jobs tx (some job) i.dedupeKey = false := by
  refine Table.any_eq_false.2 fun n v hv => ?_
  cases hj : v.seenBy tx with
  | none => rw [Option.any_none, Bool.and_false]
  | some j =>
    rw [Option.any_some]
    refine Bool.eq_false_iff.2 fun hdup => ?_
    simp only [duplicates, Bool.and_eq_true, beq_iff_eq] at hdup
    obtain ⟨-, ⟨hsome, hkey⟩, hlive⟩ := hdup
    have hseen' : s.jobs.seen tx n = some j := by
      rw [Slots.seen, hv]
      exact hj
    have hopen := h.holds.open hi
    have hrow : w.jobs.get job = some i := by rw [← hopen.jobs job, ← seen_clean h.clean, hseen]
    have hrow' : w.jobs.get n = some j := by rw [← hopen.jobs n, ← seen_clean h.clean, hseen']
    exact h.none_live n ⟨j, hseen', hb.keyed job n i j hrow hrow' hof hsome hkey, hlive⟩

theorem sem_operatorRetry {job : Nat} {x : Except DbError Bool}
    (hfree : ∀ i, s.jobs.seen tx job = some i → clashes s.jobs tx (some job) i.dedupeKey = false)
    (h : sem settings tx began (.operatorRetry job) () s = some (x, t)) :
    (x = .ok false ∧ t = s) ∨ ∃ v a, s.jobs.get job = some v ∧ v.locked tx = false ∧ x = .ok true ∧
      t = { s with jobs := Table.modify s.jobs job fun v => { v with own := some (tx, Queue.resumeRow began 1 a) } } := by
  cases hup : s.jobs.updateWhere tx job Queue.resumable (Queue.resumeRow began 1) with
  | none =>
    simp only [sem, hup] at h
    cases h
  | some p =>
    obtain ⟨hit, jobs⟩ := p
    rcases Slots.updateWhere_cases hup with ⟨rfl, rfl, -⟩ | ⟨rfl, v, a, hv, ha, -, hlock, rfl⟩
    · simp only [sem, hup] at h
      obtain ⟨hx, hs⟩ := Prod.mk.inj (Option.some.inj h)
      exact .inl ⟨hx.symm, hs.symm⟩
    · have hseen : s.jobs.seen tx job = some a := by
        rw [Slots.seen, hv]
        exact ha
      have hkey : (s.jobs.seen tx job).bind Queue.JobRow.dedupeKey = a.dedupeKey := by
        rw [hseen]
        rfl
      simp only [sem, hup, hkey, hfree a hseen, Bool.false_eq_true, if_false] at h
      split at h
      · cases h
      · obtain ⟨rfl, rfl⟩ := Prod.mk.inj (Option.some.inj h)
        exact .inr ⟨v, a, hv, hlock, rfl, rfl⟩

/-- **A job resumed**: the only live one, or nothing where it is over. -/
theorem safe_operatorRetry (hb : Base w sid r) {job : Nat} {f : Except DbError Bool → TxProg α}
    (h : Unscheduled w sid r tx d s ∧ Sees sid tx job s)
    (hresumed : ∀ t, Done w sid r tx d t → Safe (settling settings w sid r tx began) post (f (.ok true)) t)
    (hover : ∀ t, Unscheduled w sid r tx d t → Safe (settling settings w sid r tx began) post (f (.ok false)) t) :
    Safe (settling settings w sid r tx began) post (perform (.operatorRetry job) >>= f) s := by
  refine Safe.perform (stable_sees job) h fun t e x u ht hi _ hs => ?_
  obtain ⟨ht, i, hseen, hof⟩ := ht
  have hclash (j : Queue.JobRow) (hj : t.jobs.seen tx job = some j) : clashes t.jobs tx (some job) j.dedupeKey = false := by
    obtain rfl := Option.some.inj (hseen.symm.trans hj)
    exact clashes_eq_false hb hi ht hseen hof
  have hsem : sem settings tx began (.operatorRetry job) () t = some (x, u) := hs
  rcases sem_operatorRetry hclash hsem with ⟨rfl, rfl⟩ | ⟨v, a, hv, hfree, rfl, rfl⟩
  · exact ⟨hi, ⟨fun tx' _ => .refl w sid r tx' u, fun _ hc => hc⟩, hover u ht⟩
  · generalize hrow : Queue.resumeRow began 1 a = row
    have hcommitted (n : Nat) : ((Table.modify t.jobs job fun v => { v with own := some (tx, row) }).get n).bind Slot.committed =
        (t.jobs.get n).bind Slot.committed := by
      by_cases hn : n = job
      · subst hn
        rw [Table.get_modify_self, hv]
        rfl
      · rw [Table.get_modify_of_ne _ _ hn]
    have hheld (n : Nat) (v' : Slot Queue.JobRow) (tx' : Nat)
        (hv' : (Table.modify t.jobs job fun v => { v with own := some (tx, row) }).get n = some v')
        (hheld : v'.heldBy tx' = true) : tx' = tx ∨ t.jobs.get n = some v' := by
      rcases Table.get_modify_cases hv' with ⟨rfl, v₀, -, rfl⟩ | ⟨-, hv'⟩
      · obtain ⟨b, hb'⟩ := Slot.heldBy_iff.1 hheld
        exact .inl (Prod.mk.inj (Option.some.inj hb')).1.symm
      · exact .inr hv'
    obtain ⟨hsound, hguar⟩ := written hb hi ht.holds hcommitted hheld fun _ hne => Slots.keeps_modify hv hfree hne row
    refine ⟨hsound, hguar, hresumed _ ⟨⟨ht.row, ht.noted⟩, ?_⟩⟩
    have hnew (n : Nat) (hn : LiveSeen sid tx
        { t with jobs := Table.modify t.jobs job fun v => { v with own := some (tx, row) } } n) : n = job := by
      by_contra hne
      refine ht.none_live n ?_
      obtain ⟨j, hj, hlive⟩ := hn
      refine ⟨j, ?_, hlive⟩
      unfold Slots.seen at hj ⊢
      rwa [Table.get_modify_of_ne _ _ hne] at hj
    intro m n hm hn
    rw [hnew m hm, hnew n hn]

theorem safe_schedule (hb : Base w sid r) (partition : String) {f : Except DbError Unit → TxProg α}
    (h : Unscheduled w sid r tx d s)
    (hk : ∀ t, Done w sid r tx d t → Safe (settling settings w sid r tx began) post (f (.ok ())) t) :
    Safe (settling settings w sid r tx began) post (schedule sid partition >>= f) s := by
  unfold schedule
  rw [Prog.bind_assoc]
  refine Safe.reads stable_unscheduled h (fun t x u hs => (Prod.mk.inj (Option.some.inj hs)).2.symm) fun t x u ht _ hs => ?_
  obtain ⟨hx, -⟩ := Prod.mk.inj (Option.some.inj hs)
  cases x with
  | none =>
    rw [Prog.bind_assoc]
    exact safe_enqueue hb partition ht fun t _ ht => hk t ht
  | some job =>
    have hsees : Sees sid tx job t := Slots.latest_eq_some hx
    show Safe _ _ ((perform (.operatorRetry job) >>= _) >>= f) t
    rw [Prog.bind_assoc]
    refine safe_operatorRetry hb ⟨ht, hsees⟩ (fun t ht => hk t ht) fun t ht => ?_
    show Safe _ _ ((perform (.enqueue _) >>= _) >>= f) t
    rw [Prog.bind_assoc]
    exact safe_enqueue hb partition ht fun t _ ht => hk t ht

/-! ## A call -/

/-- The call names a resolution, and is the owner's. -/
def Proper (r : SendRow) (call : Call) : Prop := (RESOLUTIONS.lookup call.resolution).isSome ∧ call.userId = r.userId

/-- What a call leaves when it has answered: resolved, or refused and nothing written, the send settled if it was in
order; never a statement the database refused. -/
def Post (w : Store) (sid : Nat) (r : SendRow) (tx : Nat) (call : Call) (a : Answer) (s : Db) : Prop :=
  match a with
  | .ok _ => ∃ d, RESOLUTIONS.lookup call.resolution = some d ∧ Done w sid r tx d s
  | .error (.gate _) => s.Clean tx ∧ (Proper r call → ∃ d, Closed w sid r d s)
  | .error (.db _) => False

theorem stable_settled : Stable (settling settings w sid r tx began) fun s => ∃ d, Closed w sid r d s :=
  fun _ _ ⟨d, h⟩ hr _ => ⟨d, hr.closed d h⟩

theorem stable_post (call : Call) (a : Answer) : Stable (settling settings w sid r tx began) (Post w sid r tx call a) := by
  intro s t h hr hi
  cases a with
  | ok _ =>
    obtain ⟨d, hd, h⟩ := h
    exact ⟨d, hd, stable_done s t h hr hi⟩
  | error e =>
    cases e with
    | gate _ => exact ⟨stable_clean s t h.1 hr hi, fun hp => stable_settled s t (h.2 hp) hr hi⟩
    | db _ => exact h.elim

/-- What the transaction that resolved the send reads back. -/
theorem seen_swapped (h : Swapped w sid r tx d s) : ∃ q, s.sends.seen tx sid = some q ∧ q.userId = r.userId := by
  obtain ⟨began, hr⟩ := h.row
  refine ⟨resolvedRow began d r, ?_, userId_resolvedRow began d r⟩
  rw [Slots.seen, hr]
  simp [Slot.seenBy, Slot.heldBy]

/-- The updates of a call leave the send resolved. -/
theorem safe_apply (hb : Base w sid r) {userId : Nat} (partition : String) {f : Except DbError Unit → TxProg α}
    (h : Checked w sid tx d s)
    (hk : ∀ t, Done w sid r tx d t → r.userId = userId → Safe (settling settings w sid r tx began) post (f (.ok ())) t) :
    Safe (settling settings w sid r tx began) post (apply sid userId partition d >>= f) s := by
  unfold apply
  rw [Prog.bind_assoc]
  refine safe_updateSend hb h fun t ht hclean hlive howner => ?_
  -- What is live is what is committed, as long as the transaction has written no job.
  have hseen {n : Nat} (hn : LiveSeen sid tx t n) : n ∈ t.liveJobs sid := by
    obtain ⟨j, hj, hof, hl⟩ := hn
    rw [seen_clean hclean, Option.bind_eq_some_iff] at hj
    obtain ⟨v, hv, hc⟩ := hj
    exact mem_liveJobs.2 ⟨v, j, hv, hc, hof, hl⟩
  cases d with
  | markedDelivered =>
    refine hk t ⟨ht, fun m n hm hn => ?_⟩ howner
    exact Finset.card_le_one.1 hlive m (hseen hm) n (hseen hn)
  | forcedResend =>
    refine safe_schedule hb partition ⟨ht, hclean, fun n hn => ?_⟩ fun t ht => hk t ht howner
    have hnone : t.liveJobs sid = ∅ := Finset.card_eq_zero.1 (Nat.le_zero.1 hlive)
    have := hseen hn
    rw [hnone] at this
    exact absurd this (Finset.notMem_empty n)

/-- **A call resolves the send, or changes nothing.** -/
theorem safe_resolveSend (hb : Base w sid r) (call : Call) (h : s.Clean tx) :
    Safe (settling settings w sid r tx began) (Post w sid r tx call)
      (resolveSend sid call.userId call.resolution call.note) s := by
  unfold resolveSend
  split
  · rename_i hlookup
    refine Safe.ret (stable_post call _) ⟨h, fun hp => ?_⟩
    rw [Proper, hlookup] at hp
    cases hp.1
  · rename_i d hlookup
    refine Safe.reads stable_clean h (fun t x u hs => (Prod.mk.inj (Option.some.inj hs)).2.symm) fun t x u ht hi hs => ?_
    obtain ⟨hx, -⟩ := Prod.mk.inj (Option.some.inj hs)
    obtain ⟨v, q, hv, hq, howner⟩ := hi.committed
    have hseen : t.sends.seen tx sid = some q := by
      rw [Slots.seen, hv]
      exact (Slot.seenBy_of_not_held (ht.sends sid v hv)).trans hq
    rw [hseen, Option.filter_some] at hx
    cases x with
    | none =>
      refine Safe.ret (stable_post call _) ⟨ht, fun hp => ?_⟩
      have hwhose : whose call.userId q = true := beq_iff_eq.2 (howner.trans hp.2.symm)
      rw [if_pos hwhose] at hx
      cases hx
    | some row =>
      have hrow : row = q := by
        split at hx
        · exact (Option.some.inj hx).symm
        · cases hx
      subst hrow
      show Safe _ _ (if _ then _ else _) t
      split
      · rename_i hstate
        refine Safe.ret (stable_post call _) ⟨ht, fun _ => ?_⟩
        -- The send is in doubt as long as nothing is settled.
        rcases hi.phase with ho | hc
        · obtain ⟨own, hr⟩ := ho.row
          obtain rfl := Option.some.inj (hv.symm.trans hr)
          obtain rfl := Option.some.inj hq
          exact absurd hb.doubt hstate
        · exact hc
      · refine safe_insertResolution call.note ht fun t ht => ?_
        refine safe_apply hb row.partition ht fun t ht howner' => ?_
        refine Safe.reads stable_done ht (fun t x u hs => (Prod.mk.inj (Option.some.inj hs)).2.symm) fun t x u ht _ hs => ?_
        obtain ⟨hx, -⟩ := Prod.mk.inj (Option.some.inj hs)
        obtain ⟨q, hq, hu⟩ := seen_swapped ht.toSwapped
        have hwhose : whose call.userId q = true := beq_iff_eq.2 (hu.trans howner')
        rw [hq, Option.filter_some, if_pos hwhose] at hx
        subst hx
        exact Safe.ret (stable_post call _) ⟨d, hlookup, ht⟩

end Resolve
end Send
end SafeSend
