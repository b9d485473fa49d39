import SafeSend.Send.Resend
import SafeSend.Send.Resolved
/-!
# An uncertain send is resolved once: every run

A commit settles the send, a rollback leaves it as it was, and a call that finds it settled is refused.  So in every run
whose calls come to their updates in time, the committed call is one, and the audit row, the resolution and the job are
its.
-/
namespace SafeSend
namespace Send
namespace Resolve

open Lib
open Lib.Prog (Safe Stable Contract)
open Claim (TxStatus duplicates)

variable {w : Store} {sid : Nat} {r : SendRow} {tx tx' : Nat} {s t : Db} {d : Resolution} {settings : Settings}

/-! ## The end of a transaction -/

theorem audit_iff {n : Nat} {row : ResolutionRow} :
    Audit w s n row ↔ w.resolutions.next ≤ n ∧ (s.resolutions.get n).bind Slot.committed = some row := by
  rw [Audit, Option.bind_eq_some_iff]

theorem liveJobs_congr (h : ∀ n, (t.jobs.get n).bind Slot.committed = (s.jobs.get n).bind Slot.committed) :
    t.liveJobs sid = s.liveJobs sid := by
  have hmem (s : Db) (n : Nat) : n ∈ s.liveJobs sid ↔
      ∃ j, (s.jobs.get n).bind Slot.committed = some j ∧ jobOf sid j = true ∧ j.live = true := by
    rw [mem_liveJobs]
    constructor
    · rintro ⟨v, j, hv, hj, hlive⟩
      exact ⟨j, Option.bind_eq_some_iff.2 ⟨v, hv, hj⟩, hlive⟩
    · rintro ⟨j, hj, hlive⟩
      obtain ⟨v, hv, hj⟩ := Option.bind_eq_some_iff.1 hj
      exact ⟨v, j, hv, hj, hlive⟩
  ext n
  rw [hmem t n, hmem s n, h n]

/-- **What a call that resolved the send commits**: the send settled, with its one audit row and at most one job. -/
theorem closed_commit (hi : Sound w sid r s) (h : Done w sid r tx d s) : Closed w sid r d (s.commit tx) := by
  have hopen := h.holds.open hi
  obtain ⟨began, hrow⟩ := h.row
  obtain ⟨n, row, hn, hnew, hid, hd, honly⟩ := h.noted
  have haudit (m : Nat) (p : ResolutionRow) (hp : Audit w (s.commit tx) m p) : m = n := by
    obtain ⟨hm, hp⟩ := audit_iff.1 hp
    have hp : s.resolutions.seen tx m = some p := (Slots.committed_commit s.resolutions tx m).symm.trans hp
    obtain ⟨v, hv, hseen⟩ := Option.bind_eq_some_iff.1 hp
    cases hheld : v.heldBy tx with
    | true => exact honly m v hv hheld
    | false =>
      rw [Slot.seenBy_of_not_held hheld] at hseen
      exact absurd ⟨hm, v, hv, hseen⟩ (hopen.audits m p)
  refine ⟨⟨began, ?_⟩, ⟨n, row, ⟨hnew, ?_⟩, hid, hd⟩, fun m m' p q hp hq => ?_, ?_⟩
  · show (s.sends.commit tx).get sid = _
    rw [Slots.get_commit, hrow]
    simp [Slot.commit, Slot.heldBy]
  · refine ⟨⟨some row, none⟩, ?_, rfl⟩
    show (s.resolutions.commit tx).get n = _
    rw [Slots.get_commit, hn]
    simp [Slot.commit, Slot.heldBy]
  · rw [haudit m p hp, haudit m' q hq]
  · have hseen {m : Nat} (hm : m ∈ (s.commit tx).liveJobs sid) : LiveSeen sid tx s m := by
      obtain ⟨v, j, hv, hj, hlive⟩ := mem_liveJobs.1 hm
      exact ⟨j, (Slots.committed_commit s.jobs tx m).symm.trans (Option.bind_eq_some_iff.2 ⟨v, hv, hj⟩), hlive⟩
    exact Finset.card_le_one.2 fun m hm m' hm' => h.job m m' (hseen hm) (hseen hm')

theorem spares_commit (hb : Base w sid r) (hi : Sound w sid r s) (h : Holds sid r tx s) (hne : tx' ≠ tx) :
    Spares w sid r tx' s (s.commit tx) where
  sends := Slots.keeps_commit _ hne
  resolutions := Slots.keeps_commit _ hne
  jobs := Slots.keeps_commit _ hne
  still hother := absurd (hother.inj h) hne
  closed _ hc := absurd hc ((h.open hi).not_closed hb)

theorem sound_commit (hi : Sound w sid r s) (h : Done w sid r tx d s) : Sound w sid r (s.commit tx) where
  phase := .inr ⟨d, closed_commit hi h⟩
  jobs n v tx' hv hheld := by
    have hne : tx' ≠ tx := by
      rintro rfl
      rw [Slots.clean_commit s.jobs tx' n v hv] at hheld
      cases hheld
    have hold : s.jobs.get n = some v := (Slots.keeps_commit s.jobs hne n v hheld).1 hv
    exact absurd ((hi.jobs n v tx' hold hheld).inj h.holds) hne
  grown := hi.grown
  older n hn := by
    show (s.resolutions.commit tx).get n = _
    rw [Slots.get_commit, hi.older n hn, Slots.get_ofTable]
    cases w.resolutions.get n <;> rfl

theorem audit_rollback (s : Db) (tx n : Nat) (row : ResolutionRow) : Audit w (s.rollback tx) n row ↔ Audit w s n row := by
  rw [audit_iff, audit_iff, ← Slots.committed_rollback s.resolutions tx n]
  rfl

theorem liveJobs_rollback (s : Db) (tx : Nat) : (s.rollback tx).liveJobs sid = s.liveJobs sid :=
  liveJobs_congr fun n => Slots.committed_rollback s.jobs tx n

theorem closed_rollback : Closed w sid r d s → Closed w sid r d (s.rollback tx) := by
  intro h
  obtain ⟨began, hr⟩ := h.row
  refine h.congr ?_ (audit_rollback s tx) (liveJobs_rollback s tx)
  show (s.sends.rollback tx).get sid = _
  rw [Slots.get_rollback, hr]
  rfl

theorem open_rollback (h : Open w sid r s) : Open w sid r (s.rollback tx) where
  row := by
    obtain ⟨own, hr⟩ := h.row
    have hcommitted : ((s.sends.rollback tx).get sid).bind Slot.committed = some r := by
      rw [Slots.committed_rollback, hr]
      rfl
    obtain ⟨⟨c, own'⟩, hv, hc⟩ := Option.bind_eq_some_iff.1 hcommitted
    obtain rfl : c = some r := hc
    exact ⟨own', hv⟩
  audits n row ha := h.audits n row ((audit_rollback s tx n row).1 ha)
  jobs n := (Slots.committed_rollback s.jobs tx n).trans (h.jobs n)

theorem spares_rollback (hi : Sound w sid r s) (hne : tx' ≠ tx) : Spares w sid r tx' s (s.rollback tx) where
  sends := Slots.keeps_rollback _ hne
  resolutions := Slots.keeps_rollback _ hne
  jobs := Slots.keeps_rollback _ hne
  still h n := by
    show (s.jobs.rollback tx).get n = _
    rw [Slots.get_rollback]
    cases hv : s.jobs.get n with
    | none => rfl
    | some v =>
      refine congrArg some (Slot.rollback_of_not_held (Bool.eq_false_iff.2 fun hheld => ?_))
      exact hne (h.inj (hi.jobs n v tx hv hheld))
  closed _ hc := closed_rollback hc

theorem sound_rollback (hi : Sound w sid r s) : Sound w sid r (s.rollback tx) where
  phase := hi.phase.imp open_rollback fun ⟨d, hc⟩ => ⟨d, closed_rollback hc⟩
  jobs n v tx' hv hheld := by
    have hne : tx' ≠ tx := by
      rintro rfl
      rw [Slots.clean_rollback s.jobs tx' n v hv] at hheld
      cases hheld
    have hold : s.jobs.get n = some v := (Slots.keeps_rollback s.jobs hne n v hheld).1 hv
    exact (hi.jobs n v tx' hold hheld).keeps (Slots.keeps_rollback s.sends hne)
  grown := hi.grown
  older n hn := by
    show (s.resolutions.rollback tx).get n = _
    rw [Slots.get_rollback, hi.older n hn, Slots.get_ofTable]
    cases w.resolutions.get n <;> rfl

/-! ## Every run -/

/-- What the transactions know of each other. -/
structure Resolving (settings : Settings) (w : Store) (sid : Nat) (r : SendRow) (u : State) : Prop where
  sound : Sound w sid r u.db
  live : ∀ tx T, u.txns.get tx = some T → T.status = .live →
    Safe (settling settings w sid r tx T.began) (Post w sid r tx T.call) T.body u.db
  idle : ∀ tx, (∀ T, u.txns.get tx = some T → T.status ≠ .live) → u.db.Clean tx
  committed : ∀ tx T, u.txns.get tx = some T → T.status = .committed → (∃ a, T.body = .ret (.ok a)) ∧
    ∃ d, RESOLUTIONS.lookup T.call.resolution = some d ∧ Closed w sid r d u.db
  one : ∀ tx tx' T T', u.txns.get tx = some T → u.txns.get tx' = some T' → T.status = .committed →
    T'.status = .committed → tx = tx'
  took : ∀ d, Closed w sid r d u.db → ∃ tx T, u.txns.get tx = some T ∧ T.status = .committed
  refused : ∀ tx T e, u.txns.get tx = some T → T.status = .rolledBack → T.body = .ret (.error e) → Proper r T.call →
    ∃ d, Closed w sid r d u.db

variable {v u' : State}

theorem Db.Clean.spares (h : s.Clean tx) (hs : Spares w sid r tx s t) : t.Clean tx :=
  ⟨hs.sends.clean h.sends, hs.resolutions.clean h.resolutions, hs.jobs.clean h.jobs⟩

theorem Resolving.begins (hb : Base w sid r) (h : Resolving settings w sid r u') (call : Call) :
    Resolving settings w sid r
      { u' with
        txns := u'.txns.insert
          { call := call, began := u'.now, body := resolveSend sid call.userId call.resolution call.note } } where
  sound := h.sound
  live tx T hT hlive := by
    rcases Table.get_insert_cases hT with ⟨rfl, rfl⟩ | ⟨-, hT⟩
    · refine safe_resolveSend hb call (h.idle _ fun T hT => ?_)
      cases hT.symm.trans u'.txns.get_next
    · exact h.live tx T hT hlive
  idle tx hno := by
    refine h.idle tx fun T hT => hno T (Table.get_insert_of_get _ hT)
  committed tx T hT hc := by
    rcases Table.get_insert_cases hT with ⟨-, rfl⟩ | ⟨-, hT⟩
    · cases hc
    · exact h.committed tx T hT hc
  one tx tx' T T' hT hT' hc hc' := by
    rcases Table.get_insert_cases hT with ⟨-, rfl⟩ | ⟨-, hT⟩
    · cases hc
    · rcases Table.get_insert_cases hT' with ⟨-, rfl⟩ | ⟨-, hT'⟩
      · cases hc'
      · exact h.one tx tx' T T' hT hT' hc hc'
  took d hd := by
    obtain ⟨tx, T, hT, hc⟩ := h.took d hd
    exact ⟨tx, T, Table.get_insert_of_get _ hT, hc⟩
  refused tx T e hT hr he hp := by
    rcases Table.get_insert_cases hT with ⟨-, rfl⟩ | ⟨-, hT⟩
    · cases hr
    · exact h.refused tx T e hT hr he hp

/-- A transaction's statement. -/
theorem Resolving.ran (h : Resolving settings w sid r u') {T : Txn} {body : TxProg Answer} {db : Db}
    (hT : u'.txns.get tx = some T) (hlive : T.status = .live) (hok : timely u' (.step tx) = true)
    (hstep : T.body.step (sem settings tx T.began) () u'.db = some (body, db)) :
    Resolving settings w sid r { u' with db := db, txns := u'.txns.modify tx fun T => { T with body := body } } := by
  have htime (o : Stmt) (k : o.Ans → TxProg Answer) (hbody : T.body = .op o k) :
      (settling settings w sid r tx T.began).ok o () u'.db := by
    have hnext : u'.nextStmt tx = some o := by
      obtain ⟨call, began, body, status⟩ := T
      obtain rfl : body = .op o k := hbody
      obtain rfl : status = .live := hlive
      simp only [State.nextStmt, hT]
    simp only [timely, hnext, Option.all_some] at hok
    exact hok
  obtain ⟨o, k, hp, hsound, ⟨hspares, hback⟩, hsafe⟩ := (h.live tx T hT hlive).step h.sound htime hstep
  have hforth (d : Resolution) (hc : Closed w sid r d u'.db) : Closed w sid r d db :=
    (hspares (tx + 1) (Nat.succ_ne_self tx)).closed d hc
  -- An ended transaction is another one.
  have hother {n : Nat} {V : Txn} (hV : (u'.txns.modify tx fun T => { T with body := body }).get n = some V)
      (hend : V.status ≠ .live) : u'.txns.get n = some V := by
    rcases Table.get_modify_cases hV with ⟨rfl, V₀, hV₀, rfl⟩ | ⟨-, hV⟩
    · obtain rfl := Option.some.inj (hV₀.symm.trans hT)
      exact absurd hlive hend
    · exact hV
  refine ⟨hsound, fun n V hV hl => ?_, fun n hno => ?_, fun n V hV hc => ?_, fun n n' V V' hV hV' hc hc' => ?_,
    fun d hd => ?_, fun n V e hV hr he hp => ?_⟩
  · rcases Table.get_modify_cases hV with ⟨rfl, V₀, hV₀, rfl⟩ | ⟨hn, hV⟩
    · obtain rfl := Option.some.inj (hV₀.symm.trans hT)
      exact hsafe
    · exact (h.live n V hV hl).rely (hspares n hn)
  · by_cases hn : n = tx
    · subst hn
      refine absurd hlive (hno { T with body := body } ?_)
      rw [Table.get_modify_self, hT]
      rfl
    · refine (h.idle n fun V hV => hno V ?_).spares (hspares n hn)
      rw [Table.get_modify_of_ne _ _ hn]
      exact hV
  · obtain ⟨ha, d, hd, hclosed⟩ := h.committed n V (hother hV (by rw [hc]; exact TxStatus.noConfusion)) hc
    exact ⟨ha, d, hd, hforth d hclosed⟩
  · exact h.one n n' V V' (hother hV (by rw [hc]; exact TxStatus.noConfusion))
      (hother hV' (by rw [hc']; exact TxStatus.noConfusion)) hc hc'
  · obtain ⟨n, V, hV, hc⟩ := h.took d (hback d hd)
    have hn : n ≠ tx := by
      rintro rfl
      obtain rfl := Option.some.inj (hV.symm.trans hT)
      rw [hlive] at hc
      cases hc
    exact ⟨n, V, by rw [Table.get_modify_of_ne _ _ hn]; exact hV, hc⟩
  · obtain ⟨d, hd⟩ := h.refused n V e (hother hV (by rw [hr]; exact TxStatus.noConfusion)) hr he hp
    exact ⟨d, hforth d hd⟩

/-- A transaction's end. -/
theorem Resolving.ends (h : Resolving settings w sid r u') {T : Txn} {status : TxStatus} {db : Db}
    (hT : u'.txns.get tx = some T) (hlive : T.status = .live) (hend : status ≠ .live) (hsound : Sound w sid r db)
    (hspares : ∀ tx', tx' ≠ tx → Spares w sid r tx' u'.db db) (hclean : db.Clean tx)
    (hcommitted : status = .committed → (∃ a, T.body = .ret (.ok a)) ∧ Open w sid r u'.db ∧
      ∃ d, RESOLUTIONS.lookup T.call.resolution = some d ∧ Closed w sid r d db)
    (hback : status = .rolledBack → ∀ d, Closed w sid r d db → Closed w sid r d u'.db)
    (hb : Base w sid r) : Resolving settings w sid r (u'.setStatus tx status db) := by
  have hforth (d : Resolution) (hc : Closed w sid r d u'.db) : Closed w sid r d db :=
    (hspares (tx + 1) (Nat.succ_ne_self tx)).closed d hc
  have hself : (u'.setStatus tx status db).txns.get tx = some { T with status := status } := by
    rw [State.setStatus, Table.get_modify_self, hT]
    rfl
  have hsplit {n : Nat} {V : Txn} (hV : (u'.setStatus tx status db).txns.get n = some V) :
      (n = tx ∧ V = { T with status := status }) ∨ n ≠ tx ∧ u'.txns.get n = some V := by
    rcases Table.get_modify_cases hV with ⟨rfl, V₀, hV₀, rfl⟩ | ⟨hn, hV⟩
    · obtain rfl := Option.some.inj (hV₀.symm.trans hT)
      exact .inl ⟨rfl, rfl⟩
    · exact .inr ⟨hn, hV⟩
  -- Where this transaction commits, nothing was committed before.
  have hfirst {n : Nat} {V : Txn} (hs : status = .committed) (hV : u'.txns.get n = some V) : V.status ≠ .committed := by
    intro hc
    obtain ⟨-, d, -, hclosed⟩ := h.committed n V hV hc
    exact (hcommitted hs).2.1.not_closed hb hclosed
  refine ⟨hsound, fun n V hV hl => ?_, fun n hno => ?_, fun n V hV hc => ?_, fun n n' V V' hV hV' hc hc' => ?_,
    fun d hd => ?_, fun n V e hV hr he hp => ?_⟩
  · rcases hsplit hV with ⟨-, rfl⟩ | ⟨hn, hV⟩
    · exact absurd hl hend
    · exact (h.live n V hV hl).rely (hspares n hn)
  · by_cases hn : n = tx
    · exact hn ▸ hclean
    · refine (h.idle n fun V hV => hno V ?_).spares (hspares n hn)
      rw [State.setStatus, Table.get_modify_of_ne _ _ hn]
      exact hV
  · rcases hsplit hV with ⟨-, rfl⟩ | ⟨-, hV⟩
    · exact ⟨(hcommitted hc).1, (hcommitted hc).2.2⟩
    · obtain ⟨ha, d, hd, hclosed⟩ := h.committed n V hV hc
      exact ⟨ha, d, hd, hforth d hclosed⟩
  · rcases hsplit hV with ⟨hn, rfl⟩ | ⟨-, hV⟩
    · rcases hsplit hV' with ⟨hn', -⟩ | ⟨-, hV'⟩
      · rw [hn, hn']
      · exact absurd hc' (hfirst hc hV')
    · rcases hsplit hV' with ⟨-, rfl⟩ | ⟨-, hV'⟩
      · exact absurd hc (hfirst hc' hV)
      · exact h.one n n' V V' hV hV' hc hc'
  · cases hs : status with
    | live => exact absurd hs hend
    | committed => exact ⟨tx, _, hs ▸ hself, rfl⟩
    | rolledBack =>
      obtain ⟨n, V, hV, hc⟩ := h.took d (hback hs d hd)
      have hn : n ≠ tx := by
        rintro rfl
        obtain rfl := Option.some.inj (hV.symm.trans hT)
        rw [hlive] at hc
        cases hc
      refine ⟨n, V, ?_, hc⟩
      rw [State.setStatus, Table.get_modify_of_ne _ _ hn]
      exact hV
  · rcases hsplit hV with ⟨rfl, rfl⟩ | ⟨-, hV⟩
    · have hpost := (h.live n T hT hlive)
      have hbody : T.body = .ret (.error e) := he
      rw [hbody] at hpost
      have hdone := hpost.post h.sound
      cases e with
      | gate _ =>
        obtain ⟨d, hd⟩ := hdone.2 hp
        exact ⟨d, hforth d hd⟩
      | db _ => exact hdone.elim
    · obtain ⟨d, hd⟩ := h.refused n V e hV hr he hp
      exact ⟨d, hforth d hd⟩

/-- **A step in time.** -/
theorem Resolving.step (hb : Base w sid r) (h : Resolving settings w sid r u') {a : Action} (hok : timely u' a = true)
    (hstep : State.step settings sid u' a = some v) : Resolving settings w sid r v := by
  cases a with
  | tick elapsed =>
    obtain rfl := Option.some.inj hstep
    exact ⟨h.sound, h.live, h.idle, h.committed, h.one, h.took, h.refused⟩
  | begins call =>
    obtain rfl := Option.some.inj hstep
    exact h.begins hb call
  | step tx =>
    obtain ⟨T, hT, hrun⟩ := Option.bind_eq_some_iff.1 hstep
    split at hrun
    · rename_i hlive
      obtain ⟨⟨body, db⟩, hbody, rfl⟩ := Option.map_eq_some_iff.1 hrun
      exact h.ran hT hlive hok hbody
    · cases hrun
  | commit tx =>
    simp only [State.step] at hstep
    split at hstep
    · rename_i call began a hT
      obtain rfl := Option.some.inj hstep
      obtain ⟨d, hd, hdone⟩ := (h.live tx _ hT rfl).post h.sound
      have hopen := hdone.holds.open h.sound
      have hclean : (u'.db.commit tx).Clean tx :=
        ⟨Slots.clean_commit _ tx, Slots.clean_commit _ tx, Slots.clean_commit _ tx⟩
      exact h.ends hT rfl TxStatus.noConfusion (sound_commit h.sound hdone)
        (fun _ hne => spares_commit hb h.sound hdone.holds hne) hclean
        (fun _ => ⟨⟨a, rfl⟩, hopen, d, hd, closed_commit h.sound hdone⟩) TxStatus.noConfusion hb
    · cases hstep
  | rollback tx =>
    simp only [State.step] at hstep
    split at hstep
    · rename_i call began body hT
      obtain rfl := Option.some.inj hstep
      have hclean : (u'.db.rollback tx).Clean tx :=
        ⟨Slots.clean_rollback _ tx, Slots.clean_rollback _ tx, Slots.clean_rollback _ tx⟩
      refine h.ends hT rfl TxStatus.noConfusion (sound_rollback h.sound) (fun _ hne => spares_rollback h.sound hne) hclean
        TxStatus.noConfusion (fun _ d hd => ?_) hb
      -- What is not settled is not settled by a rollback.
      rcases h.sound.phase with ho | ⟨d', hc⟩
      · exact absurd hd ((open_rollback ho).not_closed hb)
      · have hrolled : Closed _ _ _ d' (u'.db.rollback tx) := closed_rollback hc
        obtain ⟨n, row, ha, -, hrow⟩ := hrolled.audit
        obtain ⟨n', row', ha', -, hrow'⟩ := hd.audit
        obtain rfl := hd.only n n' row row' ha ha'
        obtain ⟨-, x, hx, hx'⟩ := ha
        obtain ⟨-, y, hy, hy'⟩ := ha'
        rw [hx, Option.some.injEq] at hy
        rw [hy, hy', Option.some.injEq] at hx'
        rw [← hrow', hx', hrow]
        exact hc
    · cases hstep

theorem resolving_init (hb : Base w sid r) : Resolving settings w sid r (resolving settings w sid).init where
  sound := by
    have hrow : (Db.of w).sends.get sid = some ⟨some r, none⟩ := by
      show (Slots.ofTable w.sends).get sid = _
      rw [Slots.get_ofTable, hb.row]
      rfl
    refine ⟨.inl ⟨⟨none, hrow⟩, fun n row ha => ?_, fun n => ?_⟩, fun n v tx hv hheld => ?_, Nat.le_refl _, fun _ _ => rfl⟩
    · obtain ⟨hn, v, hv, -⟩ := ha
      have hnone : (Slots.ofTable w.resolutions).get n = none := Table.beyond _ n hn
      cases hv.symm.trans hnone
    · show ((Slots.ofTable w.jobs).get n).bind _ = _
      rw [Slots.get_ofTable]
      cases w.jobs.get n <;> rfl
    · rw [Slots.clean_ofTable w.jobs tx n v hv] at hheld
      cases hheld
  live tx T hT := by cases hT
  idle tx _ := ⟨Slots.clean_ofTable _ tx, Slots.clean_ofTable _ tx, Slots.clean_ofTable _ tx⟩
  committed tx T hT := by cases hT
  one tx tx' T T' hT := by cases hT
  took d hd := by
    exfalso
    obtain ⟨n, row, ⟨hn, v, hv, -⟩, -⟩ := hd.audit
    have hnone : (Slots.ofTable w.resolutions).get n = none := Table.beyond _ n hn
    cases hv.symm.trans hnone
  refused tx T e hT := by cases hT

/-! ## The store the calls find -/

/-- A dedupe key is the key of the job's work. -/
def Keyed (j : Queue.JobRow) : Prop :=
  ∀ k, j.dedupeKey = some k →
    (j.kind = .send ∧ k = sendKey j.refId) ∨ j.kind ≠ .send ∧ ∃ ref : Nat, k = "adapter_run:" ++ toString ref

variable {world world' : World}

theorem Keyed.of_work {j j' : Queue.JobRow} (h : Keyed j) (hw : j'.work = j.work) : Keyed j' := by
  obtain ⟨hkind, hid, -⟩ := Queue.work_inj hw
  simp only [Queue.JobRow.work, Prod.mk.injEq] at hw
  intro k hk
  rw [hkind, hid]
  exact h k (hw.2.2.2 ▸ hk)

theorem keyed_of_move {jobs jobs' : Queue.Jobs} (h : ∀ n j, jobs.get n = some j → Keyed j)
    (hmove : ∀ n, Queue.Move (jobs.get n) (jobs'.get n))
    (hnew : ∀ n j, jobs.get n = none → jobs'.get n = some j → Keyed j) (n : Nat) (j : Queue.JobRow)
    (hj : jobs'.get n = some j) : Keyed j := by
  cases hn : jobs.get n with
  | none => exact hnew n j hn hj
  | some j₀ =>
    have hm := hmove n
    rw [hn, hj] at hm
    obtain ⟨j', he, hwork, -⟩ := hm.keeps
    obtain rfl := Option.some.inj he
    exact (h n j₀ hn).of_work hwork

theorem keyed_of_leaves {jobs jobs' : Queue.Jobs} (h : ∀ n j, jobs.get n = some j → Keyed j) (hl : Leaves jobs jobs')
    (n : Nat) (j : Queue.JobRow) (hj : jobs'.get n = some j) : Keyed j := by
  rcases hl n with he | ⟨j₀, j', hj₀, hj', -, -, hwork, -⟩
  · exact h n j (he ▸ hj)
  · obtain rfl := Option.some.inj (hj.symm.trans hj')
    exact (h n j₀ hj₀).of_work hwork

theorem keyed_adapter (now ref : Nat) : Keyed (Queue.newRow settings now (Store.adapterJob ref)) := by
  intro k hk
  exact .inr ⟨JobKind.noConfusion, ref, (Option.some.inj hk).symm⟩

theorem keyed_booked {o : Op} {w w' : Store} (h : Did settings w o w') {n : Nat} {j : Queue.JobRow}
    (hn : w.jobs.get n = none) (hj : w'.jobs.get n = some j) : Keyed j := by
  intro k hk
  rcases h.booked hn hj with ⟨args, -, -, -, rfl⟩ | ⟨id, userId, partition, rfl, -⟩
  · exact .inl ⟨rfl, (Option.some.inj hk).symm⟩
  · cases hk

theorem keyed_moved {a : Send.Action} (h : ∀ n j, world.store.jobs.get n = some j → Keyed j)
    (hm : Moved settings world a world') (n : Nat) (j : Queue.JobRow) (hj : world'.store.jobs.get n = some j) :
    Keyed j := by
  cases hm with
  | outside _ store hout =>
    have hcases : store.jobs = world.store.jobs ∨ ∃ ref,
        store.jobs = (Queue.enqueue settings world.store.now world.store.jobs (Store.adapterJob ref)).2 := by
      cases a <;> simp only [Store.outside, Option.some.injEq, reduceCtorEq] at hout <;> subst hout
      case planAdapterRun ref => exact .inr ⟨ref, rfl⟩
      all_goals exact .inl rfl
    rcases hcases with he | ⟨ref, he⟩
    · exact h n j (he ▸ hj)
    · rw [show store.jobs = _ from he] at hj
      rcases Queue.enqueue_get settings world.store.now world.store.jobs (Store.adapterJob ref) n with hs | ⟨-, -, hs⟩
      · exact h n j (hs ▸ hj)
      · obtain rfl := Option.some.inj (hj.symm.trans hs)
        exact keyed_adapter _ ref
  | claimed worker limit locked =>
    refine keyed_of_move h Queue.claim_move (fun n j hn hj => ?_) n j hj
    rw [Queue.claim_get, hn] at hj
    split at hj <;> cases hj
  | ran pid e hp hn hs =>
    have hdid := did_of_sem hs
    exact keyed_of_move h (fun n => (hdid.quiet n).move) (fun n j hn hj => keyed_booked hdid hn hj) n j hj
  | executed pid trace draw hp hfree =>
    exact keyed_of_leaves h (leaves_of_finishes (finishJob_finishes _ _ _ _ _ _ _)) n j hj
  | recovered pid trace draw hp => exact keyed_of_leaves h (leaves_applyRecoveries _ _ _) n j hj
  | called | swept | raised | lost | aborted | answered | crashed => exact h n j hj

theorem reach_resolving (hb : Base w sid r)
    (h : (resolving settings w sid).Reach (fun u a => timely u a = true) u') : Resolving settings w sid r u' :=
  Machine.Reach.inv (resolving_init hb) (fun _ _ _ _ hi hok hs => hi.step hb hok hs) h

theorem reach_keyed {ok : World → Send.Action → Prop} (h : (system settings).Reach ok world) :
    ∀ n j, world.store.jobs.get n = some j → Keyed j :=
  Machine.Reach.inv (I := fun w => ∀ n j, w.store.jobs.get n = some j → Keyed j) (fun n j hj => by cases hj)
    (fun _ _ _ _ hi _ hs => keyed_moved hi (moved_of_step hs)) h

theorem base_of_reach {ok : World → Send.Action → Prop} (h : (system settings).Reach ok world)
    (hr : world.store.sends.get sid = some r) (hu : r.state = .uncertain) : Base world.store sid r := by
  refine ⟨hr, hu, fun m n i j hi hj hof hsome hkey => ?_⟩
  simp only [jobOf, Bool.and_eq_true, beq_iff_eq] at hof ⊢
  obtain ⟨k, hk⟩ := Option.isSome_iff_exists.1 hsome
  rcases reach_keyed h m i hi k hk with ⟨-, hik⟩ | ⟨hne, -⟩
  · rcases reach_keyed h n j hj k (hkey.trans hk) with ⟨hkind, hjk⟩ | ⟨-, ref, href⟩
    · exact ⟨hkind, (sendKey_inj (hjk.symm.trans (hik.trans (by rw [hof.2])))) ⟩
    · exact absurd (hik.symm.trans href) (sendKey_ne_adapter i.refId ref)
  · exact absurd hof.1 hne

/-! ## The result -/

/-- Committed by the call: the send as `d` resolves it, one audit row more, of that resolution, and at most one job. -/
structure Settles (w : Store) (sid : Nat) (r : SendRow) (d : Resolution) (s : Db) : Prop where
  row : ∃ began, s.sends.get sid = some ⟨some (resolvedRow began d r), none⟩
  audit : ∃ n row, Audit w s n row ∧ row.sendId = sid ∧ row.resolution = d ∧ ∀ m q, Audit w s m q → m = n
  older : ∀ n row, w.resolutions.get n = some row → s.resolutions.get n = some ⟨some row, none⟩
  job : (s.liveJobs sid).card ≤ 1

/-- One call takes effect, and the others change nothing. -/
structure ResolvedOnce (w : Store) (sid : Nat) (r : SendRow) (u : State) : Prop where
  one : ∀ tx tx' T T', u.txns.get tx = some T → u.txns.get tx' = some T' → T.status = .committed →
    T'.status = .committed → tx = tx'
  effect : ∀ tx T, u.txns.get tx = some T → T.status = .committed →
    ∃ d, RESOLUTIONS.lookup T.call.resolution = some d ∧ Settles w sid r d u.db
  /-- Until one has, nothing is settled. -/
  pending : (∀ tx T, u.txns.get tx = some T → T.status ≠ .committed) → Open w sid r u.db
  /-- A call that answers an error has written nothing; it is improper, or another one took effect. -/
  refused : ∀ tx T e, u.txns.get tx = some T → T.body = .ret (.error e) → T.status ≠ .committed ∧ u.db.Clean tx ∧
    (Proper r T.call → ∃ tx' T', tx' ≠ tx ∧ u.txns.get tx' = some T' ∧ T'.status = .committed)

theorem Resolving.settles (h : Resolving settings w sid r u') (hc : Closed w sid r d u'.db) : Settles w sid r d u'.db where
  row := hc.row
  audit := by
    obtain ⟨n, row, ha, hid, hd⟩ := hc.audit
    exact ⟨n, row, ha, hid, hd, fun m q hq => hc.only m n q row hq ha⟩
  older n row hn := by
    have hlt : n < w.resolutions.next := Table.lt_next_of_get hn
    rw [h.sound.older n hlt, Slots.get_ofTable, hn]
    rfl
  job := hc.job

theorem Resolving.once (h : Resolving settings w sid r u') : ResolvedOnce w sid r u' where
  one := h.one
  effect tx T hT hc := by
    obtain ⟨-, d, hd, hclosed⟩ := h.committed tx T hT hc
    exact ⟨d, hd, h.settles hclosed⟩
  pending hno := by
    rcases h.sound.phase with ho | ⟨d, hc⟩
    · exact ho
    · obtain ⟨tx, T, hT, hcommitted⟩ := h.took d hc
      exact absurd hcommitted (hno tx T hT)
  refused tx T e hT he := by
    have hno : T.status ≠ .committed := by
      intro hc
      obtain ⟨⟨a, ha⟩, -⟩ := h.committed tx T hT hc
      rw [he] at ha
      cases ha
    -- Whether or not it has ended.
    have hpost : u'.db.Clean tx ∧ (Proper r T.call → ∃ d, Closed w sid r d u'.db) := by
      by_cases hlive : T.status = .live
      · have hsafe := h.live tx T hT hlive
        rw [he] at hsafe
        have hpost := hsafe.post h.sound
        cases e with
        | gate _ => exact hpost
        | db _ => exact hpost.elim
      · refine ⟨h.idle tx fun T' hT' => ?_, fun hp => ?_⟩
        · obtain rfl := Option.some.inj (hT.symm.trans hT')
          exact hlive
        · cases hs : T.status with
          | live => exact absurd hs hlive
          | committed => exact absurd hs hno
          | rolledBack => exact h.refused tx T e hT hs he hp
    refine ⟨hno, hpost.1, fun hp => ?_⟩
    obtain ⟨d, hd⟩ := hpost.2 hp
    obtain ⟨tx', T', hT', hc⟩ := h.took d hd
    refine ⟨tx', T', ?_, hT', hc⟩
    rintro rfl
    obtain rfl := Option.some.inj (hT.symm.trans hT')
    exact hno hc

/-- **An uncertain send is resolved once**, by any number of calls in any order, as long as each one that passes its check
comes to its update in time. -/
theorem resolved_once {settings : Settings} {ok : World → Send.Action → Prop} {world : World} {sid : Nat}
    {r : SendRow} {u : State} (hreach : (system settings).Reach ok world) (hr : world.store.sends.get sid = some r)
    (hu : r.state = .uncertain)
    (hruns : (resolving settings world.store sid).Reach (fun u a => timely u a = true) u) :
    ResolvedOnce world.store sid r u :=
  (reach_resolving (base_of_reach hreach hr hu) hruns).once

/-- Of two calls, one resends the send; the other reads it after that, and is refused. -/
def twoCalls : List Action :=
  [.begins ⟨1, "forced_resend", none⟩, .begins ⟨1, "marked_delivered", none⟩] ++
    [0, 0, 0, 0, 0, 0, 0].map .step ++ [.commit 0, .step 1, .rollback 1]

def inDoubtAt (sid : Nat) (w : World) : Bool := (w.store.sends.get sid).any inDoubt

theorem inDoubtAt_iff {sid : Nat} {w : World} (h : inDoubtAt sid w = true) :
    ∃ r, w.store.sends.get sid = some r ∧ r.state = .uncertain := by
  obtain ⟨r, hr, hu⟩ := (Option.any_eq_true _ _).1 h
  exact ⟨r, hr, beq_iff_eq.1 hu⟩

theorem resolved_once_sample : ∃ w r u, (system {}).exec {} doubtfulPost = some w ∧ w.store.sends.get 0 = some r ∧
    (resolving {} w.store 0).exec (resolving {} w.store 0).init twoCalls = some u ∧ ResolvedOnce w.store 0 r u := by
  have hrun : ((system {}).exec (system {}).init doubtfulPost).any (fun w => inDoubtAt 0 w &&
      (resolving {} w.store 0).allowed timely (resolving {} w.store 0).init twoCalls &&
      ((resolving {} w.store 0).exec (resolving {} w.store 0).init twoCalls).isSome) = true := by decide +kernel
  obtain ⟨w, hw, hreach, hp⟩ := Machine.reach_of_exec hrun
  simp only [Bool.and_eq_true] at hp
  obtain ⟨r, hr, hu⟩ := inDoubtAt_iff hp.1.1
  obtain ⟨u, hexec⟩ := Option.isSome_iff_exists.1 hp.2
  have hruns : (resolving {} w.store 0).Reach (fun u a => timely u a = true) u :=
    Machine.Steps.of_exec (fun _ _ h => h) hexec hp.1.2
  exact ⟨w, r, u, hw, hr, hexec, resolved_once hreach hr hu hruns⟩

/-- Both calls pass the check; the one that comes to its update second changes no row, and writes its audit row and its
job all the same. -/
def twoAudits : List Action :=
  [.begins ⟨1, "marked_delivered", none⟩, .begins ⟨1, "forced_resend", none⟩] ++
    [0, 1, 0, 1, 0, 0].map .step ++ [.commit 0] ++ [1, 1, 1, 1, 1].map .step ++ [.commit 1]

def committedAt (tx : Nat) (u : State) : Bool := (u.txns.get tx).any fun T => T.status == .committed

theorem resolved_twice :
    ¬ ∀ (w : World) (sid : Nat) (r : SendRow) (u : State), (system {}).Reach (fun _ _ => True) w →
      w.store.sends.get sid = some r → r.state = .uncertain →
      (resolving {} w.store sid).Reach (fun _ _ => True) u → ResolvedOnce w.store sid r u := by
  intro hclaim
  have hrun : ((system {}).exec (system {}).init doubtfulPost).any (fun w => inDoubtAt 0 w &&
      ((resolving {} w.store 0).exec (resolving {} w.store 0).init twoAudits).any fun u =>
        committedAt 0 u && committedAt 1 u) = true := by decide +kernel
  obtain ⟨w, -, hreach, hp⟩ := Machine.reach_of_exec hrun
  rw [Bool.and_eq_true] at hp
  obtain ⟨r, hr, hu⟩ := inDoubtAt_iff hp.1
  obtain ⟨u, hexec, hboth⟩ := (Option.any_eq_true _ _).1 hp.2
  simp only [committedAt, Bool.and_eq_true] at hboth
  obtain ⟨T, hT, hc⟩ := (Option.any_eq_true _ _).1 hboth.1
  obtain ⟨T', hT', hc'⟩ := (Option.any_eq_true _ _).1 hboth.2
  have honce := hclaim w 0 r u hreach hr hu (Machine.Steps.of_exec_any hexec)
  exact absurd (honce.one 0 1 T T' hT hT' (beq_iff_eq.1 hc) (beq_iff_eq.1 hc')) Nat.zero_ne_one

end Resolve
end Send
end SafeSend
