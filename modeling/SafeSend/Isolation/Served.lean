import SafeSend.Isolation.Enqueued
/-!
# A user's operations on two databases

Each of the ten operations, served from two databases that agree on its user, answers alike but for the numbers of jobs.
An operation reads by its user, or by what it has read so before; the one id that is only handed on is that of the result
a draft replies to.
-/
namespace SafeSend
namespace Isolation

open Lib
open Database
open Send (ConnectionRow DraftView SendOutcome SendPayload DraftChange)

variable {α β : Type} {u id : Nat} {a b a' b' : Database}

namespace Same

variable {R : β → Database → Database → Prop}

/-- A query that both databases answer alike leaves them as they are. -/
theorem read_bind {g : Database → α} {f : α → Tx β} (hg : g a = g b) (hk : Same u R (f (g a)) a b) :
    Same u R (Tx.read g >>= f) a b := by
  have ha : (Tx.read g >>= f) a = f (g a) a := rfl
  have hb : (Tx.read g >>= f) b = f (g b) b := rfl
  unfold Same Coupling.Both at hk ⊢
  rw [ha, hb, ← hg]
  exact hk

end Same

theorem Confined.not_foreign (h : Confined u a a') {k : Nat} (hk : ¬ a.Foreign u k) : ¬ a'.Foreign u k := by
  rintro ⟨r, hr, he, hown⟩
  rw [h.results] at hr
  exact hk ⟨r, hr, he, (h.resultOwners r hr).symm.trans hown⟩

/-! ## Drafts -/

theorem same_connectionById (h : (isolation u).Holds a b) {n : Nat} (hc : HasConnection u n a) :
    Same u (fun _ a' b' => a' = a ∧ b' = b) (connectionById n) a b := by
  obtain ⟨c, hget, hu⟩ := hc
  have hget' := h.agree.connection hget hu
  refine Same.read_bind (hget.trans hget'.symm) ?_
  rw [hget]
  exact Same.pure h ⟨rfl, rfl⟩

theorem connectionById_eq (n : Nat) (db : Database) : connectionById n db =
    (db.connections.get n).elim (.error (notFound "connection")) fun c => .ok (c, db) := by
  unfold connectionById
  rw [Tx.read_bind]
  cases db.connections.get n <;> rfl

theorem resolveConnection_some (channel : ProviderKind) (n : Nat) (db : Database) :
    resolveConnection u channel (some n) db =
      ((db.connections.get n).filter fun c => c.userId == u).elim (.error (notFound "connection")) fun c =>
        .ok ((n, c), db) := by
  show Except.bind (connectionById n db) _ = _
  rw [connectionById_eq]
  cases db.connections.get n with
  | none => rfl
  | some c =>
    show (if c.userId ≠ u then Tx.refuse (notFound "connection") else Pure.pure (n, c) : Tx _) db = _
    by_cases hu : c.userId = u
    · rw [if_neg (not_not.2 hu), Option.filter_some, if_pos (beq_iff_eq.2 hu)]
      rfl
    · rw [if_pos hu, Option.filter_some, if_neg (fun he => hu (beq_iff_eq.1 he))]
      rfl

theorem Agree.connectionOf (h : Agree u a b) (n : Nat) :
    (a.connections.get n).filter (fun c => c.userId == u) = (b.connections.get n).filter fun c => c.userId == u := by
  have hmem (db : Database) (c : ConnectionRow) :
      c ∈ (db.connections.get n).filter (fun c => c.userId == u) ↔
        (n, c) ∈ db.connections.rows.filter fun r => r.2.userId == u := by
    rw [Option.mem_def, Option.filter_eq_some_iff, List.mem_filter, Table.mem_rows]
  ext c
  rw [← Option.mem_def, ← Option.mem_def, hmem a, hmem b, h.connections]

theorem same_resolveConnection (h : (isolation u).Holds a b) (channel : ProviderKind) (connectionId : Option Nat) :
    Same u (fun x a' _ => HasConnection u x.1 a') (resolveConnection u channel connectionId) a b := by
  cases connectionId with
  | some n =>
    have ha := resolveConnection_some (u := u) channel n a
    have hb := resolveConnection_some (u := u) channel n b
    rw [← h.agree.connectionOf n] at hb
    cases hf : (a.connections.get n).filter fun c => c.userId == u with
    | none =>
      rw [hf] at ha hb
      exact Coupling.Both.of_error ha hb
    | some c =>
      rw [hf] at ha hb
      obtain ⟨hget, hu⟩ := Option.filter_eq_some_iff.1 hf
      exact Coupling.Both.of_ok ha hb h.stay ⟨rfl, c, hget, beq_iff_eq.1 hu⟩
  | none =>
    refine Same.read_bind (h.agree.firstConnection channel true) ?_
    cases hf : a.firstConnection u channel true with
    | some found =>
      obtain ⟨hget, hp⟩ := Table.first_eq_some hf
      have hu := (Bool.and_eq_true_iff.1 (Bool.and_eq_true_iff.1 hp).1).1
      exact Same.pure h ⟨found.2, hget, beq_iff_eq.1 hu⟩
    | none => exact Same.read_bind (h.agree.firstConnection channel false) (Same.refuse _)

theorem same_newIdempotencyKey (h : (isolation u).Holds a b) : Same u anything newIdempotencyKey a b :=
  Same.bind (same_draw h) fun _ _ _ hleft _ => Same.pure hleft.holds trivial

theorem same_createDraft (h : (isolation u).Holds a b) (A : Around) {d : NewDraft}
    (hra : ∀ k ∈ d.inReplyToResultId, ¬ a.Foreign u k) (hrb : ∀ k ∈ d.inReplyToResultId, ¬ b.Foreign u k) :
    Same u anything (createDraft A u d) a b := by
  unfold createDraft
  cases d.fault with
  | some message => exact Same.refuse _
  | none =>
    refine Same.bind (same_resolveConnection h d.channel d.connectionId) fun x a₁ b₁ h₁ hc => ?_
    refine Same.bind (same_newIdempotencyKey h₁.holds) fun key a₂ b₂ h₂ _ => ?_
    refine Same.bind (same_draw h₂.holds) fun id a₃ b₃ h₃ hid => ?_
    have hleft := h₁.trans (h₂.trans h₃)
    have hc₃ := (h₂.trans h₃).left.hasConnection hc
    refine Same.bind (same_insertDraft h₃.holds hid.1 hid.2 rfl hc₃ ?_ ?_) fun _ _ _ h₄ _ => Same.pure h₄.holds trivial
    · exact fun k hk => hleft.left.not_foreign (hra k hk)
    · exact fun k hk => hleft.right.not_foreign (hrb k hk)

/-- The draft and the connection a view was read from. -/
def Viewed (u : Nat) (v : DraftView) (a : Database) : Prop :=
  HasConnection u v.confirmation.connectionId a ∧ ∃ d, (v.draft.id, d) ∈ a.drafts ∧ d.userId = u

theorem same_getDraft (h : (isolation u).Holds a b) (id : Nat) :
    Same u (fun v a' b' => a' = a ∧ b' = b ∧ Viewed u v a) (getDraft u id) a b := by
  refine Same.read_bind (h.agree.draftOf id) ?_
  cases hd : a.draftOf u id with
  | none => exact Same.refuse _
  | some row =>
    have hc := h.left.draftOf_connection hd
    obtain ⟨hmem, hdu⟩ := draftOf_mem hd
    refine Same.bind (same_connectionById h hc) fun c a₁ b₁ _ hsame => ?_
    obtain ⟨rfl, rfl⟩ := hsame
    exact Same.pure h ⟨rfl, rfl, hc, row, hmem, hdu⟩

theorem same_updateDraft (h : (isolation u).Holds a b) (A : Around) (id : Nat) (c : DraftChange) :
    Same u anything (updateDraft A u id c) a b := by
  refine Same.bind (same_getDraft h id) fun v a₁ b₁ h₁ _ => ?_
  refine Same.bind (same_writeDraft h₁.holds id (changeOf A v c)) fun row a₂ b₂ h₂ hc => ?_
  exact Same.bind (same_connectionById h₂.holds hc) fun _ _ _ h₃ _ => Same.pure h₃.holds trivial

/-! ## Sends -/

theorem same_replay (h : (isolation u).Holds a b) (A : Around) (id : Nat) (row : SendRow) (confirmed : String) :
    Same u anything (replay A id row confirmed) a b := by
  unfold replay
  split
  · exact Same.refuse _
  · exact Same.pure h trivial

theorem same_claimSend (h : (isolation u).Holds a b) (A : Around) {args : Send.ClaimArgs} (hu : args.userId = u)
    {d : DraftRow} (hd : (args.draftId, d) ∈ a.drafts) (hdu : d.userId = u) (hc : HasConnection u args.connectionId a) :
    Same u (fun r a' _ => r.2.2 = true → a'.ownsSend u r.1 = true) (claimSend A args) a b := by
  subst hu
  refine Same.read_bind (h.agree.sendByKey args.idempotencyKey) ?_
  cases a.sendByKey args.userId args.idempotencyKey with
  | some r => exact Same.pure h fun hwon => by cases hwon
  | none =>
    refine Same.bind (same_drawn h) fun id a₁ b₁ h₁ hdrawn => ?_
    obtain ⟨⟨rfl, rfl⟩, hida, hidb⟩ := hdrawn
    exact Same.bind (same_insertSend h₁.holds hida hidb rfl hd hdu hc) fun _ a₂ b₂ h₂ hs =>
      Same.pure h₂.holds fun _ => hs

theorem keyOf_sendJob (id : Nat) (row : Send.SendRow) :
    ∀ k ∈ (Send.Store.sendJob id row).dedupeKey, k = keyOf .send id := by
  intro k hk
  exact (Option.some.inj hk).symm

theorem same_sendDraft (h : (isolation u).Holds a b) (A : Around) (id : Nat) (confirmed : Option String) :
    Same u anything (sendDraft A u id confirmed) a b := by
  refine Same.bind (same_getDraft h id) fun v a₁ b₁ h₁ hv => ?_
  obtain ⟨rfl, rfl, hc, d, hd, hdu⟩ := hv
  split
  · exact Same.refuse _
  · refine Same.read_bind (h.agree.sendByKey v.draft.idempotencyKey) ?_
    cases a₁.sendByKey u v.draft.idempotencyKey with
    | some r => exact same_replay h A r.1 r.2 _
    | none =>
      show Same u anything (if _ then _ else _) a₁ b₁
      split
      · exact Same.refuse _
      · refine Same.bind (same_claimSend h A rfl hd hdu hc) fun r a₂ b₂ h₂ hwon => ?_
        obtain ⟨sendId, row, won⟩ := r
        cases won with
        | false => exact same_replay h₂.holds A sendId row _
        | true =>
          refine Coupling.Both.bind (both_enqueue h₂.holds (hwon rfl) (keyOf_sendJob sendId row.toSendRow))
            fun _ _ a₃ b₃ h₃ _ => ?_
          exact Same.pure h₃.holds trivial

theorem same_refreshed (h : (isolation u).Holds a b) (id : Nat) : Same u anything (refreshed u id) a b := by
  refine Same.read_bind (h.agree.sendOf id) ?_
  cases a.sendOf u id with
  | none => exact Same.refuse _
  | some row => exact Same.pure h trivial

theorem settles_operatorRetry : Settles Send.operatorRetryRow := fun _ => ⟨rfl, rfl, rfl⟩

theorem settles_attested (now : Nat) : Settles (Send.attestedRow now) := fun _ => ⟨rfl, rfl, rfl⟩

theorem settles_resend : Settles Send.resendRow := fun _ => ⟨rfl, rfl, rfl⟩

theorem ownsSend_of_sendOf {db : Database} {s : SendRow} (hs : db.sendOf u id = some s) : db.ownsSend u id = true := by
  obtain ⟨hmem, hu⟩ := sendOf_mem hs
  exact ownsSend_iff.2 ⟨s, hmem, hu⟩

theorem same_operatorRetry (h : (isolation u).Holds a b) (A : Around) (id : Nat) :
    Same u anything (operatorRetry A u id) a b := by
  refine Same.read_bind (h.agree.sendOf id) ?_
  cases hs : a.sendOf u id with
  | none => exact Same.refuse _
  | some row =>
    have hown : a.ownsSend u id = true := ownsSend_of_sendOf hs
    have hretry : Same u anything (Tx.write (fun db : Database => db.updateSend u id (fun _ => true) Send.operatorRetryRow) >>=
        fun _ => onJobs (retryJobs A id row.partition) >>= fun _ => refreshed u id) a b := by
      have hleft := left_updateSend h id (fun _ => true) settles_operatorRetry
      have hown' : (a.updateSend u id (fun _ => true) Send.operatorRetryRow).ownsSend u id = true := by
        rw [ownsSend_updateSend settles_operatorRetry]
        exact hown
      refine Same.bind (Same.write (P := fun _ a' _ => a'.ownsSend u id = true) hleft hown') fun _ a₁ b₁ h₁ hown₁ => ?_
      refine Same.bind (same_retryJobs h₁.holds hown₁ A row.partition) fun _ a₂ b₂ h₂ _ => ?_
      exact same_refreshed h₂.holds id
    dsimp only
    cases row.state with
    | delivered => exact Same.pure h trivial
    | uncertain => exact Same.refuse _
    | inFlight => exact Same.pure h trivial
    | failedPermanent => exact hretry
    | failedTransient => exact hretry

theorem same_settle (h : (isolation u).Holds a b) (A : Around) (hs : a.ownsSend u id = true) (partition : String)
    (r : Send.Resolution) : Same u anything (settle A u id partition r) a b := by
  cases r with
  | markedDelivered => exact Same.write (left_updateSend h id Send.inDoubt (settles_attested A.now)) trivial
  | forcedResend =>
    have hleft := left_updateSend h id Send.inDoubt settles_resend
    have hown : (a.updateSend u id Send.inDoubt Send.resendRow).ownsSend u id = true := by
      rw [ownsSend_updateSend settles_resend]
      exact hs
    refine Same.bind (Same.write (P := fun _ a' _ => a'.ownsSend u id = true) hleft hown) fun _ a₁ b₁ h₁ hown₁ => ?_
    exact same_resumeOrEnqueue h₁.holds hown₁ partition

theorem same_resolveSend (h : (isolation u).Holds a b) (A : Around) (id : Nat) (resolution : String)
    (note : Option String) : Same u anything (resolveSend A u id resolution note) a b := by
  unfold resolveSend
  cases Send.RESOLUTIONS.lookup resolution with
  | none => exact Same.refuse _
  | some r =>
    refine Same.read_bind (h.agree.sendOf id) ?_
    cases hs : a.sendOf u id with
    | none => exact Same.refuse _
    | some row =>
      have hown : a.ownsSend u id = true := ownsSend_of_sendOf hs
      show Same u anything (if _ then _ else _) a b
      split
      · exact Same.refuse _
      · refine Same.bind (same_insertResolution h rfl hown) fun _ a₁ b₁ h₁ hown₁ => ?_
        refine Same.bind (same_settle h₁.holds A hown₁ row.partition r) fun _ a₂ b₂ h₂ _ => ?_
        exact Same.bind (same_refreshed h₂.holds id) fun _ a₃ b₃ h₃ _ => Same.pure h₃.holds trivial

/-! ## Reads -/

theorem same_sendDetail (h : (isolation u).Holds a b) (A : Around) (id : Nat) :
    Same u anything (sendDetail A u id) a b := by
  refine Same.read_bind (h.agree.detailOf h.left h.right id) ?_
  cases hr : (a.sends.find? fun r => r.1 == id && r.2.userId == u).bind a.joined with
  | none => exact Same.refuse _
  | some row =>
    obtain ⟨r, hfind, -⟩ := Option.bind_eq_some_iff.1 hr
    have hown : a.ownsSend u id = true := List.any_eq_true.2 ⟨r, List.mem_of_find?_eq_some hfind,
      List.find?_some (p := fun r : Nat × SendRow => r.1 == id && r.2.userId == u) hfind⟩
    exact Same.read_bind (h.agree.resolutionOf hown) (Same.pure h trivial)

theorem same_listSends (h : (isolation u).Holds a b) (A : Around) (limit : Nat) (includeSeed : Bool)
    (before : Option (Nat × Nat)) : Same u anything (listSends A u limit includeSeed before) a b :=
  Same.read_bind (h.agree.listed h.left h.right limit includeSeed before) (Same.pure h trivial)

theorem same_loadSnapshot (h : (isolation u).Holds a b) (A : Around) (id : Nat) :
    Same u anything (loadSnapshot A u id) a b := by
  refine Same.read_bind (h.agree.searchOf id) ?_
  cases hs : a.searchOf u id with
  | none => exact Same.pure h trivial
  | some search =>
    obtain ⟨r, hfind, -⟩ := Option.map_eq_some_iff.1 hs
    have hown : a.ownsSearch u id = true := List.any_eq_true.2 ⟨r, List.mem_of_find?_eq_some hfind,
      List.find?_some (p := fun r : Nat × SearchRow => r.1 == id && r.2.userId == u) hfind⟩
    exact Same.read_bind (h.agree.sourcesOf h.left A hown)
      (Same.read_bind (h.agree.resultsOf hown) (Same.pure h trivial))

/-! ## Searches -/

/-- The runs that are to be planned go through connections of the user. -/
theorem fanOut_connection {db : Database} {chosen : List (String × Search.Registration)}
    {planned : String × Option Nat × SourceMode} (h : planned ∈ db.fanOut u chosen) :
    ∀ n ∈ planned.2.1, HasConnection u n db := by
  intro n hn
  obtain ⟨⟨source, reg⟩, -, hmem⟩ := List.mem_flatMap.1 h
  obtain ⟨c, hc, rfl⟩ := List.mem_map.1 hmem
  obtain rfl : c = some n := hn
  have hactive : n ∈ Search.activeConnections { connections := db.connections } u source := by
    unfold Search.connectionsFor at hc
    split at hc
    · split at hc
      · cases List.mem_singleton.1 hc
      · obtain ⟨m, hm, he⟩ := List.mem_map.1 hc
        exact Option.some.inj he ▸ hm
    · cases List.mem_singleton.1 hc
  obtain ⟨r, hr, rfl⟩ := List.mem_map.1 hactive
  obtain ⟨hrow, hp⟩ := List.mem_filter.1 hr
  exact ⟨r.2, Table.mem_rows.1 hrow, beq_iff_eq.1 (Bool.and_eq_true_iff.1 (Bool.and_eq_true_iff.1 hp).1).1⟩

theorem Confined.ownsSearch (h : Confined u a a') (hs : a.ownsSearch u id = true) : a'.ownsSearch u id = true := by
  obtain ⟨s, hmem, hu⟩ := ownsSearch_iff.1 hs
  exact ownsSearch_iff.2 ⟨s, h.searchesStay _ hmem, hu⟩

theorem keyOf_adapterJob (id : Nat) : ∀ k ∈ (Search.adapterJob id).dedupeKey, k = keyOf .adapterRun id := by
  intro k hk
  exact (Option.some.inj hk).symm

theorem both_planRuns (A : Around) (searchId : Nat) :
    ∀ {l : List (String × Option Nat × SourceMode)} {a b : Database}, (isolation u).Holds a b →
      a.ownsSearch u searchId = true → (∀ planned ∈ l, ∀ n ∈ planned.2.1, HasConnection u n a) →
      (isolation u).Both (fun x y _ _ => x.map PlannedRun.plain = y.map PlannedRun.plain) (planRuns A searchId l)
        (planRuns A searchId l) a b
  | [], _, _, h, _, _ => Coupling.Both.pure h rfl
  | (source, connectionId, mode) :: l, a, b, h, hs, hc => by
    refine Coupling.Both.bind (same_draw h) fun id id' a₁ b₁ h₁ hid => ?_
    obtain ⟨rfl, hida, hidb⟩ := hid
    have hrow : ∀ n ∈ connectionId, HasConnection u n a₁ := fun n hn =>
      h₁.left.hasConnection (hc _ List.mem_cons_self n hn)
    have hs₁ := h₁.left.ownsSearch hs
    refine Coupling.Both.bind (same_insertRun h₁.holds hida hidb hs₁ hrow) fun _ _ a₂ b₂ h₂ hrun => ?_
    refine Coupling.Both.bind (both_enqueue h₂.holds hrun.2 (keyOf_adapterJob id')) fun job job' a₃ b₃ h₃ hjob => ?_
    have hleft := h₁.trans (h₂.trans h₃)
    refine Coupling.Both.bind (both_planRuns A searchId hleft.holds (hleft.left.ownsSearch hs) fun planned hp n hn =>
      hleft.left.hasConnection (hc planned (List.mem_cons_of_mem _ hp) n hn)) fun runs runs' a₄ b₄ h₄ hruns => ?_
    refine Coupling.Both.pure h₄.holds ?_
    have hplain : job.map (fun _ => 0) = job'.map fun _ => 0 := by
      cases job <;> cases job' <;> first | rfl | cases hjob
    show _ :: _ = _ :: _
    unfold PlannedRun.plain at hruns ⊢
    rw [hruns, hplain]

theorem both_planSearch (h : (isolation u).Holds a b) (A : Around) (query : String) (sources : List String) :
    (isolation u).Both (fun x y _ _ => (Response.plan x).plain = (Response.plan y).plain)
      (planSearch A u query sources) (planSearch A u query sources) a b := by
  unfold planSearch
  dsimp only
  generalize (if sources.isEmpty then A.registry.defaultSources else sources) = wanted
  cases wanted.isEmpty with
  | true => exact Coupling.Both.refuse _
  | false =>
    cases Search.registrations A.registry wanted with
    | error exn => exact Coupling.Both.refuse _
    | ok chosen =>
      have hread : Same u (fun planned a' b' => a' = a ∧ b' = b ∧ planned = a.fanOut u chosen)
          (Tx.read fun db => db.fanOut u chosen) a b := Same.read h (h.agree.fanOut chosen) ⟨rfl, rfl, rfl⟩
      refine Coupling.Both.bind hread fun planned planned' a₀ b₀ _ hplanned => ?_
      obtain ⟨rfl, rfl, rfl, rfl⟩ := hplanned
      refine Coupling.Both.bind (same_draw h) fun id id' a₁ b₁ h₁ hid => ?_
      obtain ⟨rfl, hida, hidb⟩ := hid
      refine Coupling.Both.bind (same_insertSearch h₁.holds hida hidb rfl) fun _ _ a₂ b₂ h₂ hs => ?_
      have hleft := h₁.trans h₂
      refine Coupling.Both.bind (both_planRuns A id' h₂.holds hs.2 fun planned hp n hn =>
        hleft.left.hasConnection (fanOut_connection hp n hn)) fun runs runs' a₃ b₃ h₃ hruns => ?_
      refine Coupling.Both.pure h₃.holds ?_
      show Response.plan _ = Response.plan _
      rw [hruns]

/-! ## Calls -/

/-- The result a call replies to. -/
def Call.repliesTo (c : Call) : Option Nat :=
  match c.request with
  | .createDraft d => d.inReplyToResultId
  | _ => none

/-- The call replies to no result of another user. -/
def RepliesWithin (u : Nat) (c : Call) (db : Database) : Prop := ∀ k ∈ c.repliesTo, ¬ db.Foreign u k

theorem Same.answer {p : Tx α} {f : α → Response} (h : Same u anything p a b) :
    (isolation u).Both (fun x y _ _ => x.plain = y.plain) (p >>= fun x => Pure.pure (f x))
      (p >>= fun x => Pure.pure (f x)) a b :=
  Coupling.Both.bind h fun _ _ _ _ hleft hxy => Coupling.Both.pure hleft.holds (by rw [hxy.1])

/-- **One call**, which replies to no result of another user, answers alike. -/
theorem both_serve (c : Call) (a b : Database) (h : (isolation u).Holds a b) (hra : RepliesWithin u c a)
    (hrb : RepliesWithin u c b) :
    (isolation u).Both (fun x y _ _ => x.plain = y.plain) (serve u c) (serve u c) a b := by
  obtain ⟨A, request⟩ := c
  cases request with
  | createDraft d => exact (same_createDraft h A hra hrb).answer
  | getDraft id =>
    exact Same.answer ((same_getDraft h id).mono fun _ _ _ _ _ => trivial)
  | updateDraft id change => exact (same_updateDraft h A id change).answer
  | sendDraft id confirmed => exact (same_sendDraft h A id confirmed).answer
  | operatorRetry id => exact (same_operatorRetry h A id).answer
  | resolveSend id resolution note => exact (same_resolveSend h A id resolution note).answer
  | sendDetail id => exact (same_sendDetail h A id).answer
  | listSends limit includeSeed before => exact (same_listSends h A limit includeSeed before).answer
  | planSearch query sources =>
    exact Coupling.Both.bind (both_planSearch h A query sources) fun _ _ _ _ hleft hxy =>
      Coupling.Both.pure hleft.holds hxy
  | loadSnapshot id => exact (same_loadSnapshot h A id).answer

end Isolation
end SafeSend
