import SafeSend.Api.Catalog
import SafeSend.Isolation.Grown
/-!
# What a refused call is answered

Each of the ten operations refuses with a code of the catalog, at the status and the classification the catalog gives
the code, and where a connection is to be repaired the answer says where: at the caller's own connection, if there is
one.
-/
namespace SafeSend
namespace Api

open Lib
open Isolation
open Send (ConnectionRow GateExn SendGateError)

variable {u : Nat} {db : Database}

/-- The envelope of a refusal: none for an exception that nothing handles. -/
def respond : Refusal → Option Envelope
  | .gate (.gate e) => some (gateError e)
  | .gate (.db _) => none
  | .foreignKey => none
  | .search exn => apiError "recipient_invalid" exn.str

/-- The envelope says what the catalog does of its code, and that the code comes in one. -/
def Documented (env : Envelope) : Prop :=
  ∃ s, spec env.code = some s ∧ s.status = env.status ∧ s.classification = env.classification ∧
    s.reachableAsEnvelope = true

/-- An answer that is documented, and has nothing to be repaired. -/
structure Plain (env : Envelope) : Prop where
  documented : Documented env
  code : env.code ≠ "connection_needs_reconnect"
  extra : env.extra = []

def Published (r : Refusal) : Prop := ∀ env, respond r = some env → Plain env

/-- Where a provider's connection is repaired: at the user's first one, of which none is active, or by a first grant where
there is none. -/
inductive Repairs (db : Database) (u : Nat) (channel : ProviderKind) : String → Prop
  | reconnect {id : Nat} {c : ConnectionRow} : db.connections.get id = some c → c.userId = u → c.provider = channel →
      (∀ n d, db.connections.get n = some d → d.userId = u → d.provider = channel → d.status ≠ .active) →
      Repairs db u channel (Send.reconnectUrl id channel)
  | connect : (∀ n d, db.connections.get n = some d → d.userId = u → d.provider ≠ channel) →
      Repairs db u channel ("/v1/connections/" ++ channel.value ++ "/authorize")

/-! ## Refusals of the gate -/

theorem documented_gate {e : SendGateError} {s : ErrorSpec} (hs : s ∈ CATALOG) (hcode : s.code = e.code)
    (hstatus : s.status = e.status) (hclass : s.classification = e.classification)
    (hreach : s.reachableAsEnvelope = true) : Documented (gateError e) :=
  ⟨s, spec_eq_some.2 ⟨hs, hcode⟩, hstatus, hclass, hreach⟩

theorem published_gate {e : SendGateError} {s : ErrorSpec} (hs : s ∈ CATALOG) (hcode : s.code = e.code)
    (hstatus : s.status = e.status) (hclass : s.classification = e.classification)
    (hreach : s.reachableAsEnvelope = true) (hother : s.code ≠ "connection_needs_reconnect")
    (haction : e.actionUrl = none) : Published (.gate (.gate e)) := by
  intro env henv
  cases henv
  refine ⟨documented_gate hs hcode hstatus hclass hreach, fun he => hother (hcode.trans he), ?_⟩
  unfold gateError envelope
  rw [haction]
  rfl

theorem published_notFound (what : String) : Published (notFound what) :=
  published_gate (s := { code := "not_found", status := 404, classification := "permanent" })
    (by decide) rfl rfl rfl rfl (by decide) rfl

theorem published_recipientInvalid (message : String) : Published (.gate (Send.recipientInvalid message)) :=
  published_gate (s := { code := "recipient_invalid", status := 422, classification := "permanent" })
    (by decide) rfl rfl rfl rfl (by decide) rfl

theorem documented_needsReconnect (channel : ProviderKind) (broken : Option (Nat × ConnectionRow)) {env : Envelope}
    (h : respond (needsReconnect channel broken) = some env) : Documented env := by
  cases h
  exact documented_gate (s := { code := "connection_needs_reconnect", status := 409, classification := "needs_reconnect" })
    (by decide) rfl rfl rfl rfl

theorem published_confirmationRequired : Published (.gate Send.confirmationRequired) :=
  published_gate (s := { code := "confirmation_required", status := 422, classification := "permanent" })
    (by decide) rfl rfl rfl rfl (by decide) rfl

theorem published_bodyMismatch : Published (.gate Send.bodyMismatch) :=
  published_gate (s := { code := "idempotency_key_body_mismatch", status := 422, classification := "permanent" })
    (by decide) rfl rfl rfl rfl (by decide) rfl

theorem published_bodyChanged : Published (.gate Send.bodyChanged) :=
  published_gate (s := { code := "body_changed_since_confirmation", status := 422, classification := "permanent" })
    (by decide) rfl rfl rfl rfl (by decide) rfl

theorem published_resolutionRequired : Published (.gate Send.resolutionRequired) :=
  published_gate (s := { code := "resolution_required", status := 409, classification := "permanent" })
    (by decide) rfl rfl rfl rfl (by decide) rfl

theorem published_search (exn : Exn) : Published (.search exn) := by
  intro env henv
  unfold respond apiError at henv
  obtain ⟨s, hs, rfl⟩ := Option.map_eq_some_iff.1 henv
  have hspec : spec "recipient_invalid" =
      some { code := "recipient_invalid", status := 422, classification := "permanent" } := by decide
  cases hspec.symm.trans hs
  have hother : "recipient_invalid" ≠ "connection_needs_reconnect" := by decide
  exact ⟨⟨_, hspec, rfl, rfl, rfl⟩, hother, rfl⟩

theorem published_db (e : Send.DbError) : Published (.gate (.db e)) := fun env henv => by cases henv

theorem published_foreignKey : Published .foreignKey := fun env henv => by cases henv

/-! ## Statements -/

section

variable {α β : Type}

abbrev Refuses (p : Tx α) : Prop := Tx.Refuses Published p

theorem refuses_draw : Refuses draw := fun _ _ h => by cases h

theorem refuses_constrained {texts : List String} {check free present : Bool} {x : α × Database} {e : Refusal}
    (h : (constrain texts check free present >>= fun _ => .ok x) = .error e) : Published e := by
  unfold constrain at h
  split at h
  next => cases h; exact published_db _
  next =>
    split at h
    next => cases h; exact published_db _
    next =>
      split at h
      next => cases h; exact published_db _
      next =>
        split at h
        next => cases h; exact published_foreignKey
        next => cases h

theorem refuses_onJobs (f : Queue.Jobs → Option Queue.Jobs) : Refuses (onJobs f) := by
  intro db e h
  unfold onJobs at h
  split at h
  next => cases h
  next =>
    cases h
    exact published_db _

/-! ## Operations -/

theorem refuses_connectionById (n : Nat) : Refuses (connectionById n) := by
  refine .bind (.read _) fun c => ?_
  cases c with
  | none => exact .refuse (published_notFound _)
  | some c => exact .pure c

/-- What a draft is refused for: its connection is not the user's, or the user has no active one. -/
theorem resolveConnection_refused {channel : ProviderKind} {connectionId : Option Nat} {r : Refusal}
    (h : resolveConnection u channel connectionId db = .error r) : Published r ∨
      r = needsReconnect channel (db.firstConnection u channel false) ∧ db.firstConnection u channel true = none := by
  cases connectionId with
  | some n =>
    rw [resolveConnection_some] at h
    cases hf : (db.connections.get n).filter fun c => c.userId == u with
    | none =>
      rw [hf] at h
      cases h
      exact .inl (published_notFound _)
    | some c =>
      rw [hf] at h
      cases h
  | none =>
    cases hf : db.firstConnection u channel true with
    | some found =>
      have hfound : resolveConnection u channel none db = .ok (found, db) := by
        unfold resolveConnection
        dsimp only
        rw [Tx.read_bind, hf]
        rfl
      cases hfound.symm.trans h
    | none =>
      have hrefused : resolveConnection u channel none db =
          .error (needsReconnect channel (db.firstConnection u channel false)) := by
        unfold resolveConnection
        dsimp only
        rw [Tx.read_bind, hf]
        rfl
      cases hrefused.symm.trans h
      exact .inr ⟨rfl, rfl⟩

theorem createDraft_refused {A : Around} {d : NewDraft} {r : Refusal} (h : createDraft A u d db = .error r) :
    Published r ∨
      r = needsReconnect d.channel (db.firstConnection u d.channel false) ∧
        db.firstConnection u d.channel true = none := by
  unfold createDraft at h
  cases hfault : d.fault with
  | some message =>
    rw [hfault] at h
    cases h
    exact .inl (published_recipientInvalid message)
  | none =>
    rw [hfault] at h
    cases hresolve : resolveConnection u d.channel d.connectionId db with
    | error e =>
      cases (Tx.bind_of_error _ hresolve).symm.trans h
      exact resolveConnection_refused hresolve
    | ok found =>
      have hrest := (Tx.bind_of_ok _ hresolve).symm.trans h
      refine .inl (Tx.Refuses.bind (.bind refuses_draw fun _ => .pure _) (fun key => ?_) _ _ hrest)
      exact .bind refuses_draw fun id => .bind (fun _ _ h => refuses_constrained h) fun _ => .pure _

theorem refuses_getDraft (u id : Nat) : Refuses (getDraft u id) := by
  refine .bind (.read _) fun row => ?_
  cases row with
  | none => exact .refuse (published_notFound _)
  | some row => exact .bind (refuses_connectionById row.connectionId) fun _ => .pure _

theorem refuses_writeDraft (u id : Nat) (e : Send.DraftEdit) : Refuses (writeDraft u id e) := by
  intro db r h
  unfold writeDraft at h
  split at h
  next =>
    cases h
    exact published_db _
  next => exact refuses_constrained h

theorem refuses_updateDraft (A : Around) (u id : Nat) (c : Send.DraftChange) : Refuses (updateDraft A u id c) :=
  .bind (refuses_getDraft u id) fun current => .bind (refuses_writeDraft u id (changeOf A current c)) fun row =>
    .bind (refuses_connectionById row.connectionId) fun _ => .pure _

theorem refuses_replay (A : Around) (id : Nat) (row : SendRow) (confirmed : String) :
    Refuses (replay A id row confirmed) := by
  unfold replay
  split
  · exact .refuse published_bodyMismatch
  · exact .pure _

theorem refuses_claimSend (A : Around) (a : Send.ClaimArgs) : Refuses (claimSend A a) := by
  refine .bind (.read _) fun held => ?_
  cases held with
  | some r => exact .pure _
  | none => exact .bind refuses_draw fun id => .bind (fun _ _ h => refuses_constrained h) fun _ => .pure _

theorem refuses_sendDraft (A : Around) (u id : Nat) (confirmed : Option String) :
    Refuses (sendDraft A u id confirmed) := by
  refine .bind (refuses_getDraft u id) fun view => ?_
  split
  · exact .refuse published_confirmationRequired
  · refine .bind (.read _) fun held => ?_
    cases held with
    | some r => exact refuses_replay A r.1 r.2 _
    | none =>
      show Refuses (if _ then _ else _)
      split
      · exact .refuse published_bodyChanged
      · refine .bind (refuses_claimSend A _) fun r => ?_
        obtain ⟨sendId, row, won⟩ := r
        cases won with
        | false => exact refuses_replay A sendId row _
        | true => exact .bind (fun _ _ h => by cases h) fun _ => .pure _

theorem refuses_refreshed (u id : Nat) : Refuses (refreshed u id) := by
  refine .bind (.read _) fun row => ?_
  cases row with
  | none => exact .refuse (published_db _)
  | some row => exact .pure _

theorem refuses_operatorRetry (A : Around) (u id : Nat) : Refuses (operatorRetry A u id) := by
  refine .bind (.read _) fun row => ?_
  cases row with
  | none => exact .refuse (published_notFound _)
  | some row =>
    have hretry : Refuses (Tx.write (fun db : Database => db.updateSend u id (fun _ => true) Send.operatorRetryRow) >>=
        fun _ => onJobs (retryJobs A id row.partition) >>= fun _ => refreshed u id) :=
      .bind (.write _) fun _ => .bind (refuses_onJobs _) fun _ => refuses_refreshed u id
    dsimp only
    cases row.state with
    | delivered => exact .pure _
    | uncertain => exact .refuse published_resolutionRequired
    | inFlight => exact .pure _
    | failedPermanent => exact hretry
    | failedTransient => exact hretry

theorem refuses_resolveSend (A : Around) (u id : Nat) (resolution : String) (note : Option String) :
    Refuses (resolveSend A u id resolution note) := by
  unfold resolveSend
  cases Send.RESOLUTIONS.lookup resolution with
  | none => exact .refuse (published_recipientInvalid _)
  | some r =>
    refine .bind (.read _) fun row => ?_
    cases row with
    | none => exact .refuse (published_notFound _)
    | some row =>
      have hsettle : Refuses (settle A u id row.partition r) := by
        cases r with
        | markedDelivered => exact .write _
        | forcedResend => exact .bind (.write _) fun _ => refuses_onJobs _
      show Refuses (if _ then _ else _)
      split
      · exact .refuse (published_recipientInvalid _)
      · exact .bind (fun _ _ h => refuses_constrained h) fun _ => .bind hsettle fun _ =>
          .bind (refuses_refreshed u id) fun _ => .pure _

theorem refuses_sendDetail (A : Around) (u id : Nat) : Refuses (sendDetail A u id) := by
  refine .bind (.read _) fun row => ?_
  cases row with
  | none => exact .refuse (published_notFound _)
  | some row => exact .bind (.read _) fun _ => .pure _

theorem refuses_planRuns (A : Around) (searchId : Nat) : ∀ l : List (String × Option Nat × SourceMode),
    Refuses (planRuns A searchId l)
  | [] => .pure _
  | _ :: l => .bind refuses_draw fun id => .bind (fun _ _ h => refuses_constrained h) fun _ =>
      .bind (fun _ _ h => by cases h) fun _ => .bind (refuses_planRuns A searchId l) fun _ => .pure _

theorem refuses_planSearch (A : Around) (u : Nat) (query : String) (sources : List String) :
    Refuses (planSearch A u query sources) := by
  unfold planSearch
  dsimp only
  generalize (if sources.isEmpty then A.registry.defaultSources else sources) = wanted
  cases wanted.isEmpty with
  | true => exact .refuse (published_search _)
  | false =>
    cases Search.registrations A.registry wanted with
    | error exn => exact .refuse (published_search exn)
    | ok chosen =>
      exact .bind (.read _) fun planned => .bind refuses_draw fun id => .bind (fun _ _ h => refuses_constrained h) fun _ =>
        .bind (refuses_planRuns A id planned) fun _ => .pure _

theorem refuses_loadSnapshot (A : Around) (u id : Nat) : Refuses (loadSnapshot A u id) := by
  refine .bind (.read _) fun search => ?_
  cases search with
  | none => exact .pure _
  | some search => exact .bind (.read _) fun _ => .bind (.read _) fun _ => .pure _

/-- Every operation but the one that picks a connection. -/
theorem refuses_serve (u : Nat) {c : Call} (hc : ∀ d, c.request ≠ .createDraft d) : Refuses (serve u c) := by
  obtain ⟨A, request⟩ := c
  cases request with
  | createDraft d => exact absurd rfl (hc d)
  | getDraft id => exact .bind (refuses_getDraft u id) fun _ => .pure _
  | updateDraft id change => exact .bind (refuses_updateDraft A u id change) fun _ => .pure _
  | sendDraft id confirmed => exact .bind (refuses_sendDraft A u id confirmed) fun _ => .pure _
  | operatorRetry id => exact .bind (refuses_operatorRetry A u id) fun _ => .pure _
  | resolveSend id resolution note => exact .bind (refuses_resolveSend A u id resolution note) fun _ => .pure _
  | sendDetail id => exact .bind (refuses_sendDetail A u id) fun _ => .pure _
  | listSends limit includeSeed before => exact .bind (.bind (.read _) fun _ => .pure _) fun _ => .pure _
  | planSearch query sources => exact .bind (refuses_planSearch A u query sources) fun _ => .pure _
  | loadSnapshot id => exact .bind (refuses_loadSnapshot A u id) fun _ => .pure _

end

/-! ## What a client is told -/

theorem needsReconnect_repairs {channel : ProviderKind} (hnone : db.firstConnection u channel true = none) {env : Envelope}
    (h : respond (needsReconnect channel (db.firstConnection u channel false)) = some env) :
    env.code = "connection_needs_reconnect" ∧
      ∃ url, Repairs db u channel url ∧ env.extra = [("action_url", url), ("reconnect_url", url)] := by
  have hinactive (n : Nat) (d : ConnectionRow) (hget : db.connections.get n = some d) (hu : d.userId = u)
      (hp : d.provider = channel) : d.status ≠ .active := by
    intro hactive
    have hmatch := Table.first_eq_none hnone n d hget
    rw [hu, hp, hactive, beq_self_eq_true, beq_self_eq_true] at hmatch
    cases hmatch
  cases hf : db.firstConnection u channel false with
  | none =>
    rw [hf] at h
    cases h
    refine ⟨rfl, _, .connect fun n d hget hu hp => ?_, rfl⟩
    have hmatch := Table.first_eq_none hf n d hget
    rw [hu, hp, beq_self_eq_true, beq_self_eq_true] at hmatch
    cases hmatch
  | some found =>
    obtain ⟨id, c⟩ := found
    rw [hf] at h
    cases h
    obtain ⟨hget, hp⟩ := Table.first_eq_some hf
    obtain ⟨hu, hprovider⟩ := Bool.and_eq_true_iff.1 (Bool.and_eq_true_iff.1 hp).1
    exact ⟨rfl, _, .reconnect hget (beq_iff_eq.1 hu) (beq_iff_eq.1 hprovider) hinactive, rfl⟩

/-- **A refusal of the ten operations is answered as the catalog documents it**, in an envelope that can be reached.  Only
a draft's connection can be wanting, and the answer then has one address, where the caller's own of the draft's channel is
repaired or made. -/
theorem refusals_published {c : Call} {r : Refusal} {env : Envelope} (h : serve u c db = .error r)
    (henv : respond r = some env) : Documented env ∧
      (env.code ≠ "connection_needs_reconnect" ∧ env.extra = [] ∨ env.code = "connection_needs_reconnect" ∧
        ∃ d url, c.request = .createDraft d ∧ Repairs db u d.channel url ∧
          env.extra = [("action_url", url), ("reconnect_url", url)]) := by
  have hcases : Published r ∨ ∃ d, c.request = .createDraft d ∧
      r = needsReconnect d.channel (db.firstConnection u d.channel false) ∧ db.firstConnection u d.channel true = none := by
    obtain ⟨A, request⟩ := c
    cases request with
    | createDraft d =>
      cases hcreate : createDraft A u d db with
      | error e =>
        cases (Tx.bind_of_error _ hcreate).symm.trans h
        exact (createDraft_refused hcreate).imp id fun hr => ⟨d, rfl, hr⟩
      | ok v => cases (Tx.bind_of_ok _ hcreate).symm.trans h
    | _ => exact .inl (refuses_serve u (fun d he => by cases he) db r h)
  rcases hcases with hplain | ⟨d, hrequest, rfl, hnone⟩
  · exact ⟨(hplain env henv).documented, .inl ⟨(hplain env henv).code, (hplain env henv).extra⟩⟩
  · obtain ⟨hcode, url, hrepairs, hextra⟩ := needsReconnect_repairs hnone henv
    exact ⟨documented_needsReconnect _ _ henv, .inr ⟨hcode, d, url, hrequest, hrepairs, hextra⟩⟩

theorem refusals_published_stranger : ∃ r env, serve 3 (replyTo 4) found = .error r ∧ respond r = some env ∧
    Documented env ∧ ∃ url, Repairs found 3 .gmail url ∧ env.extra = [("action_url", url), ("reconnect_url", url)] := by
  obtain ⟨r, env, h, henv, hcode⟩ : ∃ r env, serve 3 (replyTo 4) found = .error r ∧ respond r = some env ∧
      env.code = "connection_needs_reconnect" := ⟨_, _, rfl, rfl, rfl⟩
  obtain ⟨hdocumented, ⟨hother, -⟩ | ⟨-, d, url, hrequest, hrepairs, hextra⟩⟩ := refusals_published h henv
  · exact absurd hcode hother
  · cases hrequest
    exact ⟨r, env, h, henv, hdocumented, url, hrepairs, hextra⟩

end Api
end SafeSend
