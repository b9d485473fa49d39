import SafeSend.Isolation.Grown
/-!
# What was asked reads back

A search that was planned is shown to its user with the runs that were planned for it, each with a job of its own, and
goes on to be whatever any user calls afterwards.  So does the view of a draft, but for its owner's edits of it.
-/
namespace SafeSend
namespace Isolation

open Lib
open Database
open Send (ConnectionRow DraftView DraftChange)
open Search (AdapterRunRow)

variable {u v id : Nat} {db db' : Database} {E : Nat → Nat → Prop} {A : Around} {query : String} {sources : List String}
  {plan : SearchPlan}

/-! ## The runs of a plan -/

/-- The row a run was planned with. -/
def PlannedRun.row (searchId : Nat) (r : PlannedRun) : Nat × AdapterRunRow :=
  (r.adapterRunId, { searchId := searchId, source := r.source, connectionId := r.connectionId, mode := r.mode })

/-- What is shown of it while nothing has run it. -/
def PlannedRun.pending (db : Database) (r : PlannedRun) : SourceStatus where
  source := r.source
  status := .pending
  mode := r.mode
  resultCount := 0
  errorClass := none
  errorDetail := none
  connectionId := r.connectionId
  displayName := r.connectionId.bind fun c => (db.connections.get c).map (·.displayName)

/-- The database with a run more, and its job. -/
def Database.withRun (db : Database) (A : Around) (searchId : Nat) (source : String) (connectionId : Option Nat)
    (mode : SourceMode) : Database :=
  { db with
    drawn := db.drawn + 1
    runs := db.runs ++ [(db.uuids db.drawn,
      { searchId := searchId, source := source, connectionId := connectionId, mode := mode })]
    jobs := (Queue.enqueue A.settings A.now db.jobs (Search.adapterJob (db.uuids db.drawn))).2 }

theorem planRuns_cons {searchId : Nat} {source : String} {connectionId : Option Nat} {mode : SourceMode}
    {l : List (String × Option Nat × SourceMode)} {runs : List PlannedRun}
    (h : planRuns A searchId ((source, connectionId, mode) :: l) db = .ok (runs, db')) :
    ∃ rest, planRuns A searchId l (db.withRun A searchId source connectionId mode) = .ok (rest, db') ∧
      runs = ⟨source, db.uuids db.drawn,
        (Queue.enqueue A.settings A.now db.jobs (Search.adapterJob (db.uuids db.drawn))).1, connectionId, mode⟩ :: rest := by
  obtain ⟨runId, s₁, hid, h₁⟩ := Tx.bind_ok h
  obtain ⟨x, s₂, hrun, h₂⟩ := Tx.bind_ok h₁
  obtain ⟨jobId, s₃, hjob, h₃⟩ := Tx.bind_ok h₂
  obtain ⟨rest, s₄, hrest, h₄⟩ := Tx.bind_ok h₃
  cases hid
  cases constrained_ok hrun
  cases hjob
  cases h₄
  exact ⟨rest, hrest, rfl⟩

/-- The rest of the database is what it was. -/
structure RunsAdded (searchId : Nat) (runs : List PlannedRun) (db db' : Database) : Prop where
  runs : db'.runs = db.runs ++ runs.map (PlannedRun.row searchId)
  connections : db'.connections = db.connections
  results : db'.results = db.results
  searches : db'.searches = db.searches
  drafts : db'.drafts = db.drafts

theorem planRuns_added (A : Around) (searchId : Nat) : ∀ {l : List (String × Option Nat × SourceMode)} {db db' : Database}
    {runs : List PlannedRun}, planRuns A searchId l db = .ok (runs, db') → RunsAdded searchId runs db db'
  | [], db, _, _, h => by
    cases h
    exact ⟨(List.append_nil _).symm, rfl, rfl, rfl, rfl⟩
  | _ :: l, db, db', runs, h => by
    obtain ⟨rest, hrest, rfl⟩ := planRuns_cons h
    have hadded := planRuns_added A searchId hrest
    refine ⟨?_, hadded.connections, hadded.results, hadded.searches, hadded.drafts⟩
    rw [hadded.runs]
    exact List.append_assoc _ _ _

/-- No job refers to an id that is still to be drawn, and a job's key names what it refers to. -/
structure Fresh (db : Database) : Prop where
  jobKey : ∀ n j, db.jobs.get n = some j → ∀ k ∈ j.dedupeKey, k = keyOf j.kind j.refId
  unused : ∀ k, db.drawn ≤ k → ∀ n j, db.jobs.get n = some j → j.refId ≠ db.uuids k
  distinct : Function.Injective db.uuids

theorem Database.Sound.fresh (h : db.Sound) : Fresh db := ⟨h.jobKey, fun k hk => (h.unused k hk).jobs, h.distinct⟩

/-- **The job of a run whose id was drawn for it** is no duplicate. -/
theorem Fresh.enqueue (h : Fresh db) (settings : Settings) (now : Nat) :
    Queue.enqueue settings now db.jobs (Search.adapterJob (db.uuids db.drawn)) = (some db.jobs.next,
      db.jobs.insert (Queue.newRow settings now (Search.adapterJob (db.uuids db.drawn)))) := by
  refine if_neg fun hdup => ?_
  obtain ⟨n, j, hget, hp⟩ := Table.any_eq_true.1 (Bool.and_eq_true_iff.1 hdup).2
  have hkey : j.dedupeKey = some (keyOf .adapterRun (db.uuids db.drawn)) := beq_iff_eq.1 (Bool.and_eq_true_iff.1 hp).1
  have hsame := h.jobKey n j hget _ hkey
  exact h.unused db.drawn (Nat.le_refl _) n j hget (keyOf_inj hsame).2.symm

theorem Fresh.withRun (h : Fresh db) (A : Around) (searchId : Nat) (source : String) (connectionId : Option Nat)
    (mode : SourceMode) : Fresh (db.withRun A searchId source connectionId mode) := by
  have hjobs : (db.withRun A searchId source connectionId mode).jobs =
      db.jobs.insert (Queue.newRow A.settings A.now (Search.adapterJob (db.uuids db.drawn))) :=
    congrArg Prod.snd (h.enqueue A.settings A.now)
  refine ⟨fun n j hget => ?_, fun k hk n j hget => ?_, h.distinct⟩
  · rw [hjobs] at hget
    rcases Table.get_insert_cases hget with ⟨-, rfl⟩ | ⟨-, hget⟩
    · exact keyOf_adapterJob _
    · exact h.jobKey n j hget
  · rw [hjobs] at hget
    rcases Table.get_insert_cases hget with ⟨-, rfl⟩ | ⟨-, hget⟩
    · intro he
      have hdrawn : db.drawn = k := h.distinct he
      exact Nat.not_succ_le_self _ (hdrawn ▸ hk)
    · exact h.unused k (Nat.le_of_succ_le hk) n j hget

/-- **Each run has a job of its own**, ready to be claimed, and the jobs that were there are still. -/
theorem planRuns_jobs (A : Around) (searchId : Nat) : ∀ {l : List (String × Option Nat × SourceMode)} {db db' : Database}
    {runs : List PlannedRun}, Fresh db → planRuns A searchId l db = .ok (runs, db') →
      (∀ n j, db.jobs.get n = some j → db'.jobs.get n = some j) ∧
        ∀ r ∈ runs, ∃ n, r.jobId = some n ∧
          db'.jobs.get n = some (Queue.newRow A.settings A.now (Search.adapterJob r.adapterRunId))
  | [], db, _, _, _, h => by
    cases h
    exact ⟨fun _ _ hget => hget, fun r hr => by cases hr⟩
  | _ :: l, db, db', runs, hfresh, h => by
    obtain ⟨rest, hrest, rfl⟩ := planRuns_cons h
    have hqueued := hfresh.enqueue A.settings A.now
    obtain ⟨hstay, hjobs⟩ := planRuns_jobs A searchId (hfresh.withRun A searchId _ _ _) hrest
    unfold Database.withRun at hstay
    rw [hqueued] at hstay ⊢
    refine ⟨fun n j hget => hstay n j (Table.get_insert_of_get _ hget), fun r hr => ?_⟩
    rcases List.mem_cons.1 hr with rfl | hr
    · exact ⟨db.jobs.next, rfl, hstay _ _ (Table.get_insert_self _ _)⟩
    · exact hjobs r hr

/-! ## A plan -/

/-- The search's row, its runs' after it, and their jobs. -/
structure Planned (A : Around) (u : Nat) (query : String) (plan : SearchPlan) (db db' : Database) : Prop where
  searches : db'.searches = db.searches ++ [(plan.searchId, { userId := u, query := query, createdAt := A.now })]
  runs : db'.runs = db.runs ++ plan.runs.map (PlannedRun.row plan.searchId)
  query : plan.query = query
  drawn : plan.searchId = db.uuids db.drawn
  connections : db'.connections = db.connections
  results : db'.results = db.results
  drafts : db'.drafts = db.drafts
  ready : KeepsReady db.jobs db'.jobs
  jobs : ∀ r ∈ plan.runs, ∃ n, r.jobId = some n ∧
    db'.jobs.get n = some (Queue.newRow A.settings A.now (Search.adapterJob r.adapterRunId))

theorem planSearch_ok (hs : db.Sound) (h : planSearch A u query sources db = .ok (plan, db')) :
    Planned A u query plan db db' := by
  unfold planSearch at h
  generalize (if sources.isEmpty then A.registry.defaultSources else sources) = wanted at h
  split at h
  next => cases h
  next =>
    cases hchosen : Search.registrations A.registry wanted with
    | error exn =>
      rw [hchosen] at h
      cases h
    | ok chosen =>
      rw [hchosen] at h
      obtain ⟨planned, s₀, hread, h₀⟩ := Tx.bind_ok h
      obtain ⟨searchId, s₁, hid, h₁⟩ := Tx.bind_ok h₀
      obtain ⟨x, s₂, hinsert, h₂⟩ := Tx.bind_ok h₁
      obtain ⟨runs, s₃, hruns, h₃⟩ := Tx.bind_ok h₂
      cases hread
      cases hid
      cases constrained_ok hinsert
      cases h₃
      have hfresh : Fresh { db with drawn := db.drawn + 1, searches := db.searches ++ [(db.uuids db.drawn,
          { userId := u, query := query, createdAt := A.now })] } := { hs.draw.fresh with }
      obtain ⟨hadded, hconnections, hresults, hsearches, hdrafts⟩ := planRuns_added A _ hruns
      obtain ⟨hstay, hjobs⟩ := planRuns_jobs A _ hfresh hruns
      exact ⟨hsearches, hadded, rfl, rfl, hconnections, hresults, hdrafts, fun n j hj _ => hstay n j hj, hjobs⟩

namespace Planned

variable (h : Planned A u query plan db db') (hs : db.Sound)
include h hs

theorem unused : db.Unused plan.searchId := h.drawn ▸ hs.unused db.drawn (Nat.le_refl _)

theorem grown : Grown E db db' where
  connections := h.connections
  results := h.results
  searches := ⟨_, h.searches⟩
  runs := by
    refine ⟨_, h.runs, fun r hr s hmem => ?_⟩
    obtain ⟨p, -, rfl⟩ := List.mem_map.1 hr
    exact (h.unused hs).searches s hmem
  drafts := fun _ _ _ _ hd => by
    unfold draftOf at hd ⊢
    rw [h.drafts]
    exact hd
  ready := h.ready

theorem searchOf :
    db'.searchOf u plan.searchId = some { userId := u, query := query, createdAt := A.now } := by
  have hnone : (db.searches.find? fun r => r.1 == plan.searchId && r.2.userId == u) = none := by
    refine List.find?_eq_none.2 fun r hr hp => ?_
    exact (h.unused hs).searches r hr (beq_iff_eq.1 (Bool.and_eq_true_iff.1 hp).1)
  unfold Database.searchOf
  rw [h.searches, List.find?_append, hnone, Option.none_or, List.find?_cons_of_pos]
  · rfl
  · exact Bool.and_eq_true_iff.2 ⟨beq_self_eq_true _, beq_self_eq_true u⟩

theorem sourcesOf (B : Around) :
    (db'.sourcesOf B plan.searchId).Perm (plan.runs.map (PlannedRun.pending db)) := by
  have hold : (db.runs.filter fun r => r.2.searchId == plan.searchId) = [] :=
    List.filter_eq_nil_iff.2 fun r hr he => hs.searchId_ne (h.unused hs) hr (beq_iff_eq.1 he)
  have hnew : ((plan.runs.map (PlannedRun.row plan.searchId)).filter fun r => r.2.searchId == plan.searchId) =
      plan.runs.map (PlannedRun.row plan.searchId) := by
    refine List.filter_eq_self.2 fun r hr => ?_
    obtain ⟨p, -, rfl⟩ := List.mem_map.1 hr
    exact beq_self_eq_true _
  unfold Database.sourcesOf
  rw [h.runs, List.filter_append, hold, hnew, List.nil_append, h.connections]
  refine ((List.mergeSort_perm _ _).map _).trans ?_
  rw [List.map_map, List.map_map]
  exact List.Perm.refl _

theorem resultsOf : db'.resultsOf plan.searchId = [] := by
  have hnone : (db.results.filter fun r => r.2.searchId == plan.searchId) = [] :=
    List.filter_eq_nil_iff.2 fun r hr he => hs.result_searchId_ne (h.unused hs) hr (beq_iff_eq.1 he)
  unfold Database.resultsOf
  rw [h.results, hnone]
  rfl

theorem snapshot (B : Around) : ∃ shown, loadSnapshot B u plan.searchId db' = .ok (some shown, db') ∧
    shown.searchId = plan.searchId ∧ shown.query = query ∧ shown.isSeed = false ∧ shown.finished = false ∧
    shown.merged = some [] ∧ shown.sources.Perm (plan.runs.map (PlannedRun.pending db)) := by
  have hload : loadSnapshot B u plan.searchId db' = .ok (some ⟨plan.searchId, query, false, false,
      db'.sourcesOf B plan.searchId, Search.snapshotMerged B.isoformat (db'.resultsOf plan.searchId)⟩, db') := by
    unfold loadSnapshot
    rw [Tx.read_bind, h.searchOf hs]
    rfl
  rw [h.resultsOf hs] at hload
  exact ⟨_, hload, rfl, rfl, rfl, rfl, rfl, h.sourcesOf hs B⟩

end Planned

/-! ## What is shown of a grown database -/

theorem searchOf_mem {s : SearchRow} (hs : db.searchOf u id = some s) : (id, s) ∈ db.searches ∧ s.userId = u := by
  obtain ⟨⟨n, s'⟩, hr, rfl⟩ := Option.map_eq_some_iff.1 hs
  have hp := List.find?_some (p := fun r : Nat × SearchRow => r.1 == id && r.2.userId == u) hr
  obtain ⟨hn, hu⟩ := Bool.and_eq_true_iff.1 hp
  exact ⟨beq_iff_eq.1 hn ▸ List.mem_of_find?_eq_some hr, beq_iff_eq.1 hu⟩

theorem Grown.searchOf (h : Grown E db db') {s : SearchRow} (hs : db.searchOf u id = some s) :
    db'.searchOf u id = some s := by
  obtain ⟨l, hl⟩ := h.searches
  obtain ⟨r, hr, rfl⟩ := Option.map_eq_some_iff.1 hs
  unfold Database.searchOf
  rw [hl, List.find?_append, hr]
  rfl

/-- **A search that is there is shown as it was.** -/
theorem Grown.snapshot (h : Grown E db db') (A : Around) {s : SearchRow} (hs : db.searchOf u id = some s) :
    ∃ shown, loadSnapshot A u id db = .ok (some shown, db) ∧ loadSnapshot A u id db' = .ok (some shown, db') := by
  obtain ⟨l, hl, hfresh⟩ := h.runs
  have hmem := (searchOf_mem hs).1
  have hruns : (db'.runs.filter fun r => r.2.searchId == id) = db.runs.filter fun r => r.2.searchId == id := by
    have hnone : (l.filter fun r => r.2.searchId == id) = [] :=
      List.filter_eq_nil_iff.2 fun r hr he => hfresh r hr (id, s) hmem (beq_iff_eq.1 he).symm
    rw [hl, List.filter_append, hnone, List.append_nil]
  have hsources : db'.sourcesOf A id = db.sourcesOf A id := by
    unfold Database.sourcesOf
    rw [hruns, h.connections]
  have hresults : db'.resultsOf id = db.resultsOf id := by
    unfold Database.resultsOf
    rw [h.results]
  refine ⟨⟨id, s.query, s.isSeed, s.finishedAt.isSome, db.sourcesOf A id,
    Search.snapshotMerged A.isoformat (db.resultsOf id)⟩, ?_, ?_⟩
  · unfold loadSnapshot
    rw [Tx.read_bind, hs]
    rfl
  · unfold loadSnapshot
    rw [Tx.read_bind, h.searchOf hs, ← hsources, ← hresults]
    rfl

theorem getDraft_ok_iff {view : DraftView} : getDraft u id db = .ok (view, db') ↔ db' = db ∧ ∃ row c,
    db.draftOf u id = some row ∧ db.connections.get row.connectionId = some c ∧
      view = Send.draftView id row.toDraftRow row.connectionId c := by
  unfold getDraft
  rw [Tx.read_bind]
  cases hd : db.draftOf u id with
  | none => exact ⟨(fun h => by cases h), fun ⟨_, _, _, h, _⟩ => by cases h⟩
  | some row =>
    have hbind : (connectionById row.connectionId >>= fun c =>
        Pure.pure (Send.draftView id row.toDraftRow row.connectionId c) : Tx DraftView) db =
          Except.bind (connectionById row.connectionId db) fun r =>
            .ok (Send.draftView id row.toDraftRow row.connectionId r.1, r.2) := rfl
    dsimp only
    rw [hbind, connectionById_eq]
    cases hc : db.connections.get row.connectionId with
    | none =>
      refine ⟨(fun h => by cases h), ?_⟩
      rintro ⟨-, row', c, hrow, hc', -⟩
      cases hrow
      rw [hc] at hc'
      cases hc'
    | some c =>
      constructor
      · intro h
        cases h
        exact ⟨rfl, row, c, rfl, hc, rfl⟩
      · rintro ⟨rfl, row', c', hrow, hc', rfl⟩
        cases hrow
        rw [hc] at hc'
        cases hc'
        rfl

/-! ## After any calls -/

/-- The drafts that calls edit: each that of the call's user. -/
def Edited (calls : List (Nat × Call)) (v id : Nat) : Prop :=
  ∃ r ∈ calls, ∃ change, r.1 = v ∧ r.2.request = .updateDraft id change

theorem serve_grown (hs : db.Sound) (u : Nat) (c : Call) :
    Grown (Edited [(u, c)]) db ((serve u c).commit db).2 := by
  obtain ⟨A, request⟩ := c
  unfold Tx.commit
  cases hserve : serve u ⟨A, request⟩ db with
  | error e => exact Grown.refl _ db
  | ok r =>
    obtain ⟨x, t⟩ := r
    show Grown _ db t
    have hwithin {α : Type} {p : Tx α} {f : α → Response} {E : Nat → Nat → Prop} (hp : Grows E p)
        (hr : (p >>= fun x => Pure.pure (f x)) db = .ok (x, t)) : Grown E db t :=
      grows_bind hp (fun _ => grows_pure _) db x t hr
    cases request with
    | createDraft a => exact hwithin (grows_createDraft A u a) hserve
    | getDraft id => exact hwithin (grows_getDraft u id) hserve
    | updateDraft id change =>
      refine (hwithin (grows_updateDraft A u id change) hserve).mono ?_
      rintro v m ⟨rfl, rfl⟩
      exact ⟨_, List.mem_singleton.2 rfl, change, rfl, rfl⟩
    | sendDraft id confirmed => exact hwithin (grows_sendDraft A u id confirmed) hserve
    | operatorRetry id => exact hwithin (grows_operatorRetry A u id) hserve
    | resolveSend id resolution note =>
      exact grows_bind (grows_resolveSend A u id resolution note) (fun _ => grows_pure _) db x t hserve
    | sendDetail id => exact hwithin (grows_sendDetail A u id) hserve
    | listSends limit includeSeed before =>
      exact hwithin (grows_read_bind _ fun _ => grows_pure _) hserve
    | planSearch query sources =>
      obtain ⟨p, s, hp, h⟩ := Tx.bind_ok hserve
      cases h
      exact (planSearch_ok hs hp).grown hs
    | loadSnapshot id => exact hwithin (grows_loadSnapshot A u id) hserve

/-- What calls of users, one after another, leave. -/
def called (calls : List (Nat × Call)) (db : Database) : Database :=
  (Tx.session (fun r : Nat × Call => serve r.1 r.2) calls db).2

theorem called_grown (calls : List (Nat × Call)) (hs : db.Sound) :
    (called calls db).Sound ∧ Grown (Edited calls) db (called calls db) := by
  refine Tx.session_within (I := Database.Sound) (Grown.refl _) (fun _ _ _ h h' => h.trans h') calls db (fun r hr db hs => ?_) hs
  refine ⟨hs.serve r.1 r.2, (serve_grown hs r.1 r.2).mono ?_⟩
  rintro v id ⟨r', hr', he⟩
  exact ⟨r', List.mem_singleton.1 hr' ▸ hr, he⟩

/-- **What a user is shown stays as it is, whatever any user calls**: a search and all that is shown of it, and the view
of a draft, which only its owner's edit changes. -/
theorem reads_stay (calls : List (Nat × Call)) (hs : db.Sound) (v id : Nat) :
    (∀ A s, db.searchOf v id = some s → ∃ shown, loadSnapshot A v id db = .ok (some shown, db) ∧
      loadSnapshot A v id (called calls db) = .ok (some shown, called calls db)) ∧
    (∀ view, getDraft v id db = .ok (view, db) → (∀ r ∈ calls, ∀ change, r.2.request = .updateDraft id change → r.1 ≠ v) →
      getDraft v id (called calls db) = .ok (view, called calls db)) := by
  have hgrown := (called_grown calls hs).2
  refine ⟨fun A s hsearch => hgrown.snapshot A hsearch, fun view hview hedits => ?_⟩
  obtain ⟨-, row, c, hd, hc, rfl⟩ := getDraft_ok_iff.1 hview
  have hnot : ¬ Edited calls v id := by
    rintro ⟨r, hr, change, hv, he⟩
    exact hedits r hr change he hv
  exact getDraft_ok_iff.2 ⟨rfl, row, c, hgrown.drafts v id row hnot hd, hgrown.connections ▸ hc, rfl⟩

theorem ok_of_toOption {ε α : Type} {x : Except ε α} {a : α} (h : x.toOption = some a) : x = .ok a := by
  cases x with
  | error e => cases h
  | ok b => exact congrArg Except.ok (Option.some.inj h)

def searching : Around :=
  { around with registry := ⟨[("gmail", {}), ("web", { requiresConnection := false })], fun source => source⟩ }

/-- Once the first user has drafted a reply. -/
def replied : Database := called [(1, replyTo 4)] found

/-- The second user searches and would edit the first's draft, and the first drafts another. -/
def between : List (Nat × Call) :=
  [(2, ⟨searching, .planSearch "budget" []⟩), (2, ⟨around, .updateDraft 101 {}⟩), (1, replyTo 4)]

theorem reads_stay_two :
    (∃ shown, loadSnapshot around 1 10 replied = .ok (some shown, replied) ∧
      loadSnapshot around 1 10 (called between replied) = .ok (some shown, called between replied)) ∧
    ∃ view, getDraft 1 101 replied = .ok (view, replied) ∧
      getDraft 1 101 (called between replied) = .ok (view, called between replied) := by
  obtain ⟨hsearches, hdrafts⟩ := reads_stay between (called_grown _ found_sound).1 1 101
  have hthere : (getDraft 1 101 replied).toOption.isSome = true := by decide +kernel
  obtain ⟨⟨view, db'⟩, hview⟩ := Option.isSome_iff_exists.1 hthere
  have hview := ok_of_toOption hview
  obtain rfl := (getDraft_ok_iff.1 hview).1
  refine ⟨(reads_stay between (called_grown _ found_sound).1 1 10).1 around (searchBy 1) rfl, view, hview, ?_⟩
  refine hdrafts view hview fun r hr change hrequest hu => ?_
  simp only [between, List.mem_cons, List.not_mem_nil, or_false] at hr
  rcases hr with rfl | rfl | rfl
  · cases hrequest
  · cases hu
  · cases hrequest

/-- **A search that was planned is shown to its user as it was planned**, whatever is called until something runs it: its
query, no result, and a pending run for each that was planned, which a job of its own is waiting to carry out.  Nobody
else is shown it. -/
theorem planned_snapshot (hs : db.Sound) (h : planSearch A u query sources db = .ok (plan, db'))
    (calls : List (Nat × Call)) :
    (∀ B, ∃ shown, loadSnapshot B u plan.searchId (called calls db') = .ok (some shown, called calls db') ∧
      shown.searchId = plan.searchId ∧ shown.query = query ∧ shown.isSeed = false ∧ shown.finished = false ∧
      shown.merged = some [] ∧ shown.sources.Perm (plan.runs.map (PlannedRun.pending db))) ∧
    (∀ r ∈ plan.runs, ∃ n, r.jobId = some n ∧
      (called calls db').jobs.get n = some (Queue.newRow A.settings A.now (Search.adapterJob r.adapterRunId))) ∧
    ∀ B v, v ≠ u → loadSnapshot B v plan.searchId (called calls db') = .ok (none, called calls db') := by
  have hplanned := planSearch_ok hs h
  have hs' : db'.Sound := by
    have hserved : serve u ⟨A, .planSearch query sources⟩ db = .ok (.plan plan, db') := Tx.bind_of_ok _ h
    have hkept := hs.serve u ⟨A, .planSearch query sources⟩
    rw [Tx.commit_of_ok hserved] at hkept
    exact hkept
  obtain ⟨hsound, hgrown⟩ := called_grown calls hs'
  have hsearch := hplanned.searchOf hs
  refine ⟨fun B => ?_, fun r hr => ?_, fun B v hv => ?_⟩
  · obtain ⟨shown, hshown, hstays⟩ := hgrown.snapshot B hsearch
    obtain ⟨shown', hshown', hplan⟩ := hplanned.snapshot hs B
    have hsame := hshown.symm.trans hshown'
    cases hsame
    exact ⟨shown, hstays, hplan⟩
  · obtain ⟨n, hn, hj⟩ := hplanned.jobs r hr
    exact ⟨n, hn, hgrown.ready n _ hj rfl⟩
  · have hnone : (called calls db').searchOf v plan.searchId = none := by
      cases hother : (called calls db').searchOf v plan.searchId with
      | none => rfl
      | some s =>
        obtain ⟨hmem, hu⟩ := searchOf_mem hother
        obtain ⟨hmem', hu'⟩ := searchOf_mem (hgrown.searchOf hsearch)
        have hsame := congrArg Prod.snd (Keyed.eq_of_key hsound.searchKeys hmem hmem' rfl)
        exact absurd (hu.symm.trans ((congrArg (·.userId) hsame).trans hu')) hv
    unfold loadSnapshot
    rw [Tx.read_bind, hnone]
    rfl

theorem planned_snapshot_mail : ∃ plan db', planSearch searching 1 "budget" [] found = .ok (plan, db') ∧
    plan.runs.map (fun r => (r.source, r.connectionId)) = [("gmail", some 0), ("web", none)] ∧
      (∀ r ∈ plan.runs, ∃ n, r.jobId = some n ∧ (called [(2, replyTo 4)] db').jobs.get n =
        some (Queue.newRow searching.settings searching.now (Search.adapterJob r.adapterRunId))) ∧
      ∀ v, v ≠ 1 → loadSnapshot searching v plan.searchId (called [(2, replyTo 4)] db') =
        .ok (none, called [(2, replyTo 4)] db') := by
  have hruns : (planSearch searching 1 "budget" [] found).toOption.map (fun p => p.1.runs.map fun r =>
      (r.source, r.connectionId)) = some [("gmail", some 0), ("web", none)] := by decide +kernel
  obtain ⟨⟨plan, db'⟩, hplan, hruns⟩ := Option.map_eq_some_iff.1 hruns
  have h := ok_of_toOption hplan
  obtain ⟨-, hjobs, hstrangers⟩ := planned_snapshot found_sound h [(2, replyTo 4)]
  exact ⟨plan, db', h, hruns, hjobs, hstrangers searching⟩

/-! ## Rerun -/

/-- `rerun_search`: the same query again, as a new search. -/
def rerunSearch (A : Around) (u id : Nat) : Tx SearchPlan := do
  match ← Tx.read fun db => db.searchOf u id with
  | none => Tx.refuse (notFound "search")
  | some search => planSearch A u search.query []

/-- **A rerun is another search of the same query**, shown as one that was just planned, and every search that was there
is shown as it was, the one that was run again among them. -/
theorem rerun_anew (hs : db.Sound) (h : rerunSearch A u id db = .ok (plan, db')) :
    (∀ v n s, db.searchOf v n = some s → plan.searchId ≠ n ∧ ∀ B, ∃ shown,
      loadSnapshot B v n db = .ok (some shown, db) ∧ loadSnapshot B v n db' = .ok (some shown, db')) ∧
    ∃ s, db.searchOf u id = some s ∧ plan.query = s.query ∧ ∀ B, ∃ shown,
      loadSnapshot B u plan.searchId db' = .ok (some shown, db') ∧ shown.query = s.query ∧ shown.finished = false ∧
      shown.merged = some [] ∧ shown.sources.Perm (plan.runs.map (PlannedRun.pending db)) := by
  obtain ⟨found, t, hread, hplan⟩ := Tx.bind_ok h
  cases hread
  dsimp only at hplan
  cases hsearch : db.searchOf u id with
  | none =>
    rw [hsearch] at hplan
    cases hplan
  | some search =>
    rw [hsearch] at hplan
    have hplanned := planSearch_ok hs hplan
    refine ⟨fun v n s hold => ⟨fun he => ?_, fun B => (hplanned.grown hs (E := fun _ _ => False)).snapshot B hold⟩, search,
      rfl, hplanned.query, fun B => ?_⟩
    · exact (hplanned.unused hs).searches _ (searchOf_mem hold).1 he.symm
    · obtain ⟨shown, hshown, -, hquery, -, hfinished, hmerged, hsources⟩ := hplanned.snapshot hs B
      exact ⟨shown, hshown, hquery, hfinished, hmerged, hsources⟩

theorem rerun_anew_mail : ∃ plan db', rerunSearch searching 1 10 found = .ok (plan, db') ∧ plan.searchId ≠ 10 ∧
    ∃ s, found.searchOf 1 10 = some s ∧ plan.query = s.query := by
  have hquery : (rerunSearch searching 1 10 found).toOption.map (fun p => p.1.query) = some "budget" := by decide +kernel
  obtain ⟨⟨plan, db'⟩, hplan, -⟩ := Option.map_eq_some_iff.1 hquery
  have h := ok_of_toOption hplan
  obtain ⟨hothers, s, hs, hsame, -⟩ := rerun_anew found_sound h
  exact ⟨plan, db', h, (hothers 1 10 s hs).1, s, hs, hsame⟩

end Isolation
end SafeSend
